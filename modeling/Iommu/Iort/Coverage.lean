import Iommu.Iort.Contents

/-!
Which requesters of a segment the root complex covers: as a set of ranges, for one
requester, and as the requesters whose IDs a mapping translates.
-/

namespace Iommu

open MachineWord FirmwareTable

namespace IortIdMapping

/-- The IDs that the mapping takes are requesters, all of them for a single mapping. -/
def Resolves (mapping : IortIdMapping) : Prop :=
  mapping.isSingleMapping = true ∨ mapping.inputBase.toNat + mapping.idCount.toNat ≤ 0xffff

instance (mapping : IortIdMapping) : Decidable mapping.Resolves := inferInstanceAs (Decidable (_ ∨ _))

def Takes (mapping : IortIdMapping) (id : Nat) : Prop :=
  mapping.isSingleMapping = true ∨
    mapping.inputBase.toNat ≤ id ∧ id ≤ mapping.inputBase.toNat + mapping.idCount.toNat

instance (mapping : IortIdMapping) (id : Nat) : Decidable (mapping.Takes id) :=
  inferInstanceAs (Decidable (_ ∨ _))

/-- The ID that the mapping gives for one that it takes is a 32-bit number. -/
def Fits (mapping : IortIdMapping) (id : Nat) : Prop :=
  mapping.isSingleMapping = true ∨
    mapping.inputBase.toNat + mapping.idCount.toNat < 2 ^ 32 ∧
      mapping.outputBase.toNat + (id - mapping.inputBase.toNat) < 2 ^ 32

def window (mapping : IortIdMapping) : Option BdfRange := mapping.inputBdfRange.toOption.join

def requesters (mapping : IortIdMapping) : Span Nat :=
  if mapping.isSingleMapping then ⟨0, 0x10000⟩
  else ⟨mapping.inputBase.toNat, mapping.inputBase.toNat + mapping.idCount.toNat + 1⟩

variable {mapping : IortIdMapping}

theorem requesters_contains (bdf : Bdf) :
    mapping.requesters.Contains bdf.asU32 ↔ mapping.Takes bdf.asU32 := by
  have below := bdf.asU32_lt
  rw [requesters, Takes]
  split
  · next single =>
    simp only [Span.Contains, single, true_or, iff_true]
    exact ⟨Nat.zero_le _, below⟩
  · next several => simp [Span.Contains, several, Nat.lt_succ_iff]

theorem inputBdfRange_resolved (resolves : mapping.Resolves) :
    ∃ range, mapping.inputBdfRange = .ok (some range) ∧ range.isEmpty = false ∧
      range.span = mapping.requesters := by
  rw [inputBdfRange, requesters]
  cases single : mapping.isSingleMapping with
  | true =>
      obtain ⟨range, built, filled, _⟩ :=
        BdfRange.inclusive_of_le (by decide : (⟨0⟩ : Bdf).asU32 ≤ (⟨0xffff⟩ : Bdf).asU32)
      refine ⟨range, ?_, filled, BdfRange.inclusive_span built⟩
      rw [if_pos rfl, built]
      rfl
  | false =>
      have small := resolves.resolve_left (by simp [single])
      have wide := mapping.inputBase.toNat_lt
      have added : (mapping.inputBase + mapping.idCount).toNat =
          mapping.inputBase.toNat + mapping.idCount.toNat := by
        rw [UInt32.toNat_add]
        omega
      have first : (⟨mapping.inputBase.toUInt16⟩ : Bdf).asU32 = mapping.inputBase.toNat := by
        rw [Bdf.asU32, UInt32.toNat_toUInt16]
        omega
      have last : (⟨(mapping.inputBase + mapping.idCount).toUInt16⟩ : Bdf).asU32 =
          mapping.inputBase.toNat + mapping.idCount.toNat := by
        rw [Bdf.asU32, UInt32.toNat_toUInt16, added]
        omega
      have ordered : (⟨mapping.inputBase.toUInt16⟩ : Bdf).asU32 ≤
          (⟨(mapping.inputBase + mapping.idCount).toUInt16⟩ : Bdf).asU32 := by
        rw [first, last]
        exact Nat.le_add_right _ _
      obtain ⟨range, built, filled, _⟩ := BdfRange.inclusive_of_le ordered
      have inside : ¬(0xffff < mapping.inputBase ∨ 0xffff < mapping.inputBase + mapping.idCount) := by
        simp only [UInt32.lt_iff_toNat_lt, added, UInt32.reduceToNat]
        omega
      refine ⟨range, ?_, filled, ?_⟩
      · rw [if_neg Bool.false_ne_true, checkedAdd32_eq_some.mpr added.symm]
        dsimp only
        rw [if_neg inside, built]
      · rw [BdfRange.inclusive_span built, first, last]
        rfl

theorem inputBdfRange_unresolved (unresolved : ¬mapping.Resolves) :
    mapping.inputBdfRange = .ok none := by
  obtain ⟨several, large⟩ := not_or.mp unresolved
  rw [inputBdfRange, if_neg several]
  cases added : checkedAdd32 mapping.inputBase mapping.idCount with
  | none => rfl
  | some last =>
      have sum := checkedAdd32_eq_some.mp added
      dsimp only
      rw [if_pos]
      simp only [UInt32.lt_iff_toNat_lt, UInt32.reduceToNat]
      omega

theorem inputBdfRange_eq (mapping : IortIdMapping) : mapping.inputBdfRange = .ok mapping.window := by
  rw [window]
  by_cases resolves : mapping.Resolves
  · obtain ⟨range, found, _⟩ := inputBdfRange_resolved resolves
    rw [found]
    rfl
  · rw [inputBdfRange_unresolved resolves]
    rfl

theorem window_eq_none : mapping.window = none ↔ ¬mapping.Resolves := by
  have found := mapping.inputBdfRange_eq
  by_cases resolves : mapping.Resolves
  · obtain ⟨range, resolved, _⟩ := inputBdfRange_resolved resolves
    rw [resolved] at found
    simp [← Except.ok.inj found, resolves]
  · rw [inputBdfRange_unresolved resolves] at found
    simp [← Except.ok.inj found, resolves]

theorem window_filled {range : BdfRange} (found : mapping.window = some range) :
    range.isEmpty = false := by
  have resolves : mapping.Resolves := by
    by_contra unresolved
    rw [window_eq_none.mpr unresolved] at found
    cases found
  obtain ⟨other, resolved, filled, _⟩ := inputBdfRange_resolved resolves
  rw [inputBdfRange_eq, found] at resolved
  cases resolved
  exact filled

theorem window_contains (bdf : Bdf) :
    (∃ range, mapping.window = some range ∧ range.contains bdf = true) ↔
      mapping.Resolves ∧ mapping.Takes bdf.asU32 := by
  have found := mapping.inputBdfRange_eq
  by_cases resolves : mapping.Resolves
  · obtain ⟨range, resolved, _, span⟩ := inputBdfRange_resolved resolves
    rw [resolved] at found
    simp [← Except.ok.inj found, resolves, BdfRange.contains_iff, span, requesters_contains]
  · rw [window_eq_none.mpr resolves]
    simp [resolves]

theorem window_span (mapping : IortIdMapping) :
    mapping.window.map BdfRange.span = if mapping.Resolves then some mapping.requesters else none := by
  split
  · next resolves =>
    obtain ⟨range, resolved, _, span⟩ := inputBdfRange_resolved resolves
    rw [window, resolved, ← span]
    rfl
  · next unresolved =>
    rw [window_eq_none.mpr unresolved]
    rfl

theorem translateForNodeKind_rootComplex (mapping : IortIdMapping) (id : UInt32) :
    mapping.translateForNodeKind .rootComplex id ≠ none ↔
      mapping.Takes id.toNat ∧ mapping.Fits id.toNat := by
  rw [translateForNodeKind, Takes, Fits]
  cases single : mapping.isSingleMapping with
  | true => simp [IortNodeKind.singleMappingAllowed]
  | false =>
      rw [if_neg Bool.false_ne_true]
      simp only [Bool.false_eq_true, false_or]
      cases added : checkedAdd32 mapping.inputBase mapping.idCount with
      | none =>
          have overflows := checkedAdd32_eq_none.mp added
          simp only [Option.bind_eq_bind, Option.bind_none, ne_eq, not_true_eq_false, false_iff]
          omega
      | some last =>
          have sum := checkedAdd32_eq_some.mp added
          have bounded := last.toNat_lt
          rw [Option.bind_eq_bind, Option.bind_some]
          by_cases outside : id < mapping.inputBase ∨ last < id
          · rw [if_pos outside]
            simp only [UInt32.lt_iff_toNat_lt] at outside
            simp only [ne_eq, not_true_eq_false, false_iff]
            omega
          · rw [if_neg outside]
            simp only [UInt32.lt_iff_toNat_lt, not_or, Nat.not_lt] at outside
            have ordered := UInt32.le_iff_toNat_le.mpr outside.1
            have difference := UInt32.toNat_sub_of_le _ _ ordered
            rw [checkedSub32, if_pos ordered, Option.bind_some, ne_eq, checkedAdd32_eq_none, difference]
            omega

end IortIdMapping

def windows (mappings : List IortIdMapping) : List BdfRange := mappings.filterMap IortIdMapping.window

def MapsCover (mappings : List IortIdMapping) (bdf : Bdf) : Prop :=
  ∃ mapping ∈ mappings, mapping.Resolves ∧ mapping.Takes bdf.asU32

def MapsUnresolved (mappings : List IortIdMapping) : Prop := ∃ mapping ∈ mappings, ¬mapping.Resolves

instance (mappings : List IortIdMapping) (bdf : Bdf) : Decidable (MapsCover mappings bdf) :=
  inferInstanceAs (Decidable (∃ mapping ∈ mappings, _))

instance (mappings : List IortIdMapping) : Decidable (MapsUnresolved mappings) :=
  inferInstanceAs (Decidable (∃ mapping ∈ mappings, _))

theorem windows_filled (mappings : List IortIdMapping) :
    ∀ range ∈ windows mappings, range.isEmpty = false := by
  intro range member
  obtain ⟨mapping, _, found⟩ := List.mem_filterMap.mp member
  exact IortIdMapping.window_filled found

theorem windows_contain (mappings : List IortIdMapping) (bdf : Bdf) :
    (∃ range ∈ windows mappings, range.contains bdf = true) ↔ MapsCover mappings bdf := by
  simp only [windows, MapsCover, List.mem_filterMap, ← IortIdMapping.window_contains]
  constructor
  · rintro ⟨range, ⟨mapping, member, found⟩, inside⟩
    exact ⟨mapping, member, range, found, inside⟩
  · rintro ⟨mapping, member, range, found, inside⟩
    exact ⟨range, ⟨mapping, member, found⟩, inside⟩

namespace IortTable

variable {table : IortTable} {header : IortNodeHeader} {mappings : List IortIdMapping}

theorem collectRange_eq_ok {range : BdfRange} {ranges final : IortBdfRangeSet} :
    collectRange range ranges = .ok final ↔ BdfRangeSet.insert range ranges = (.ok (), final) := by
  rw [collectRange]
  rcases BdfRangeSet.insert range ranges with ⟨outcome, after⟩
  cases outcome with
  | error error => simp [Parse.fail]
  | ok value => simp

theorem collectMappings_eq_ok (mappings : List IortIdMapping) (ranges final : IortBdfRangeSet) :
    forIn mappings ranges collectMapping = .ok final ↔
      BdfRangeSet.insertEach (windows mappings) ranges = (.ok (), final) := by
  induction mappings generalizing ranges with
  | nil =>
      simp only [windows, List.forIn_nil, List.filterMap_nil, BdfRangeSet.insertEach]
      constructor
      · rintro ⟨⟩
        rfl
      · rintro ⟨⟩
        rfl
  | cons mapping rest ih =>
      rw [List.forIn_cons, collectMapping, mapping.inputBdfRange_eq, Parse.ok_bind, windows]
      cases found : mapping.window with
      | none =>
          rw [List.filterMap_cons_none found]
          exact ih ranges
      | some range =>
          rw [List.filterMap_cons_some found, BdfRangeSet.insertEach, Effect.bind_eq_ok]
          simp only [Parse.bind_eq_ok, Parse.map_eq_ok, collectRange_eq_ok]
          constructor
          · rintro ⟨_, ⟨after, inserted, rfl⟩, others⟩
            exact ⟨(), after, inserted, (ih after).mp others⟩
          · rintro ⟨_, after, inserted, others⟩
            exact ⟨_, ⟨after, inserted, rfl⟩, (ih after).mpr others⟩

theorem matchMappings_eq (bdf : Bdf) (mappings : List IortIdMapping) (flags : RequesterFlags) :
    forIn mappings flags (matchMapping bdf) = (.ok ⟨flags.covered || decide (MapsCover mappings bdf),
      flags.unresolved || decide (MapsUnresolved mappings)⟩ : Parse IortError RequesterFlags) := by
  induction mappings generalizing flags with
  | nil =>
      simp only [MapsCover, MapsUnresolved, List.forIn_nil, List.not_mem_nil, false_and, exists_false,
        decide_false, Bool.or_false]
      rfl
  | cons mapping rest ih =>
      have covers : MapsCover (mapping :: rest) bdf ↔
          mapping.Resolves ∧ mapping.Takes bdf.asU32 ∨ MapsCover rest bdf := by
        simp [MapsCover]
      have unresolved : MapsUnresolved (mapping :: rest) ↔
          ¬mapping.Resolves ∨ MapsUnresolved rest := by
        simp [MapsUnresolved]
      have contains := mapping.window_contains bdf
      rw [List.forIn_cons, matchMapping, mapping.inputBdfRange_eq, Parse.ok_bind]
      simp only [covers, unresolved, Bool.decide_or]
      cases found : mapping.window with
      | none =>
          have open_ended := IortIdMapping.window_eq_none.mp found
          simp [ih, open_ended]
      | some range =>
          have resolves : mapping.Resolves := by
            by_contra open_ended
            rw [IortIdMapping.window_eq_none.mpr open_ended] at found
            cases found
          simp only [found, Option.some.injEq, exists_eq_left', resolves, true_and] at contains
          simp only [resolves, true_and, ← contains]
          by_cases inside : range.contains bdf = true
          · simp [ih, inside]
          · simp [ih, inside]

def reply (mappings : List IortIdMapping) (bdf : Bdf) : IortRequesterMatch :=
  if MapsCover mappings bdf then .covered
  else if MapsUnresolved mappings then .unresolved
  else .notCovered

theorem reply_eq_covered {bdf : Bdf} : reply mappings bdf = .covered ↔ MapsCover mappings bdf := by
  rw [reply]
  grind

theorem reply_eq_notCovered {bdf : Bdf} :
    reply mappings bdf = .notCovered ↔ ¬MapsCover mappings bdf ∧ ¬MapsUnresolved mappings := by
  rw [reply]
  grind

theorem rootComplexRequesterMatch_eq {requester : PciDevice} {root : IortRootComplex}
    (rooted : table.rootComplexForSegment requester.segment = .ok (some root))
    (maps : table.Maps root.header mappings) :
    table.rootComplexRequesterMatch requester = .ok (some (reply mappings requester.bdf)) := by
  rw [rootComplexRequesterMatch, rooted, Parse.ok_bind]
  dsimp only
  rw [idMappingsFor, forIdMappings_eq maps, matchMappings_eq, Parse.ok_bind]
  simp only [Bool.false_or, RequesterFlags.result, decide_eq_true_iff, reply]
  rfl

theorem rootComplexRequesterMatch_answered {requester : PciDevice} {answer : IortRequesterMatch}
    (answered : table.rootComplexRequesterMatch requester = .ok (some answer)) :
    ∃ root mappings, table.rootComplexForSegment requester.segment = .ok (some root) ∧
      table.Maps root.header mappings ∧ answer = reply mappings requester.bdf := by
  obtain ⟨found, rooted, rest⟩ := Parse.bind_eq_ok.mp answered
  cases found with
  | none => cases rest
  | some root =>
      obtain ⟨flags, ran, _⟩ := Parse.bind_eq_ok.mp rest
      have is_root := table.rootComplexForSegment_found requester.segment _ rooted root rfl
      obtain ⟨mappings, maps⟩ := maps_of_loop is_root.fits ran
      rw [rootComplexRequesterMatch_eq rooted maps] at answered
      exact ⟨root, mappings, rooted, maps, (Option.some.inj (Except.ok.inj answered)).symm⟩

theorem rootComplexBdfRanges_eq_some (table : IortTable) (segment : UInt16) (set : IortBdfRangeSet) :
    table.rootComplexBdfRanges segment = .ok (some set) ↔
      ∃ root mappings, table.rootComplexForSegment segment = .ok (some root) ∧
        table.Maps root.header mappings ∧ windows mappings ≠ [] ∧
        BdfRangeSet.insertEach (windows mappings) .empty = (.ok (), set) := by
  rw [rootComplexBdfRanges, Parse.bind_eq_ok]
  constructor
  · rintro ⟨found, rooted, rest⟩
    cases found with
    | none => cases rest
    | some root =>
        obtain ⟨ranges, ran, returned⟩ := Parse.bind_eq_ok.mp rest
        have is_root := table.rootComplexForSegment_found segment _ rooted root rfl
        obtain ⟨mappings, maps⟩ := maps_of_loop is_root.fits ran
        rw [idMappingsFor, forIdMappings_eq maps, collectMappings_eq_ok] at ran
        have empty := BdfRangeSet.insertEach_count_zero (windows_filled mappings) ran
        split at returned
        · cases returned
        · next filled =>
          cases returned
          exact ⟨root, mappings, rooted, maps, fun none => filled (empty.mpr none), ran⟩
  · rintro ⟨root, mappings, rooted, maps, filled, ran⟩
    have empty := BdfRangeSet.insertEach_count_zero (windows_filled mappings) ran
    refine ⟨some root, rooted, ?_⟩
    dsimp only
    rw [idMappingsFor, forIdMappings_eq maps, (collectMappings_eq_ok _ _ _).mpr ran, Parse.ok_bind,
      if_neg fun nothing => filled (empty.mp nothing)]
    rfl

theorem stepMapping_value (kind : IortNodeKind) (id : UInt32) (mapping : IortIdMapping)
    (fallback : Option IortSingleStepTranslation) :
    (stepMapping kind id mapping fallback).value ≠ none ↔
      fallback ≠ none ∨ mapping.translateForNodeKind kind id ≠ none := by
  rw [stepMapping]
  cases mapping.translateForNodeKind kind id with
  | none => simp [ForInStep.value]
  | some output =>
      dsimp only
      split
      · simp [ForInStep.value]
      · simp [ForInStep.value]

theorem stepMappings_ne_none (kind : IortNodeKind) (id : UInt32) (mappings : List IortIdMapping)
    (fallback : Option IortSingleStepTranslation) :
    stepMappings kind id mappings fallback ≠ none ↔
      fallback ≠ none ∨ ∃ mapping ∈ mappings, mapping.translateForNodeKind kind id ≠ none := by
  induction mappings generalizing fallback with
  | nil => simp [stepMappings]
  | cons mapping rest ih =>
      have value := stepMapping_value kind id mapping fallback
      simp only [stepMappings, List.mem_cons, exists_eq_or_imp]
      cases stepped : stepMapping kind id mapping fallback with
      | done found =>
          rw [stepped] at value
          have given : found ≠ none := by
            rw [stepMapping] at stepped
            split at stepped
            · cases stepped
            · dsimp only at stepped
              split at stepped
              · cases stepped
              · cases stepped
                exact Option.some_ne_none _
          have either := value.mp given
          grind
      | yield found =>
          rw [stepped] at value
          exact (ih found).trans ((or_congr_left value).trans or_assoc)

end IortTable

end Iommu
