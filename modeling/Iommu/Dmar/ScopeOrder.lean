import Iommu.BdfRangeSet.Equality
import Iommu.Dmar.Agreement
import Iommu.Dmar.ScopeEntries

/-!
The order in which a unit lists its device scopes, and the query for its ranges. The
set that the query fills has to hold what each part of the list comes to, so a list may
be refused where the same scopes in another order are not.
-/

namespace Iommu

open MachineWord FirmwareTable

/-- The runs that the requesters of the ranges fall into, none next to another. -/
def MaximalRuns (ranges : List BdfRange) (runs : List (Span Nat)) : Prop :=
  Span.Separated runs ∧
    ∀ point, Span.Covers runs point ↔ ∃ range ∈ ranges, range.span.Contains point

def Overfull (scopes : List DmarDeviceScope) : Prop :=
  ∃ runs, MaximalRuns (named scopes) runs ∧ DMAR_REQUESTER_WINDOW_CAPACITY < runs.length

theorem MaximalRuns.unique {ranges : List BdfRange} {first second : List (Span Nat)}
    (one : MaximalRuns ranges first) (other : MaximalRuns ranges second) : first = second :=
  one.1.eq_of_covers other.1 fun point => (one.2 point).trans (other.2 point).symm

theorem maximalRuns_merged {ranges : List BdfRange}
    (filled : ∀ range ∈ ranges, range.isEmpty = false) :
    MaximalRuns ranges (BdfRangeSet.merged ranges []) := by
  obtain ⟨separated, covers⟩ := BdfRangeSet.merged_runs filled BdfRangeSet.separated_nil
  refine ⟨separated, fun point => (covers point).trans ?_⟩
  simp [BdfRangeSet.spans, Span.Covers]

theorem overfull_iff {scopes : List DmarDeviceScope}
    (filled : ∀ range ∈ named scopes, range.isEmpty = false) :
    Overfull scopes ↔
      DMAR_REQUESTER_WINDOW_CAPACITY < (BdfRangeSet.merged (named scopes) []).length := by
  constructor
  · rintro ⟨runs, maximal, many⟩
    rw [← maximal.unique (maximalRuns_merged filled)]
    exact many
  · exact fun many => ⟨_, maximalRuns_merged filled, many⟩

theorem insertEach_named {scopes : List DmarDeviceScope}
    (filled : ∀ range ∈ named scopes, range.isEmpty = false) :
    (∃ set : DmarBdfRangeSet, BdfRangeSet.insertEach (named scopes) .empty = (.ok (), set)) ↔
      ∀ visited, visited <+: scopes → ¬Overfull visited := by
  have inserted := BdfRangeSet.insertEach_ok_iff (N := DMAR_REQUESTER_WINDOW_CAPACITY)
    BdfRangeSet.separated_nil (Nat.zero_le _) filled
  refine Iff.trans inserted ?_
  constructor
  · intro fits visited among
    have part : named visited <+: named scopes := among.filterMap _
    rw [overfull_iff fun range member => filled range (part.subset member), Nat.not_lt]
    exact fits _ part
  · intro fits first among
    obtain ⟨visited, part, rfl⟩ := List.prefix_filterMap_iff.mp among
    have inside : named visited <+: named scopes := part.filterMap _
    have room := fits visited part
    rw [overfull_iff fun range member => filled range (inside.subset member), Nat.not_lt] at room
    exact room

theorem RangesQuery.visitScopes_outcome (scopes : List DmarDeviceScope) (query : RangesQuery) :
    (visitEach RangesQuery.visitScope scopes query).1 =
      (BdfRangeSet.insertEach (named scopes) query.ranges).1.mapError
        fun error => .failed (.bdfRanges error) := by
  induction scopes generalizing query with
  | nil => rfl
  | cons scope rest ih =>
      rw [visitEach, RangesQuery.visitScope, named_cons, Effect.bind_apply]
      cases requester : scope.requester with
      | none =>
          simp only [Effect.modify_apply, Option.toList_none, List.nil_append]
          exact ih _
      | some range =>
          simp only [Option.toList_some, List.cons_append, List.nil_append, BdfRangeSet.insertEach,
            Effect.bind_apply, Effect.within_apply, Effect.mapError]
          rcases BdfRangeSet.insert range query.ranges with ⟨outcome, ranges⟩
          cases outcome with
          | error error => rfl
          | ok value => exact ih _

namespace DmarTable

variable {table : DmarTable} {registers : AddrRange} {unit : DmarDrhd}

theorem rangesOfUnits_elsewhere {units : List DmarDrhd}
    (elsewhere : ∀ unit ∈ units, unit.registers ≠ registers) (query : RangesQuery) :
    visitEach (table.rangesOfUnit registers) units query = (.ok (), query) := by
  induction units with
  | nil => rfl
  | cons unit rest ih =>
      obtain ⟨apart, others⟩ := List.forall_mem_cons.mp elsewhere
      rw [visitEach, rangesOfUnit, if_pos apart, Effect.bind_of_ok (Effect.pure_apply _ _), ih others]

theorem rangesOfUnits_sole {units : List DmarDrhd}
    (sole : units.filter (·.registers = registers) = [unit]) (query : RangesQuery) :
    visitEach (table.rangesOfUnit registers) units query =
      table.rangesOfUnit registers unit query := by
  induction units with
  | nil => cases sole
  | cons first rest ih =>
      by_cases here : first.registers = registers
      · rw [List.filter_cons_of_pos (by simpa using here)] at sole
        obtain ⟨rfl, none⟩ := List.cons.inj sole
        have elsewhere : ∀ unit ∈ rest, unit.registers ≠ registers := by
          simpa [List.filter_eq_nil_iff] using none
        rw [visitEach, Effect.bind_apply]
        rcases table.rangesOfUnit registers first query with ⟨outcome, after⟩
        cases outcome with
        | error stop => rfl
        | ok value => exact rangesOfUnits_elsewhere elsewhere after
      · rw [List.filter_cons_of_neg (by simpa using here)] at sole
        rw [visitEach, rangesOfUnit, if_pos here, Effect.bind_of_ok (Effect.pure_apply _ _), ih sole]

theorem forEachStructure_sole (sole : table.drhds.filter (·.registers = registers) = [unit])
    (query : RangesQuery) :
    table.forEachStructure (onDrhd (table.rangesOfUnit registers)) query =
      (table.rangesOfUnit registers unit >>= fun _ => .ofExcept table.scanned.2) query := by
  have visited : visitEach (table.rangesOfUnit registers) (table.scanned.1.filterMap drhd?) query =
    table.rangesOfUnit registers unit query := rangesOfUnits_sole sole query
  rw [forEachStructure, walk_eq_visitAll]
  show visitAll _ table.scanned query = _
  rw [visitAll, visitEach_onDrhd, Effect.bind_apply, visited, Effect.bind_apply]

theorem drhdBdfRanges_includeAll (sole : table.drhds.filter (·.registers = registers) = [unit])
    (here : unit.registers = registers) (all : unit.includeAll = true) :
    table.drhdBdfRanges registers = table.scanned.2 >>= fun _ => .ok none := by
  have visited : table.rangesOfUnit registers unit ⟨false, .empty, false⟩ =
      (.ok (), ⟨true, .empty, false⟩) := by
    rw [rangesOfUnit, if_neg (not_not_intro here), Effect.bind_of_ok (Effect.modify_apply _ _),
      if_pos all]
    rfl
  rw [drhdBdfRanges, forEachStructure_sole sole, Effect.bind_of_ok visited, Effect.ofExcept_apply]
  cases table.scanned.2 with
  | error stop => rfl
  | ok value => rfl

theorem drhdBdfRanges_sole (sole : table.drhds.filter (·.registers = registers) = [unit])
    (here : unit.registers = registers) (listed : unit.includeAll = false) :
    table.drhdBdfRanges registers =
      match BdfRangeSet.insertEach (named (table.scopes unit).1) .empty with
      | (.error error, _) => .error (.failed (.bdfRanges error))
      | (.ok (), (set : DmarBdfRangeSet)) =>
          (table.scopes unit).2 >>= fun _ => table.scanned.2 >>= fun _ =>
            .ok (if Unresolved (table.scopes unit).1 ∨ set.count = 0 then none else some set) := by
  have outcome := RangesQuery.visitScopes_outcome (table.scopes unit).1 ⟨true, .empty, false⟩
  have visits : table.rangesOfUnit registers unit ⟨false, .empty, false⟩ =
      (visitEach RangesQuery.visitScope (table.scopes unit).1 >>= fun _ =>
        .ofExcept (table.scopes unit).2) ⟨true, .empty, false⟩ := by
    rw [rangesOfUnit, if_neg (not_not_intro here), Effect.bind_of_ok (Effect.modify_apply _ _),
      if_neg (by simp [listed]), forEachDrhdDeviceScope_eq, visitAll]
  rw [drhdBdfRanges, forEachStructure_sole sole, Effect.bind_apply, visits, Effect.bind_apply]
  rcases ran : BdfRangeSet.insertEach (named (table.scopes unit).1) (.empty : DmarBdfRangeSet)
    with ⟨inserted, set⟩
  rw [ran] at outcome
  cases inserted with
  | error error =>
      rcases found : visitEach RangesQuery.visitScope (table.scopes unit).1 ⟨true, .empty, false⟩
        with ⟨_, query⟩
      rw [found] at outcome
      cases outcome
      rfl
  | ok value =>
      have collected := (RangesQuery.visitScopes_eq_ok (table.scopes unit).1 ⟨true, .empty, false⟩
        ⟨true, set, decide (Unresolved (table.scopes unit).1)⟩).mpr ⟨ran, by simp, rfl⟩
      rw [collected]
      dsimp only
      rw [Effect.ofExcept_apply]
      cases (table.scopes unit).2 with
      | error stop => rfl
      | ok walked =>
          dsimp only
          rw [Effect.ofExcept_apply]
          cases table.scanned.2 with
          | error stop => rfl
          | ok scan =>
              simp only [Bool.not_true, Bool.false_eq_true, false_or, decide_eq_true_eq]
              split
              · rfl
              · rfl

theorem named_filled (table : DmarTable) (unit : DmarDrhd) :
    ∀ range ∈ named (table.scopes unit).1, range.isEmpty = false := by
  intro range member
  obtain ⟨bdf, rfl⟩ := table.scope_named member
  simp [BdfRange.isEmpty, BdfRange.single]

def RefusedFull (table : DmarTable) (registers : AddrRange) : Prop :=
  table.drhdBdfRanges registers = .error (.failed (.bdfRanges .full))

theorem refusedFull_of_refused (sole : table.drhds.filter (·.registers = unit.registers) = [unit])
    (listed : unit.includeAll = false)
    (refused : (BdfRangeSet.insertEach (named (table.scopes unit).1) (.empty : DmarBdfRangeSet)).1 =
      .error .full) : table.RefusedFull unit.registers := by
  rw [RefusedFull, drhdBdfRanges_sole sole rfl listed]
  rcases ran : BdfRangeSet.insertEach (named (table.scopes unit).1) (.empty : DmarBdfRangeSet)
    with ⟨inserted, set⟩
  rw [ran] at refused
  cases refused
  rfl

theorem refusedFull_iff (member : unit ∈ table.drhds)
    (sole : table.drhds.filter (·.registers = unit.registers) = [unit]) :
    table.RefusedFull unit.registers ↔ unit.includeAll = false ∧
      ∃ visited, visited <+: (table.scopes unit).1 ∧ Overfull visited := by
  have scan_text : table.scanned.2 ≠ .error (.failed (.bdfRanges .full)) := by
    intro failed
    obtain ⟨message, text⟩ := table.scanned_malformation _ failed
    cases text
  rw [RefusedFull]
  cases all : unit.includeAll with
  | true =>
      rw [drhdBdfRanges_includeAll sole rfl all]
      cases ended : table.scanned.2 with
      | error stop => simpa [ended] using scan_text
      | ok value => simp
  | false =>
      have room := insertEach_named (table.named_filled unit)
      rw [drhdBdfRanges_sole sole rfl all]
      rcases ran : BdfRangeSet.insertEach (named (table.scopes unit).1) (.empty : DmarBdfRangeSet)
        with ⟨inserted, set⟩
      cases inserted with
      | error error =>
          obtain rfl := BdfRangeSet.insertEach_empty_refused ran
          simp only [true_and, true_iff]
          by_contra fits
          push Not at fits
          obtain ⟨final, accepted⟩ := room.mpr fits
          rw [ran] at accepted
          cases accepted
      | ok value =>
          have fits := room.mp ⟨set, ran⟩
          simp only [true_and]
          constructor
          · intro failed
            exfalso
            rcases scopes_ends member with ended | ⟨message, ended⟩
            · rw [ended] at failed
              cases scan : table.scanned.2 with
              | error stop => exact scan_text (scan.trans (by simpa [scan] using failed))
              | ok value => simp [scan] at failed
            · simp [ended, malformed, Parse.fail] at failed
          · rintro ⟨visited, among, tooMuch⟩
            exact absurd tooMuch (fits visited among)

end DmarTable

section Reorder

variable {first second : DmarTable} {unit : DmarDrhd} {entries others : List (List UInt8)}

theorem unresolved_perm {scopes reordered : List DmarDeviceScope} (permuted : scopes.Perm reordered) :
    Unresolved scopes ↔ Unresolved reordered := by
  simp only [Unresolved, permuted.mem_iff]

theorem drhdBdfRanges_unlisted (reordered : Reordered first second unit entries others)
    (sole : first.drhds.filter (·.registers = unit.registers) = [unit])
    (all : unit.includeAll = true) :
    first.drhdBdfRanges unit.registers = second.drhdBdfRanges unit.registers := by
  have otherSole : second.drhds.filter (·.registers = unit.registers) = [unit] :=
    reordered.drhds_eq.symm ▸ sole
  rw [DmarTable.drhdBdfRanges_includeAll sole rfl all,
    DmarTable.drhdBdfRanges_includeAll otherSole rfl all, reordered.scanned_eq]

theorem drhdBdfRanges_reordered (reordered : Reordered first second unit entries others)
    (sole : first.drhds.filter (·.registers = unit.registers) = [unit])
    (wellFormed : ∀ entry ∈ entries, WellFormed entry)
    (firstFits : ¬first.RefusedFull unit.registers)
    (secondFits : ¬second.RefusedFull unit.registers) :
    first.drhdBdfRanges unit.registers = second.drhdBdfRanges unit.registers := by
  have otherSole : second.drhds.filter (·.registers = unit.registers) = [unit] :=
    reordered.drhds_eq.symm ▸ sole
  cases all : unit.includeAll with
  | true => exact drhdBdfRanges_unlisted reordered sole all
  | false =>
      obtain ⟨permuted, ended⟩ := reordered.scopes_perm wellFormed
      rw [DmarTable.RefusedFull, DmarTable.drhdBdfRanges_sole sole rfl all] at firstFits
      rw [DmarTable.RefusedFull, DmarTable.drhdBdfRanges_sole otherSole rfl all] at secondFits
      rw [DmarTable.drhdBdfRanges_sole sole rfl all, DmarTable.drhdBdfRanges_sole otherSole rfl all,
        ← ended, reordered.scanned_eq]
      rcases one : BdfRangeSet.insertEach (named (first.scopes unit).1) (.empty : DmarBdfRangeSet)
        with ⟨firstOutcome, firstSet⟩
      rcases two : BdfRangeSet.insertEach (named (second.scopes unit).1) (.empty : DmarBdfRangeSet)
        with ⟨secondOutcome, secondSet⟩
      rw [one] at firstFits
      rw [two] at secondFits
      cases firstOutcome with
      | error error =>
          obtain rfl := BdfRangeSet.insertEach_empty_refused one
          exact absurd rfl firstFits
      | ok value =>
          cases secondOutcome with
          | error error =>
              obtain rfl := BdfRangeSet.insertEach_empty_refused two
              exact absurd rfl secondFits
          | ok value =>
              have same : ∀ range, range ∈ named (first.scopes unit).1 ↔
                  range ∈ named (second.scopes unit).1 :=
                fun range => (permuted.filterMap _).mem_iff
              obtain rfl := BdfRangeSet.insertEach_unique same one two
              simp only [unresolved_perm permuted]

theorem drhdBdfRanges_illFormed (reordered : Reordered first second unit entries others)
    (sole : first.drhds.filter (·.registers = unit.registers) = [unit])
    (listed : unit.includeAll = false) (illFormed : ∃ entry ∈ entries, ¬WellFormed entry)
    (result : Option DmarBdfRangeSet) : first.drhdBdfRanges unit.registers ≠ .ok result := by
  have failed := reordered.scopes_fail illFormed
  rw [DmarTable.drhdBdfRanges_sole sole rfl listed]
  rcases BdfRangeSet.insertEach (named (first.scopes unit).1) (.empty : DmarBdfRangeSet)
    with ⟨outcome, set⟩
  cases outcome with
  | error error => simp
  | ok value =>
      cases ended : (first.scopes unit).2 with
      | error stop => simp
      | ok walked => exact absurd ended failed

end Reorder

/-- The query for the ranges of a unit with a window of its own is refused as full exactly when some
first part of the unit's scopes names more runs of requesters than the set has room for. Where neither of
two orders of the scopes is refused, the answer is the same; a scope that is not well-formed fails both. -/
theorem scope_order_refuses (first second : DmarTable) (unit : DmarDrhd)
    (entries others : List (List UInt8)) (reordered : Reordered first second unit entries others)
    (sole : first.drhds.filter (·.registers = unit.registers) = [unit]) :
    (∀ table ∈ [first, second], table.RefusedFull unit.registers ↔ unit.includeAll = false ∧
      ∃ visited, visited <+: (table.scopes unit).1 ∧ Overfull visited) ∧
    ((∀ entry ∈ entries, WellFormed entry) → (first.scopes unit).1.Perm (second.scopes unit).1 ∧
      (¬first.RefusedFull unit.registers → ¬second.RefusedFull unit.registers →
        first.drhdBdfRanges unit.registers = second.drhdBdfRanges unit.registers)) ∧
    ((∃ entry ∈ entries, ¬WellFormed entry) → unit.includeAll = false → ∀ result,
      first.drhdBdfRanges unit.registers ≠ .ok result ∧
        second.drhdBdfRanges unit.registers ≠ .ok result) ∧
    (unit.includeAll = true →
      first.drhdBdfRanges unit.registers = second.drhdBdfRanges unit.registers) := by
  have otherSole : second.drhds.filter (·.registers = unit.registers) = [unit] :=
    reordered.drhds_eq.symm ▸ sole
  refine ⟨?_, fun wellFormed => ⟨(reordered.scopes_perm wellFormed).1, ?_⟩, ?_,
    drhdBdfRanges_unlisted reordered sole⟩
  · simp only [List.mem_cons, List.not_mem_nil, or_false, forall_eq_or_imp, forall_eq]
    exact ⟨DmarTable.refusedFull_iff reordered.member sole,
      DmarTable.refusedFull_iff reordered.symm.member otherSole⟩
  · exact drhdBdfRanges_reordered reordered sole wellFormed
  · intro illFormed listed result
    refine ⟨drhdBdfRanges_illFormed reordered sole listed illFormed result,
      drhdBdfRanges_illFormed reordered.symm otherSole listed ?_ result⟩
    obtain ⟨entry, among, fails⟩ := illFormed
    exact ⟨entry, reordered.permuted.mem_iff.mp among, fails⟩

def endpointEntry (device function : UInt8) : List UInt8 := [1, 8, 0, 0, 0, 0, device, function]

def evenEntries : List (List UInt8) :=
  (List.range 17).map fun index => endpointEntry (.ofNat (index / 4)) (.ofNat (index % 4 * 2))

def dmarListing (entries : List (List UInt8)) : List UInt8 :=
  DMAR.signature ++ [208, 0, 0, 0] ++ List.replicate 40 0 ++
    [0, 0, 160, 0, 0, 0, 0, 0, 0, 0, 0xd9, 0xfe, 0, 0, 0, 0] ++ entries.flatten

def dmarEvensFirst : DmarTable :=
  ⟨dmarListing (evenEntries ++ [endpointEntry 0 1]), by decide +kernel, by decide +kernel⟩

def dmarOddFirst : DmarTable :=
  ⟨dmarListing (endpointEntry 0 1 :: evenEntries), by decide +kernel, by decide +kernel⟩

def dmarListingUnit : DmarDrhd where
  flags := 0
  segment := 0
  registers := dmarSampleWindow
  includeAll := false
  hasDeviceScopes := true
  structureOffset := 48
  length := 160

theorem dmarEvensFirst_drhds : dmarEvensFirst.drhds = [dmarListingUnit] := by decide +kernel

theorem dmarEvensFirst_named : named (dmarEvensFirst.scopes dmarListingUnit).1 =
    (List.range 17).map (fun index => .single ⟨.ofNat (2 * index)⟩) ++ [.single ⟨1⟩] := by
  decide +kernel

theorem evensFirst_reordered : Reordered dmarEvensFirst dmarOddFirst dmarListingUnit
    (evenEntries ++ [endpointEntry 0 1]) (endpointEntry 0 1 :: evenEntries) where
  member := by
    rw [dmarEvensFirst_drhds]
    exact List.mem_singleton_self _
  permuted := List.perm_append_singleton _ _
  declared := by
    intro entry among
    constructor
    · revert entry
      decide +kernel
    · revert entry
      decide +kernel
  within := by decide +kernel
  bytes := by
    refine ⟨dmarListing [], [], by decide +kernel, ?_, ?_⟩
    · simp [dmarEvensFirst, dmarListing]
    · simp [dmarOddFirst, dmarListing]

theorem evensFirst_sole :
    dmarEvensFirst.drhds.filter (·.registers = dmarListingUnit.registers) = [dmarListingUnit] := by
  rw [dmarEvensFirst_drhds]
  rfl

theorem dmarOddFirst_collects : (dmarOddFirst.drhdBdfRanges dmarSampleWindow).toBool = true := by
  decide +kernel

theorem scope_order_refuses_sample :
    (dmarEvensFirst.scopes dmarListingUnit).1.Perm (dmarOddFirst.scopes dmarListingUnit).1 ∧
      ∀ visited, visited <+: (dmarOddFirst.scopes dmarListingUnit).1 → ¬Overfull visited := by
  obtain ⟨refused, same, _⟩ := scope_order_refuses dmarEvensFirst dmarOddFirst dmarListingUnit _ _
    evensFirst_reordered evensFirst_sole
  refine ⟨(same ?_).1, fun visited among tooMuch => ?_⟩
  · simp only [WellFormed]
    decide +kernel
  · have full : dmarOddFirst.RefusedFull dmarSampleWindow :=
      (refused dmarOddFirst (by simp)).mpr ⟨rfl, visited, among, tooMuch⟩
    have collects := dmarOddFirst_collects
    rw [full] at collects
    cases collects

theorem scope_order_decides :
    (¬∀ (first second : DmarTable) (unit : DmarDrhd) (entries others : List (List UInt8)),
      Reordered first second unit entries others →
        first.drhds.filter (·.registers = unit.registers) = [unit] →
          first.drhdBdfRanges unit.registers = second.drhdBdfRanges unit.registers) ∧
    ¬∀ (table : DmarTable) (unit : DmarDrhd),
      table.drhds.filter (·.registers = unit.registers) = [unit] →
        table.RefusedFull unit.registers → Overfull (table.scopes unit).1 := by
  have full : dmarEvensFirst.RefusedFull dmarListingUnit.registers := by
    apply DmarTable.refusedFull_of_refused evensFirst_sole rfl
    rw [dmarEvensFirst_named]
    decide +kernel
  constructor
  · intro kept
    have collects := dmarOddFirst_collects
    have same := kept dmarEvensFirst dmarOddFirst dmarListingUnit _ _ evensFirst_reordered
      evensFirst_sole
    rw [← show _ = dmarOddFirst.drhdBdfRanges dmarSampleWindow from same, full] at collects
    cases collects
  · intro only
    have many := only dmarEvensFirst dmarListingUnit evensFirst_sole full
    rw [overfull_iff (dmarEvensFirst.named_filled dmarListingUnit), dmarEvensFirst_named] at many
    exact absurd many (by decide +kernel)

end Iommu
