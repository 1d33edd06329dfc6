import Iommu.Iort.Coverage

/-!
The queries about the requesters of a segment against each other: the set of ranges, the
match of one requester, and the translation of its ID.
-/

namespace Iommu

open MachineWord FirmwareTable

namespace IortTable

variable {table : IortTable} {root : IortRootComplex} {mappings : List IortIdMapping}

theorem translateOnce_root (is_root : table.IsRoot root) (maps : table.Maps root.header mappings)
    (id : UInt32) :
    (∃ translation, table.translateOnce (.rootComplex root) id = .ok (some translation)) ↔
      ∃ mapping ∈ mappings, mapping.Takes id.toNat ∧ mapping.Fits id.toNat := by
  have kind : (IortNode.rootComplex root).header.kind = .rootComplex := is_root.kind
  have given := stepMappings_ne_none .rootComplex id mappings none
  simp only [IortIdMapping.translateForNodeKind_rootComplex] at given
  have steps := @translateOnce_eq table (.rootComplex root) mappings maps id
  rw [steps, kind]
  simp only [Except.ok.injEq, ← Option.ne_none_iff_exists']
  exact given.trans (or_iff_right fun absurdity => absurdity rfl)

theorem translateOnce_root_total (maps : table.Maps root.header mappings) (id : UInt32) :
    ∃ translation, table.translateOnce (.rootComplex root) id = .ok translation :=
  ⟨_, @translateOnce_eq table (.rootComplex root) mappings maps id⟩

theorem mapPciRequesterToKind_stuck {requester : PciDevice} {target : IortNodeKind}
    (rooted : table.rootComplexForSegment requester.segment = .ok (some root))
    (stuck : table.translateOnce (.rootComplex root) requester.bdf.raw.toUInt32 = .ok none)
    (other : target ≠ .rootComplex) : table.mapPciRequesterToKind requester target = .ok none := by
  have is_root := table.rootComplexForSegment_found requester.segment _ rooted root rfl
  obtain ⟨count, counted, positive⟩ := is_root.counted
  obtain ⟨fewer, left⟩ := Nat.exists_eq_succ_of_ne_zero (Nat.ne_of_gt positive)
  have kind : (IortNode.rootComplex root).header.kind ≠ target := by
    rw [show (IortNode.rootComplex root).header.kind = .rootComplex from is_root.kind]
    exact fun same => other same.symm
  rw [mapPciRequesterToKind, rooted, Parse.ok_bind]
  dsimp only
  rw [mapIdToKind, counted, Parse.ok_bind, left, mapIdLoop, if_neg kind, stuck]
  rfl

end IortTable

/-- A requester that is not covered has no translation. One that is covered has a mapping that takes its
ID, and has a translation exactly when what such a mapping gives is a 32-bit number. -/
theorem coverage_and_translation (table : IortTable) (requester : PciDevice) (root : IortRootComplex)
    (rooted : table.rootComplexForSegment requester.segment = .ok (some root)) :
    (table.rootComplexRequesterMatch requester = .ok (some .covered) →
      ∃ mappings, table.Maps root.header mappings ∧
        (∃ mapping ∈ mappings, mapping.Takes requester.bdf.asU32) ∧
        ((∃ translation, table.translateOnce (.rootComplex root) requester.bdf.raw.toUInt32 =
            .ok (some translation)) ↔
          ∃ mapping ∈ mappings, mapping.Takes requester.bdf.asU32 ∧
            mapping.Fits requester.bdf.asU32) ∧
        ∃ outcome, table.translateOnce (.rootComplex root) requester.bdf.raw.toUInt32 =
          .ok outcome) ∧
    (table.rootComplexRequesterMatch requester = .ok (some .notCovered) →
      table.translateOnce (.rootComplex root) requester.bdf.raw.toUInt32 = .ok none ∧
      ∀ target, target ≠ .rootComplex → table.mapPciRequesterToKind requester target = .ok none) := by
  have is_root := table.rootComplexForSegment_found requester.segment _ rooted root rfl
  have wide : requester.bdf.raw.toUInt32.toNat = requester.bdf.asU32 := UInt16.toNat_toUInt32 _
  constructor
  · intro answered
    obtain ⟨other, mappings, rootedAgain, maps, answer⟩ :=
      IortTable.rootComplexRequesterMatch_answered answered
    obtain rfl := Option.some.inj (Except.ok.inj (rooted.symm.trans rootedAgain))
    obtain ⟨mapping, member, _, taken⟩ := IortTable.reply_eq_covered.mp answer.symm
    refine ⟨mappings, maps, ⟨mapping, member, taken⟩, ?_, IortTable.translateOnce_root_total maps _⟩
    rw [IortTable.translateOnce_root is_root maps, wide]
  · intro answered
    obtain ⟨other, mappings, rootedAgain, maps, answer⟩ :=
      IortTable.rootComplexRequesterMatch_answered answered
    obtain rfl := Option.some.inj (Except.ok.inj (rooted.symm.trans rootedAgain))
    obtain ⟨uncovered, resolved⟩ := IortTable.reply_eq_notCovered.mp answer.symm
    have given := IortTable.translateOnce_root is_root maps requester.bdf.raw.toUInt32
    obtain ⟨outcome, stepped⟩ := IortTable.translateOnce_root_total maps requester.bdf.raw.toUInt32
    have stuck : table.translateOnce (.rootComplex root) requester.bdf.raw.toUInt32 = .ok none := by
      cases outcome with
      | none => exact stepped
      | some translation =>
          obtain ⟨mapping, member, taken, _⟩ := given.mp ⟨translation, stepped⟩
          rw [wide] at taken
          refine absurd ⟨mapping, member, ?_, taken⟩ uncovered
          by_contra open_ended
          exact resolved ⟨mapping, member, open_ended⟩
    exact ⟨stuck, fun target other => IortTable.mapPciRequesterToKind_stuck rooted stuck other⟩

def rootTableBytes (mappings : List UInt8) : List UInt8 :=
  IORT.signature ++ [84 + UInt8.ofNat mappings.length, 0, 0, 0] ++ List.replicate 28 0 ++
    [1, 0, 0, 0, 48, 0, 0, 0, 0, 0, 0, 0] ++
    [2, 36 + UInt8.ofNat mappings.length, 0, 3, 0, 0, 0, 0, UInt8.ofNat (mappings.length / 20), 0, 0, 0,
      36, 0, 0, 0] ++ List.replicate 20 0 ++ mappings

def iortOverflow : IortTable :=
  ⟨rootTableBytes [0, 0, 0, 0, 255, 255, 0, 0, 255, 255, 255, 255, 48, 0, 0, 0, 0, 0, 0, 0],
    by decide +kernel, by decide +kernel⟩

def iortOverflowRoot : IortRootComplex :=
  ⟨⟨0, 0, 0⟩, 0, 0, 0, 0, ⟨.rootComplex, 3, 0, 1, 36, 48, 56⟩⟩

theorem coverage_without_translation :
    ¬∀ (table : IortTable) (requester : PciDevice) (root : IortRootComplex),
      table.rootComplexForSegment requester.segment = .ok (some root) →
      table.rootComplexRequesterMatch requester = .ok (some .covered) →
      ∃ translation, table.translateOnce (.rootComplex root) requester.bdf.raw.toUInt32 =
        .ok (some translation) := by
  intro agrees
  obtain ⟨translation, stepped⟩ := agrees iortOverflow ⟨5⟩ iortOverflowRoot (by decide +kernel)
    (by decide +kernel)
  have stuck : iortOverflow.translateOnce (.rootComplex iortOverflowRoot) 5 = .ok none := by
    decide +kernel
  rw [show (⟨5⟩ : PciDevice).bdf.raw.toUInt32 = 5 from rfl, stuck] at stepped
  cases stepped

theorem coverage_and_translation_sample :
    ∃ mappings, iortOverflow.Maps iortOverflowRoot.header mappings ∧
      ∃ mapping ∈ mappings, mapping.Takes 0 ∧ mapping.Fits 0 := by
  obtain ⟨mappings, maps, _, translates, _⟩ :=
    (coverage_and_translation iortOverflow ⟨0⟩ iortOverflowRoot (by decide +kernel)).1
      (by decide +kernel)
  exact ⟨mappings, maps, translates.mp ⟨⟨0xffffffff, 48⟩, by decide +kernel⟩⟩

def WindowsFit (mappings : List IortIdMapping) : Prop :=
  ∀ first, first <+: windows mappings →
    (BdfRangeSet.merged first []).length ≤ IORT_REQUESTER_WINDOW_CAPACITY

theorem windowsFit_iff (mappings : List IortIdMapping) :
    WindowsFit mappings ↔ ∃ set : IortBdfRangeSet,
      BdfRangeSet.insertEach (windows mappings) .empty = (.ok (), set) :=
  (BdfRangeSet.insertEach_ok_iff BdfRangeSet.separated_nil (Nat.zero_le _)
    (windows_filled mappings)).symm

theorem contains_windows {mappings : List IortIdMapping} {set : IortBdfRangeSet}
    (collected : BdfRangeSet.insertEach (windows mappings) .empty = (.ok (), set)) (bdf : Bdf) :
    set.Contains bdf ↔ MapsCover mappings bdf := by
  rw [BdfRangeSet.contains_insertEach collected, windows_contain]

/-- The set of ranges of a segment answers as the match of each requester does, exactly when the mappings
of the root complex all resolve or the ones that do cover every requester. The query gives no set when no
mapping resolves, when the windows do not fit, or when the mappings are not read. -/
theorem window_set_agrees_iff (table : IortTable) (segment : UInt16) :
    (∀ set, table.rootComplexBdfRanges segment = .ok (some set) →
      ∀ requester : PciDevice, requester.segment = segment →
        (set.Contains requester.bdf →
          table.rootComplexRequesterMatch requester = .ok (some .covered)) ∧
        (¬set.Contains requester.bdf →
          table.rootComplexRequesterMatch requester = .ok (some .notCovered))) ↔
    ∀ root mappings, table.rootComplexForSegment segment = .ok (some root) →
      table.Maps root.header mappings → windows mappings ≠ [] → WindowsFit mappings →
        (∀ mapping ∈ mappings, mapping.Resolves) ∨ ∀ bdf, MapsCover mappings bdf := by
  constructor
  · intro agrees root mappings rooted maps filled fits
    obtain ⟨set, collected⟩ := (windowsFit_iff mappings).mp fits
    have given := (table.rootComplexBdfRanges_eq_some segment set).mpr
      ⟨root, mappings, rooted, maps, filled, collected⟩
    by_cases resolved : ∀ mapping ∈ mappings, mapping.Resolves
    · exact Or.inl resolved
    · refine Or.inr fun bdf => ?_
      by_contra uncovered
      have here := PciDevice.segment_fromSegmentBdf segment bdf
      have outside : ¬set.Contains (PciDevice.fromSegmentBdf segment bdf).bdf := by
        rwa [PciDevice.bdf_fromSegmentBdf, contains_windows collected]
      have answered := (agrees set given _ here).2 outside
      rw [IortTable.rootComplexRequesterMatch_eq (here.symm ▸ rooted) maps] at answered
      have settled := (IortTable.reply_eq_notCovered.mp (Option.some.inj (Except.ok.inj answered))).2
      apply resolved
      intro mapping member
      by_contra open_ended
      exact settled ⟨mapping, member, open_ended⟩
  · rintro condition set given requester rfl
    obtain ⟨root, mappings, rooted, maps, filled, collected⟩ :=
      (table.rootComplexBdfRanges_eq_some _ set).mp given
    rw [IortTable.rootComplexRequesterMatch_eq rooted maps, contains_windows collected]
    constructor
    · intro covered
      rw [IortTable.reply_eq_covered.mpr covered]
    · intro uncovered
      rcases condition root mappings rooted maps filled ((windowsFit_iff mappings).mpr ⟨set, collected⟩)
        with resolved | everything
      · have settled : ¬MapsUnresolved mappings := by
          rintro ⟨mapping, member, open_ended⟩
          exact open_ended (resolved mapping member)
        rw [IortTable.reply_eq_notCovered.mpr ⟨uncovered, settled⟩]
      · exact absurd (everything requester.bdf) uncovered

def iortUnresolved : IortTable :=
  ⟨rootTableBytes ([0, 0, 0, 0, 0, 0, 0, 0, 0, 0, 0, 0, 48, 0, 0, 0, 0, 0, 0, 0] ++
      [0, 0, 1, 0, 0, 0, 0, 0, 0, 0, 0, 0, 48, 0, 0, 0, 0, 0, 0, 0]),
    by decide +kernel, by decide +kernel⟩

def iortUnresolvedRoot : IortRootComplex :=
  ⟨⟨0, 0, 0⟩, 0, 0, 0, 0, ⟨.rootComplex, 3, 0, 2, 36, 48, 76⟩⟩

def iortUnresolvedMappings : List IortIdMapping := [⟨0, 0, 0, 48, 0⟩, ⟨0x10000, 0, 0, 48, 0⟩]

theorem iortUnresolved_collects : ∃ set : IortBdfRangeSet,
    BdfRangeSet.insertEach (windows iortUnresolvedMappings) .empty = (.ok (), set) :=
  ⟨_, rfl⟩

theorem window_set_disagrees :
    ¬∀ (table : IortTable) (segment : UInt16) (set : IortBdfRangeSet),
      table.rootComplexBdfRanges segment = .ok (some set) →
      ∀ requester : PciDevice, requester.segment = segment → ¬set.Contains requester.bdf →
        table.rootComplexRequesterMatch requester = .ok (some .notCovered) := by
  intro agrees
  obtain ⟨set, collected⟩ := iortUnresolved_collects
  have given : iortUnresolved.rootComplexBdfRanges 0 = .ok (some set) := by
    rw [IortTable.rootComplexBdfRanges_eq_some]
    exact ⟨iortUnresolvedRoot, iortUnresolvedMappings, by decide +kernel,
      ⟨⟨84, 2⟩, by decide, by decide +kernel⟩, by decide, collected⟩
  have outside : ¬set.Contains ⟨5⟩ := by
    rw [contains_windows collected]
    decide
  have answered := agrees iortUnresolved 0 set given ⟨5⟩ rfl outside
  have unresolved : iortUnresolved.rootComplexRequesterMatch ⟨5⟩ = .ok (some .unresolved) := by
    decide +kernel
  rw [unresolved] at answered
  cases answered

end Iommu
