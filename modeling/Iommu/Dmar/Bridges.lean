import Iommu.Dmar.Agreement

/-!
Scopes that stand for a bridge and whatever is below it. They are resolved as scopes of
endpoints are, to the bridge alone.
-/

namespace Iommu

namespace DmarTable

variable (table : DmarTable)

/-- The requester is on a bus above the start bus of a bridge that scopes of the unit name. -/
def BehindBridge (unit : DmarDrhd) (requester : PciDevice) : Prop :=
  ∃ scope ∈ (table.scopes unit).1, scope.kind = .bridge ∧ scope.startBus < requester.bus

/-- No query takes the bridge scopes of a unit for all that they stand for. -/
structure BridgesInexact (unit : DmarDrhd) : Prop where
  ranges : ∀ set, table.drhdBdfRanges unit.registers ≠ .ok (some set)
  replies : ∀ requester : PciDevice, requester.segment = unit.segment →
    table.BehindBridge unit requester → ¬Names (table.scopes unit).1 requester.bdf →
    ∀ result, table.drhdRequesterMatch unit.registers requester = .ok result →
      result = some .covered ∨ result = some .unresolved

def Overflows (registers : AddrRange) : Prop :=
  ∃ first, first <+: named (table.windowScopes registers) ∧
    DMAR_REQUESTER_WINDOW_CAPACITY < (BdfRangeSet.merged first []).length

def RangesWithheld (registers : AddrRange) : Prop :=
  table.scanned.2 ≠ .ok () ∨
    (∃ unit ∈ table.drhds, unit.registers = registers ∧ unit.includeAll = false ∧
      (table.scopes unit).2 ≠ .ok ()) ∨
    Unresolved (table.windowScopes registers) ∨ table.Overflows registers

def RefusalsWithheld (unit : DmarDrhd) : Prop :=
  table.scanned.2 ≠ .ok () ∨
    (∃ other ∈ table.drhds, other.registers = unit.registers ∧ other.segment = unit.segment ∧
      other.includeAll = false ∧ (table.scopes other).2 ≠ .ok ()) ∨
    ∃ last, table.decisive unit.registers = some last ∧
      (last.segment = unit.segment ∧
          (last.includeAll = true ∨ Unresolved (table.scopes last).1) ∨
        ∀ requester : PciDevice, requester.segment = unit.segment →
          table.BehindBridge unit requester → Names (table.scopes unit).1 requester.bdf ∨
            last.segment = unit.segment ∧ Names (table.scopes last).1 requester.bdf)

variable {table} {unit : DmarDrhd}

theorem insertEach_windowScopes (registers : AddrRange) :
    (∃ set, BdfRangeSet.insertEach (named (table.windowScopes registers)) .empty =
      (.ok (), (set : DmarBdfRangeSet))) ↔ ¬table.Overflows registers := by
  have nothing : Span.Separated (BdfRangeSet.spans []) := ⟨by simp [BdfRangeSet.spans], .nil⟩
  have filled : ∀ range ∈ named (table.windowScopes registers), range.isEmpty = false := by
    intro range member
    obtain ⟨bdf, rfl⟩ := table.windowScope_named registers member
    simp [BdfRange.isEmpty, BdfRange.single]
  have inserted := BdfRangeSet.insertEach_ok_iff (N := DMAR_REQUESTER_WINDOW_CAPACITY) nothing
    (Nat.zero_le _) filled
  rw [Overflows]
  push Not
  exact inserted

theorem decisive_exists (member : unit ∈ table.drhds) :
    ∃ last, table.decisive unit.registers = some last := by
  have among : unit ∈ table.drhds.filter (·.registers = unit.registers) :=
    List.mem_filter.mpr ⟨member, decide_eq_true rfl⟩
  rw [decisive]
  cases found : (table.drhds.filter (·.registers = unit.registers)).getLast? with
  | none =>
      rw [List.getLast?_eq_none_iff.mp found] at among
      cases among
  | some last => exact ⟨last, rfl⟩

theorem mem_windowScopes (member : unit ∈ table.drhds) (listed : unit.includeAll = false)
    {scope : DmarDeviceScope} (found : scope ∈ (table.scopes unit).1) :
    scope ∈ table.windowScopes unit.registers := by
  apply List.mem_flatMap.mpr
  refine ⟨unit, member, ?_⟩
  rw [table.explicitScopes_of_listed _ rfl listed]
  exact found

theorem ranges_withheld_iff (member : unit ∈ table.drhds) (listed : unit.includeAll = false)
    (nonempty : (table.scopes unit).1 ≠ []) :
    (∀ set, table.drhdBdfRanges unit.registers ≠ .ok (some set)) ↔
      table.RangesWithheld unit.registers := by
  constructor
  · intro never
    apply by_contra
    intro released
    simp only [RangesWithheld, not_or] at released
    obtain ⟨scan, walks, resolved, room⟩ := released
    obtain ⟨set, collected⟩ := (insertEach_windowScopes _).mpr room
    have collects : table.Collects unit.registers set := by
      refine ⟨not_not.mp scan, fun other among here explicit => ?_, collected⟩
      exact by_contra fun broken => walks ⟨other, among, here, explicit, broken⟩
    have some_named : named (table.windowScopes unit.registers) ≠ [] := by
      intro nothing
      obtain ⟨scope, found⟩ := List.exists_mem_of_ne_nil _ nonempty
      have among := mem_windowScopes member listed found
      rw [(scopes_empty_iff _).mpr ⟨nothing, resolved⟩] at among
      cases among
    have conclusive := not_or.mpr ⟨resolved, some_named⟩
    exact never set ((table.drhdBdfRanges_eq_ok _ _).mpr ⟨set, collects, (if_neg conclusive).symm⟩)
  · intro withheld set returned
    obtain ⟨ranges, collects, result⟩ := (table.drhdBdfRanges_eq_ok _ _).mp returned
    split at result
    · contradiction
    · next conclusive =>
      rcases withheld with broken | ⟨other, among, here, explicit, broken⟩ | unresolved | overflows
      · exact broken collects.1
      · exact broken (collects.2.1 other among here explicit)
      · exact conclusive (Or.inl unresolved)
      · exact (insertEach_windowScopes _).mp ⟨ranges, collects.2.2⟩ overflows

theorem refusals_withheld_iff (member : unit ∈ table.drhds) :
    (∀ requester : PciDevice, requester.segment = unit.segment →
      table.BehindBridge unit requester → ¬Names (table.scopes unit).1 requester.bdf →
      ∀ result, table.drhdRequesterMatch unit.registers requester = .ok result →
        result = some .covered ∨ result = some .unresolved) ↔ table.RefusalsWithheld unit := by
  constructor
  · intro kept
    apply by_contra
    intro released
    simp only [RefusalsWithheld, not_or] at released
    obtain ⟨scan, walks, exposed⟩ := released
    obtain ⟨last, decides⟩ := decisive_exists member
    obtain ⟨bare, unlisted⟩ := not_or.mp fun either => exposed ⟨last, decides, either⟩
    simp only [not_forall, not_or] at unlisted
    obtain ⟨requester, segment, behind, unnamed, missing⟩ := unlisted
    have refused : table.reply last requester = .notCovered := by
      rw [reply_eq_notCovered]
      by_cases same : last.segment = unit.segment
      · right
        have neither := not_or.mp fun either => bare ⟨same, either⟩
        exact ⟨by simpa using neither.1, fun names => missing ⟨same, names⟩, neither.2⟩
      · left
        rw [segment]
        exact same
    have answered : table.drhdRequesterMatch unit.registers requester = .ok (some .notCovered) := by
      refine (table.drhdRequesterMatch_eq_ok _ _ _).mpr ⟨not_not.mp scan, ?_, ?_⟩
      · intro other among here same explicit
        exact by_contra fun broken =>
          walks ⟨other, among, here, same.trans segment, explicit, broken⟩
      · rw [decides, Option.map_some, refused]
    rcases kept requester segment behind unnamed _ answered with impossible | impossible
    · cases impossible
    · cases impossible
  · rintro withheld requester segment behind unnamed result answered
    obtain ⟨scan, answers, rfl⟩ := (table.drhdRequesterMatch_eq_ok _ _ _).mp answered
    rcases withheld with broken | ⟨other, among, here, same, explicit, broken⟩ |
      ⟨last, decides, either⟩
    · exact absurd scan broken
    · exact absurd (answers other among here (same.trans segment.symm) explicit) broken
    · rw [decides, Option.map_some]
      have kept : table.reply last requester ≠ .notCovered := by
        rw [ne_eq, reply_eq_notCovered]
        rintro (elsewhere | ⟨explicit, missing, resolved⟩)
        · rcases either with ⟨same, _⟩ | listed
          · exact elsewhere (same.trans segment.symm)
          · rcases listed requester segment behind with names | ⟨same, _⟩
            · exact unnamed names
            · exact elsewhere (same.trans segment.symm)
        · rcases either with ⟨_, all | unresolved⟩ | listed
          · rw [all] at explicit
            cases explicit
          · exact resolved unresolved
          · rcases listed requester segment behind with names | ⟨_, names⟩
            · exact unnamed names
            · exact missing names
      cases replied : table.reply last requester with
      | covered => exact Or.inl rfl
      | unresolved => exact Or.inr rfl
      | notCovered => exact absurd replied kept

end DmarTable

/-- The queries take no bridge scope of a unit for exact only where something else withholds a set and
a refusal. -/
theorem bridge_scopes_inexact_iff (table : DmarTable) (unit : DmarDrhd) (member : unit ∈ table.drhds)
    (listed : unit.includeAll = false)
    (bridged : ∃ scope ∈ (table.scopes unit).1, scope.kind = .bridge) :
    table.BridgesInexact unit ↔
      table.RangesWithheld unit.registers ∧ table.RefusalsWithheld unit := by
  obtain ⟨scope, found, _⟩ := bridged
  have nonempty := List.ne_nil_of_mem found
  rw [← DmarTable.ranges_withheld_iff member listed nonempty, ← DmarTable.refusals_withheld_iff member]
  constructor
  · rintro ⟨ranges, replies⟩
    exact ⟨ranges, replies⟩
  · rintro ⟨ranges, replies⟩
    exact ⟨ranges, replies⟩

def dmarBridgeBytes (path : List UInt8) : List UInt8 :=
  DMAR.signature ++ [.ofNat (70 + path.length), 0, 0, 0] ++ List.replicate 40 0 ++
    [0, 0, .ofNat (22 + path.length), 0, 0, 0, 3, 0, 0, 0, 0xd9, 0xfe, 0, 0, 0, 0] ++
    [2, .ofNat (6 + path.length), 0, 0, 0, 0] ++ path

def dmarBridge : DmarTable := ⟨dmarBridgeBytes [0x1c, 0], by decide, by decide⟩

def dmarDeepBridge : DmarTable := ⟨dmarBridgeBytes [0x1c, 0, 0, 0], by decide, by decide⟩

theorem deep_bridge_inexact :
    dmarDeepBridge.BridgesInexact { dmarSampleUnit with length := 26 } := by
  have unresolved : Unresolved (dmarDeepBridge.scopes { dmarSampleUnit with length := 26 }).1 := by
    decide +kernel
  have listed : Unresolved (dmarDeepBridge.windowScopes dmarSampleWindow) := by
    decide +kernel
  apply (bridge_scopes_inexact_iff dmarDeepBridge _ (by decide +kernel) rfl (by decide +kernel)).mpr
  constructor
  · exact Or.inr (Or.inr (Or.inl listed))
  · exact Or.inr (Or.inr ⟨_, by decide +kernel, Or.inl ⟨rfl, Or.inr unresolved⟩⟩)

/-- Device 01:00.0 is behind the bridge 00:1c.0, and answered as not covered. -/
theorem bridge_taken_exactly : ¬∀ (table : DmarTable), ∀ unit ∈ table.drhds,
    unit.includeAll = false → (∃ scope ∈ (table.scopes unit).1, scope.kind = .bridge) →
    table.BridgesInexact unit := by
  intro always
  have inexact := always dmarBridge dmarSampleUnit (by decide +kernel) rfl (by decide +kernel)
  have behind : dmarBridge.BehindBridge dmarSampleUnit (.fromSegmentBdf 3 ⟨0x0100⟩) := by
    rw [DmarTable.BehindBridge]
    decide +kernel
  have refused : dmarBridge.drhdRequesterMatch dmarSampleWindow (.fromSegmentBdf 3 ⟨0x0100⟩) =
      .ok (some .notCovered) := by
    decide +kernel
  rcases inexact.replies _ (by decide) behind (by decide +kernel) _ refused with impossible | impossible
  · cases impossible
  · cases impossible

end Iommu
