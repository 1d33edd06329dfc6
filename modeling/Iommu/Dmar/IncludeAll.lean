import Mathlib.Data.List.Pairwise
import Iommu.Dmar.Agreement

/-!
Which units answer that they cover a requester. A unit for every device of its segment
answers for the devices that scopes of other units name, too.
-/

namespace Iommu

namespace DmarTable

variable (table : DmarTable)

/-- The units have their own windows, at most one in a segment is for every device, and no two in a
segment name the same requester. -/
structure WellAssigned : Prop where
  windows : table.drhds.Pairwise fun first second => first.registers ≠ second.registers
  includeAll : table.drhds.Pairwise fun first second => first.segment = second.segment →
    ¬(first.includeAll = true ∧ second.includeAll = true)
  scopes : table.drhds.Pairwise fun first second => first.segment = second.segment →
    ∀ bdf, ¬(Names (table.scopes first).1 bdf ∧ Names (table.scopes second).1 bdf)

def Covered (registers : AddrRange) (requester : PciDevice) : Prop :=
  table.drhdRequesterMatch registers requester = .ok (some .covered)

def CoveredOnce (requester : PciDevice) : Prop :=
  ∀ first second, table.Covered first requester → table.Covered second requester → first = second

def NamedBesideIncludeAll (requester : PciDevice) : Prop :=
  table.scanned.2 = .ok () ∧
    (∃ everything ∈ table.drhds,
      everything.segment = requester.segment ∧ everything.includeAll = true) ∧
    ∃ other ∈ table.drhds, other.segment = requester.segment ∧ other.includeAll = false ∧
      (table.scopes other).2 = .ok () ∧ Names (table.scopes other).1 requester.bdf

variable {table}

theorem same_unit (windows : table.drhds.Pairwise fun first second =>
    first.registers ≠ second.registers) {first second : DmarDrhd} (firstMember : first ∈ table.drhds)
    (secondMember : second ∈ table.drhds) (same : first.registers = second.registers) :
    first = second := by
  apply by_contra
  intro different
  have symmetric : Std.Symm fun first second : DmarDrhd => first.registers ≠ second.registers :=
    ⟨fun _ _ apart => apart.symm⟩
  exact windows.forall firstMember secondMember different same

theorem WellAssigned.apart (assigned : table.WellAssigned) {first second : DmarDrhd}
    (firstMember : first ∈ table.drhds) (secondMember : second ∈ table.drhds)
    (different : first ≠ second) (shared : first.segment = second.segment) :
    ¬(first.includeAll = true ∧ second.includeAll = true) ∧
      ∀ bdf, ¬(Names (table.scopes first).1 bdf ∧ Names (table.scopes second).1 bdf) := by
  have all_symmetric : Std.Symm fun first second : DmarDrhd => first.segment = second.segment →
      ¬(first.includeAll = true ∧ second.includeAll = true) :=
    ⟨fun _ _ apart same both => apart same.symm both.symm⟩
  have scopes_symmetric : Std.Symm fun first second : DmarDrhd => first.segment = second.segment →
      ∀ bdf, ¬(Names (table.scopes first).1 bdf ∧ Names (table.scopes second).1 bdf) :=
    ⟨fun _ _ apart same bdf both => apart same.symm bdf both.symm⟩
  exact ⟨assigned.includeAll.forall firstMember secondMember different shared,
    assigned.scopes.forall firstMember secondMember different shared⟩

theorem window_unique (windows : table.drhds.Pairwise fun first second =>
    first.registers ≠ second.registers) (registers : AddrRange) :
    (table.drhds.filter (·.registers = registers)).length ≤ 1 := by
  have apart := windows.filter (fun unit => decide (unit.registers = registers))
  have here : ∀ unit ∈ table.drhds.filter (·.registers = registers), unit.registers = registers :=
    fun unit member => of_decide_eq_true (List.mem_filter.mp member).2
  cases found : table.drhds.filter (·.registers = registers) with
  | nil => exact Nat.zero_le 1
  | cons first rest =>
      cases rest with
      | nil => exact Nat.le_refl 1
      | cons second others =>
          rw [found] at apart here
          have different := (List.pairwise_cons.mp apart).1 second (by simp)
          exact absurd ((here first (by simp)).trans (here second (by simp)).symm) different

theorem covered_iff (windows : table.drhds.Pairwise fun first second =>
    first.registers ≠ second.registers) (registers : AddrRange) (requester : PciDevice) :
    table.Covered registers requester ↔ table.scanned.2 = .ok () ∧
      ∃ unit ∈ table.drhds, unit.registers = registers ∧ unit.segment = requester.segment ∧
        (unit.includeAll = true ∨
          (table.scopes unit).2 = .ok () ∧ Names (table.scopes unit).1 requester.bdf) := by
  rw [Covered, drhdRequesterMatch_eq_ok]
  rcases table.sole_unit registers (window_unique windows registers) with
    ⟨none, decides⟩ | ⟨unit, member, here, decides, _⟩
  · rw [decides]
    constructor
    · rintro ⟨_, _, impossible⟩
      cases impossible
    · rintro ⟨_, unit, member, here, _⟩
      exact absurd here (none unit member)
  · rw [decides, Option.map_some]
    constructor
    · rintro ⟨scan, answers, replied⟩
      obtain ⟨segment, either⟩ :=
        (table.reply_eq_covered unit requester).mp (Option.some.inj replied).symm
      refine ⟨scan, unit, member, here, segment, ?_⟩
      cases all : unit.includeAll with
      | true => exact Or.inl rfl
      | false =>
          have names := either.resolve_left (by simp [all])
          exact Or.inr ⟨answers unit member here segment all, names⟩
    · rintro ⟨scan, other, among, there, segment, either⟩
      obtain rfl := same_unit windows among member (there.trans here.symm)
      refine ⟨scan, ?_, ?_⟩
      · intro found foundMember found_here _ listed
        obtain rfl := same_unit windows foundMember member (found_here.trans here.symm)
        rcases either with all | ⟨walks, _⟩
        · rw [all] at listed
          cases listed
        · exact walks
      · refine congrArg some ((table.reply_eq_covered other requester).mpr ⟨segment, ?_⟩).symm
        exact either.imp_right And.right

end DmarTable

/-- On a well assigned table, a requester is covered by at most one unit exactly when it is not named
beside a unit for every device. -/
theorem requester_covered_once_iff (table : DmarTable) (assigned : table.WellAssigned)
    (requester : PciDevice) :
    table.CoveredOnce requester ↔ ¬table.NamedBesideIncludeAll requester := by
  have covered := DmarTable.covered_iff assigned.windows
  constructor
  · rintro once ⟨scan, ⟨everything, member, segment, all⟩, other, among, other_segment, listed, walks,
      names⟩
    have first := (covered everything.registers requester).mpr
      ⟨scan, everything, member, rfl, segment, Or.inl all⟩
    have second := (covered other.registers requester).mpr
      ⟨scan, other, among, rfl, other_segment, Or.inr ⟨walks, names⟩⟩
    obtain rfl := DmarTable.same_unit assigned.windows member among (once _ _ first second)
    rw [all] at listed
    cases listed
  · intro alone first second firstCovered secondCovered
    obtain ⟨scan, one, member, rfl, segment, either⟩ := (covered _ _).mp firstCovered
    obtain ⟨_, other, among, rfl, other_segment, or_names⟩ := (covered _ _).mp secondCovered
    apply by_contra
    intro different
    have units : one ≠ other := fun same => different (congrArg DmarDrhd.registers same)
    have shared := segment.trans other_segment.symm
    obtain ⟨one_everything, apart⟩ := assigned.apart member among units shared
    cases all : one.includeAll with
    | true =>
        cases other_all : other.includeAll with
        | true => exact one_everything ⟨all, other_all⟩
        | false =>
            obtain ⟨walks, names⟩ := or_names.resolve_left (by simp [other_all])
            exact alone ⟨scan, ⟨one, member, segment, all⟩, other, among, other_segment, other_all,
              walks, names⟩
    | false =>
        obtain ⟨walks, names⟩ := either.resolve_left (by simp [all])
        rcases or_names with other_all | ⟨_, other_names⟩
        · exact alone ⟨scan, ⟨other, among, other_segment, other_all⟩, one, member, segment, all, walks,
            names⟩
        · exact apart requester.bdf ⟨names, other_names⟩

def dmarSharedBytes : List UInt8 :=
  DMAR.signature ++ [88, 0, 0, 0] ++ List.replicate 40 0 ++
    [0, 0, 24, 0, 0, 0, 3, 0, 0, 0, 0xd9, 0xfe, 0, 0, 0, 0] ++ [1, 8, 0, 0, 0, 0x2a, 5, 0] ++
    [0, 0, 16, 0, 1, 0, 3, 0, 0, 0x10, 0xd9, 0xfe, 0, 0, 0, 0]

def dmarShared : DmarTable := ⟨dmarSharedBytes, by decide, by decide⟩

def dmarSharedUnit : DmarDrhd where
  flags := 1
  segment := 3
  registers := .fromStartSize 0xfed91000 0x1000 (by decide)
  includeAll := true
  hasDeviceScopes := false
  structureOffset := 72
  length := 16

theorem dmarShared_drhds : dmarShared.drhds = [dmarSampleUnit, dmarSharedUnit] := by
  decide +kernel

theorem dmarShared_assigned : dmarShared.WellAssigned := by
  have unscoped : (dmarShared.scopes dmarSharedUnit).1 = [] := by decide +kernel
  constructor
  · rw [dmarShared_drhds]
    decide +kernel
  · rw [dmarShared_drhds]
    decide +kernel
  · rw [dmarShared_drhds, List.pairwise_pair, unscoped]
    rintro _ bdf ⟨_, range, impossible, _⟩
    cases impossible

theorem requester_covered_once_elsewhere :
    dmarShared.CoveredOnce (.fromSegmentBdf 3 ⟨0x0100⟩) := by
  apply (requester_covered_once_iff dmarShared dmarShared_assigned _).mpr
  rintro ⟨_, _, other, member, _, listed, _, names⟩
  have unnamed : ∀ unit ∈ dmarShared.drhds, unit.includeAll = false →
      ¬Names (dmarShared.scopes unit).1 ⟨0x0100⟩ := by
    rw [dmarShared_drhds]
    decide +kernel
  exact unnamed other member listed names

/-- Both units answer that they cover 2a:05.0. -/
theorem requester_covered_twice : ¬∀ table : DmarTable, table.WellAssigned →
    ∀ requester, table.CoveredOnce requester := by
  intro once
  have listed : dmarShared.Covered dmarSampleUnit.registers (.fromSegmentBdf 3 ⟨0x2a28⟩) := by
    rw [DmarTable.Covered]
    decide +kernel
  have shared : dmarShared.Covered dmarSharedUnit.registers (.fromSegmentBdf 3 ⟨0x2a28⟩) := by
    rw [DmarTable.Covered]
    decide +kernel
  have same := once dmarShared dmarShared_assigned _ _ _ listed shared
  exact absurd same (by decide)

end Iommu
