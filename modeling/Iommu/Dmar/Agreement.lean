import Iommu.Dmar.Coverage
import Iommu.Dmar.Totality

/-!
The two ways to ask what a register window covers, against each other: where the
query for ranges answers, it answers as the query for each requester does.
-/

namespace Iommu

open MachineWord

theorem scopes_empty_iff (scopes : List DmarDeviceScope) :
    scopes = [] ↔ named scopes = [] ∧ ¬Unresolved scopes := by
  cases scopes with
  | nil => simp [named, Unresolved]
  | cons scope rest =>
      rw [named_cons, unresolved_cons]
      cases scope.requester <;> simp

namespace DmarTable

variable (table : DmarTable) (registers : AddrRange)

theorem flatMap_explicitScopes (units : List DmarDrhd) :
    units.flatMap (table.explicitScopes registers) =
      (units.filter (·.registers = registers)).flatMap (table.explicitScopes registers) := by
  induction units with
  | nil => rfl
  | cons unit rest ih =>
      by_cases here : unit.registers = registers
      · rw [List.filter_cons_of_pos (by simpa using here), List.flatMap_cons, List.flatMap_cons, ih]
      · rw [List.filter_cons_of_neg (by simpa using here), List.flatMap_cons, ih, explicitScopes,
          if_neg (fun both => here both.1), List.nil_append]

theorem sole_unit (unique : (table.drhds.filter (·.registers = registers)).length ≤ 1) :
    ((∀ unit ∈ table.drhds, unit.registers ≠ registers) ∧ table.decisive registers = none) ∨
      ∃ unit ∈ table.drhds, unit.registers = registers ∧ table.decisive registers = some unit ∧
        table.windowScopes registers = table.explicitScopes registers unit := by
  have through := table.flatMap_explicitScopes registers table.drhds
  cases found : table.drhds.filter (·.registers = registers) with
  | nil =>
      left
      constructor
      · intro unit member here
        have among : unit ∈ table.drhds.filter (·.registers = registers) :=
          List.mem_filter.mpr ⟨member, decide_eq_true here⟩
        rw [found] at among
        cases among
      · rw [decisive, found]
        rfl
  | cons unit rest =>
      right
      rw [found] at unique through
      obtain rfl : rest = [] := List.length_eq_zero_iff.mp (by simpa using unique)
      have member : unit ∈ table.drhds.filter (·.registers = registers) := by simp [found]
      obtain ⟨among, here⟩ := List.mem_filter.mp member
      refine ⟨unit, among, of_decide_eq_true here, ?_, ?_⟩
      · rw [decisive, found]
        rfl
      · rw [windowScopes, through, List.flatMap_singleton]

theorem collects_answers {set : DmarBdfRangeSet} (collects : table.Collects registers set)
    (requester : PciDevice) : table.drhdRequesterMatch registers requester =
      .ok ((table.decisive registers).map (table.reply · requester)) := by
  rw [drhdRequesterMatch_eq_ok]
  exact ⟨collects.1, fun unit member here _ => collects.2.1 unit member here, rfl⟩

theorem explicitScopes_of_includeAll {unit : DmarDrhd} (all : unit.includeAll = true) :
    table.explicitScopes registers unit = [] := by
  rw [explicitScopes, all]
  simp

theorem explicitScopes_of_listed {unit : DmarDrhd} (here : unit.registers = registers)
    (listed : unit.includeAll = false) :
    table.explicitScopes registers unit = (table.scopes unit).1 :=
  if_pos ⟨here, listed⟩

end DmarTable

/-- A query for ranges that gives a set gives the requesters that the query for one requester calls
covered, and the rest are not covered. One that gives none is about no unit, about a unit that covers
everything, about one with an unresolved scope, or about one without scopes. -/
theorem drhd_coverage_agrees (table : DmarTable) (registers : AddrRange)
    (unique : (table.drhds.filter (·.registers = registers)).length ≤ 1) :
    (∀ set, table.drhdBdfRanges registers = .ok (some set) →
      ∃ unit ∈ table.drhds, unit.registers = registers ∧
        ∀ requester : PciDevice, requester.segment = unit.segment →
          (set.Contains requester.bdf →
            table.drhdRequesterMatch registers requester = .ok (some .covered)) ∧
          (¬set.Contains requester.bdf →
            table.drhdRequesterMatch registers requester = .ok (some .notCovered))) ∧
    (table.drhdBdfRanges registers = .ok none →
      ((∀ unit ∈ table.drhds, unit.registers ≠ registers) ∧
        ∀ requester, table.drhdRequesterMatch registers requester = .ok none) ∨
      ∃ unit ∈ table.drhds, unit.registers = registers ∧
        ((unit.includeAll = true ∧ ∀ requester : PciDevice, requester.segment = unit.segment →
            table.drhdRequesterMatch registers requester = .ok (some .covered)) ∨
          Unresolved (table.scopes unit).1 ∨ (table.scopes unit).1 = [])) := by
  constructor
  · intro set collected
    obtain ⟨ranges, collects, result⟩ := (table.drhdBdfRanges_eq_ok registers _).mp collected
    have answer := table.collects_answers registers collects
    split at result
    · contradiction
    · next conclusive =>
      obtain rfl := Option.some.inj result
      obtain ⟨resolved, some_named⟩ := not_or.mp conclusive
      rcases table.sole_unit registers unique with ⟨none, _⟩ | ⟨unit, member, here, decides, scopes⟩
      · rw [table.windowScopes_nil registers none] at some_named
        exact absurd rfl some_named
      cases all : unit.includeAll with
      | true =>
          rw [scopes, table.explicitScopes_of_includeAll registers all] at some_named
          exact absurd rfl some_named
      | false =>
          have listed := scopes.trans (table.explicitScopes_of_listed registers here all)
          have contains := BdfRangeSet.contains_insertEach collects.2.2
          rw [listed] at resolved contains
          refine ⟨unit, member, here, fun requester segment => ?_⟩
          rw [answer, decides, contains, Option.map_some]
          constructor
          · intro names
            rw [(table.reply_eq_covered unit requester).mpr ⟨segment.symm, Or.inr names⟩]
          · intro missing
            rw [(table.reply_eq_notCovered unit requester).mpr (Or.inr ⟨all, missing, resolved⟩)]
  · intro collected
    obtain ⟨ranges, collects, result⟩ := (table.drhdBdfRanges_eq_ok registers _).mp collected
    have answer := table.collects_answers registers collects
    rcases table.sole_unit registers unique with ⟨none, decides⟩ | ⟨unit, member, here, decides, scopes⟩
    · left
      refine ⟨none, fun requester => ?_⟩
      rw [answer, decides]
      rfl
    · right
      refine ⟨unit, member, here, ?_⟩
      cases all : unit.includeAll with
      | true =>
          refine Or.inl ⟨rfl, fun requester segment => ?_⟩
          rw [answer, decides, Option.map_some,
            (table.reply_eq_covered unit requester).mpr ⟨segment.symm, Or.inl all⟩]
      | false =>
          right
          rw [scopes, table.explicitScopes_of_listed registers here all] at result
          split at result
          · next inconclusive =>
            rw [scopes_empty_iff]
            by_cases unresolved : Unresolved (table.scopes unit).1
            · exact Or.inl unresolved
            · exact Or.inr ⟨inconclusive.resolve_left unresolved, unresolved⟩
          · contradiction

def dmarSample : DmarTable := ⟨dmarSampleBytes, by decide, by decide⟩

def dmarSampleWindow : AddrRange := .fromStartSize 0xfed90000 0x1000 registerPage_bounded

def dmarSampleUnit : DmarDrhd where
  flags := 0
  segment := 3
  registers := dmarSampleWindow
  includeAll := false
  hasDeviceScopes := true
  structureOffset := 48
  length := 24

theorem drhd_coverage_agrees_sample :
    ∃ set, dmarSample.drhdBdfRanges dmarSampleWindow = .ok (some set) ∧
      ∃ unit ∈ dmarSample.drhds, unit.registers = dmarSampleWindow ∧
        ∀ requester : PciDevice, requester.segment = unit.segment → ¬set.Contains requester.bdf →
          dmarSample.drhdRequesterMatch dmarSampleWindow requester = .ok (some .notCovered) := by
  have agrees := drhd_coverage_agrees dmarSample dmarSampleWindow (by decide +kernel)
  refine ⟨_, rfl, ?_⟩
  obtain ⟨unit, member, here, classified⟩ := agrees.1 _ rfl
  exact ⟨unit, member, here, fun requester segment => (classified requester segment).2⟩

end Iommu
