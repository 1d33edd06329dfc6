import Iommu.BdfRangeSet.Equality

/-!
What a query that collects requesters in a set comes to, in terms of the requesters themselves. The
set keeps runs of requesters, so what it has room for is a question of runs.
-/

namespace Iommu

variable {N : Nat} {Failure : Type}

namespace BdfRangeSet

theorem merged_runsOf {ranges : List BdfRange} (filled : ∀ range ∈ ranges, range.isEmpty = false) :
    Span.Runs (spans ranges) (merged ranges []) := by
  obtain ⟨separated, covers⟩ := merged_runs filled separated_nil
  refine ⟨separated, fun point => (covers point).trans ?_⟩
  simp [spans, Span.Covers]

theorem insertEach_fits {ranges : List BdfRange} (filled : ∀ range ∈ ranges, range.isEmpty = false) :
    (∃ set : BdfRangeSet N, insertEach ranges empty = (.ok (), set)) ↔
      Span.FitInTurn N (spans ranges) := by
  refine (insertEach_ok_iff separated_nil (Nat.zero_le N) filled).trans ?_
  constructor
  · intro fits first among runs fall
    obtain ⟨visited, part, rfl⟩ := List.prefix_map_iff.mp among
    have own := merged_runsOf fun range member => filled range (part.subset member)
    rw [fall.unique own]
    exact fits visited part
  · intro fits visited part
    have own := merged_runsOf fun range member => filled range (part.subset member)
    exact fits _ (part.map _) _ own

end BdfRangeSet

/-- The query gives the set of the requesters that are taken, or none when it is to withhold it or no
requester is taken. It succeeds when there is room for the runs that they fall into. -/
structure Collected (taken : List (Span Nat)) (withheld : Prop)
    (outcome : Except Failure (Option (BdfRangeSet N))) : Prop where
  succeeds : (∃ result, outcome = .ok result) ↔ Span.FitInTurn N taken
  withholds : ∀ result, outcome = .ok result → (result = none ↔ withheld ∨ taken = [])
  contains : ∀ set, outcome = .ok (some set) → ∀ bdf,
    set.Contains bdf ↔ Span.Covers taken bdf.asU32

theorem collected_of_insertEach {ranges : List BdfRange}
    (filled : ∀ range ∈ ranges, range.isEmpty = false) {withheld : Prop} [Decidable withheld]
    {outcome : Except Failure (Option (BdfRangeSet N))}
    (inserts : ∀ result, outcome = .ok result ↔ ∃ set : BdfRangeSet N,
      BdfRangeSet.insertEach ranges .empty = (.ok (), set) ∧
        result = if withheld ∨ ranges = [] then none else some set) :
    Collected (BdfRangeSet.spans ranges) withheld outcome := by
  have none_taken : BdfRangeSet.spans ranges = [] ↔ ranges = [] := List.map_eq_nil_iff
  constructor
  · rw [← BdfRangeSet.insertEach_fits filled]
    simp only [inserts]
    constructor
    · rintro ⟨_, set, ran, _⟩
      exact ⟨set, ran⟩
    · rintro ⟨set, ran⟩
      exact ⟨_, set, ran, rfl⟩
  · intro result given
    obtain ⟨set, _, rfl⟩ := (inserts result).mp given
    rw [none_taken]
    split
    · next withholds => simp [withholds]
    · next gives => simp [gives]
  · intro set given bdf
    obtain ⟨final, ran, same⟩ := (inserts _).mp given
    split at same
    · cases same
    · obtain rfl := Option.some.inj same
      rw [BdfRangeSet.contains_insertEach ran]
      simp [Span.Covers, BdfRangeSet.spans, BdfRange.contains_iff]

end Iommu
