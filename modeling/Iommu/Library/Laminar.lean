import Iommu.Library.Tiling
import Mathlib.Algebra.Group.Nat.Defs

/-!
Spans of a family in which any two are nested or apart. Taking the longest span of the
family that fits, over and over, covers a stretch with as few of them as possible.
-/

namespace Span

variable {Point : Type} [LinearOrder Point]

def Within (inner outer : Span Point) : Prop :=
  outer.start ≤ inner.start ∧ inner.stop ≤ outer.stop

/-- Any two spans of the family are nested, or one ends before the other starts. -/
def Laminar (member : Span Point → Prop) : Prop :=
  ∀ first second, member first → member second →
    first.Within second ∨ second.Within first ∨ first.stop ≤ second.start ∨ second.stop ≤ first.start

/-- The spans tile the stretch up to the second point, each the longest of the family that starts where
it does and ends in the stretch. -/
inductive Greedy (member : Span Point → Prop) (high : Point) : Point → List (Span Point) → Prop
  | nil : Greedy member high high []
  | cons {span : Span Point} {rest : List (Span Point)} (proper : span.Proper)
      (longest : ∀ other, member other → other.start = span.start → other.stop ≤ high →
        other.stop ≤ span.stop)
      (belongs : member span) (later : Greedy member high span.stop rest) :
      Greedy member high span.start (span :: rest)

variable {member : Span Point → Prop} {low high : Point} {spans others : List (Span Point)}

theorem Greedy.tiles (greedy : Greedy member high low spans) : Tiles low spans high := by
  induction greedy with
  | nil => exact .nil high
  | cons proper _ _ _ ih => exact .cons rfl proper ih

theorem Greedy.members (greedy : Greedy member high low spans) : ∀ span ∈ spans, member span := by
  induction greedy with
  | nil => simp
  | cons _ _ belongs _ ih =>
      intro span among
      rcases List.mem_cons.mp among with rfl | later
      · exact belongs
      · exact ih span later

/-- No cover of the stretch by spans of the family that lie in it has fewer spans. -/
theorem Greedy.length_le (laminar : Laminar member) (greedy : Greedy member high low spans)
    (inside : ∀ other ∈ others, member other ∧ low ≤ other.start ∧ other.stop ≤ high)
    (covered : ∀ point, low ≤ point → point < high → Covers others point) :
    spans.length ≤ others.length := by
  induction greedy generalizing others with
  | nil => exact Nat.zero_le _
  | @cons span rest proper longest belongs later ih =>
      have reach : span.stop ≤ high := later.tiles.le
      let behind := others.filter fun other => span.stop ≤ other.start
      have kept : rest.length ≤ behind.length := by
        apply ih
        · intro other found
          obtain ⟨among, after⟩ := List.mem_filter.mp found
          obtain ⟨family, _, ends⟩ := inside other among
          exact ⟨family, of_decide_eq_true after, ends⟩
        · intro point after before
          obtain ⟨other, among, starts, ends⟩ :=
            covered point (le_trans (le_of_lt proper) after) before
          obtain ⟨family, above, below⟩ := inside other among
          refine ⟨other, List.mem_filter.mpr ⟨among, decide_eq_true ?_⟩, starts, ends⟩
          -- A span that starts inside the longest one would have to lie inside it.
          rcases laminar other span family belongs with nested | around | before | apart
          · exact absurd (lt_of_lt_of_le ends (le_trans nested.2 after)) (lt_irrefl point)
          · have same : other.start = span.start := le_antisymm around.1 above
            have short := longest other family same below
            exact absurd (lt_of_lt_of_le ends (le_trans short after)) (lt_irrefl point)
          · exact absurd (lt_of_lt_of_le ends before) (not_lt_of_ge (le_trans (le_of_lt proper) after))
          · exact apart
      have dropped : behind.length < others.length := by
        obtain ⟨first, among, starts, _⟩ := covered span.start (le_refl _) (lt_of_lt_of_le proper reach)
        apply List.length_filter_lt_length_iff_exists.mpr
        exact ⟨first, among, by simp [lt_of_le_of_lt starts proper]⟩
      rw [List.length_cons]
      omega

def Dyadic (least greatest : Nat) (span : Span Nat) : Prop :=
  ∃ order, least ≤ order ∧ order ≤ greatest ∧ 2 ^ order ∣ span.start ∧
    span.stop = span.start + 2 ^ order

theorem add_le_of_multiples {step first second : Nat} (divides : step ∣ first)
    (dividesSecond : step ∣ second) (before : first < second) : first + step ≤ second := by
  have positive : 0 < second - first := Nat.sub_pos_of_lt before
  have gap : step ≤ second - first := Nat.le_of_dvd positive (Nat.dvd_sub dividesSecond divides)
  omega

theorem dyadic_nested {start order otherStart otherOrder : Nat} (divides : 2 ^ order ∣ start)
    (dividesOther : 2 ^ otherOrder ∣ otherStart) (smaller : order ≤ otherOrder) :
    (otherStart ≤ start ∧ start + 2 ^ order ≤ otherStart + 2 ^ otherOrder) ∨
      start + 2 ^ order ≤ otherStart ∨ otherStart + 2 ^ otherOrder ≤ start := by
  have multiple : 2 ^ order ∣ 2 ^ otherOrder := Nat.pow_dvd_pow 2 smaller
  have aligned : 2 ^ order ∣ otherStart := Nat.dvd_trans multiple dividesOther
  rcases Nat.lt_or_ge start otherStart with before | after
  · exact Or.inr (Or.inl (add_le_of_multiples divides aligned before))
  · rcases Nat.lt_or_ge start (otherStart + 2 ^ otherOrder) with inside | beyond
    · exact Or.inl ⟨after, add_le_of_multiples divides (Nat.dvd_add aligned multiple) inside⟩
    · exact Or.inr (Or.inr beyond)

theorem laminar_dyadic (least greatest : Nat) : Laminar (Dyadic least greatest) := by
  rintro first second ⟨order, _, _, divides, ends⟩ ⟨otherOrder, _, _, dividesOther, endsOther⟩
  rw [Within, Within, ends, endsOther]
  rcases Nat.le_total order otherOrder with smaller | larger
  · rcases dyadic_nested divides dividesOther smaller with nested | before | after
    · exact Or.inl nested
    · exact Or.inr (Or.inr (Or.inl before))
    · exact Or.inr (Or.inr (Or.inr after))
  · rcases dyadic_nested dividesOther divides larger with nested | before | after
    · exact Or.inr (Or.inl nested)
    · exact Or.inr (Or.inr (Or.inr before))
    · exact Or.inr (Or.inr (Or.inl after))

end Span
