import Iommu.Library.Spans

/-!
Lists of consecutive spans that cut a stretch into pieces without gap or overlap.
-/

namespace Span

variable {Point : Type} [LinearOrder Point]

/-- The spans cut the stretch from the first point up to the second into proper pieces, in order. -/
inductive Tiles : Point → List (Span Point) → Point → Prop
  | nil (point : Point) : Tiles point [] point
  | cons {start stop : Point} {span : Span Point} {rest : List (Span Point)}
      (adjacent : span.start = start) (proper : span.Proper) (tiled : Tiles span.stop rest stop) :
      Tiles start (span :: rest) stop

def Apart (first second : Span Point) : Prop :=
  ∀ point, ¬(first.Contains point ∧ second.Contains point)

theorem Tiles.le {start stop : Point} {spans : List (Span Point)} (tiled : Tiles start spans stop) :
    start ≤ stop := by
  induction tiled with
  | nil point => exact le_refl point
  | cons adjacent proper _ ih => exact adjacent ▸ le_trans (le_of_lt proper) ih

theorem Tiles.start_le {start stop : Point} {spans : List (Span Point)}
    (tiled : Tiles start spans stop) : ∀ span ∈ spans, start ≤ span.start := by
  induction tiled with
  | nil point => simp
  | @cons start stop head rest adjacent proper tiled ih =>
      intro span member
      rcases List.mem_cons.mp member with rfl | later
      · exact le_of_eq adjacent.symm
      · exact adjacent ▸ le_trans (le_of_lt proper) (ih span later)

theorem Tiles.covers_iff {start stop : Point} {spans : List (Span Point)}
    (tiled : Tiles start spans stop) (point : Point) :
    Covers spans point ↔ start ≤ point ∧ point < stop := by
  induction tiled with
  | nil edge => simp [Covers]
  | @cons start stop head rest adjacent proper tiled ih =>
      have split : Covers (head :: rest) point ↔ head.Contains point ∨ Covers rest point := by
        simp [Covers]
      have last := tiled.le
      rw [split, ih, Contains, adjacent]
      rw [Proper, adjacent] at proper
      constructor
      · rintro (⟨low, high⟩ | ⟨low, high⟩)
        · exact ⟨low, lt_of_lt_of_le high last⟩
        · exact ⟨le_trans (le_of_lt proper) low, high⟩
      · rintro ⟨low, high⟩
        rcases lt_or_ge point head.stop with inside | beyond
        · exact Or.inl ⟨low, inside⟩
        · exact Or.inr ⟨beyond, high⟩

theorem Tiles.pairwise_apart {start stop : Point} {spans : List (Span Point)}
    (tiled : Tiles start spans stop) : spans.Pairwise Apart := by
  induction tiled with
  | nil point => exact List.Pairwise.nil
  | @cons start stop head rest adjacent proper tiled ih =>
      apply List.Pairwise.cons
      · rintro span member point ⟨⟨_, before⟩, ⟨after, _⟩⟩
        exact absurd (lt_of_lt_of_le before (tiled.start_le span member)) (not_lt_of_ge after)
      · exact ih

end Span
