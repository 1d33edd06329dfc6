import Mathlib.Order.Lattice
import Mathlib.Order.MinMax
import Mathlib.Tactic.Common
import Mathlib.Tactic.Order

/-!
Sorted lists of half-open spans that neither overlap nor touch, and the insertion
that joins a new span with every span it overlaps or touches.
-/

structure Span (Point : Type) where
  start : Point
  stop : Point
  deriving DecidableEq

namespace Span

variable {Point : Type} [LinearOrder Point]

def Contains (span : Span Point) (point : Point) : Prop :=
  span.start ≤ point ∧ point < span.stop

def Proper (span : Span Point) : Prop := span.start < span.stop

def Before (first second : Span Point) : Prop := first.stop < second.start

def Touches (first second : Span Point) : Prop :=
  first.start ≤ second.stop ∧ second.start ≤ first.stop

instance (first second : Span Point) : Decidable (Before first second) :=
  inferInstanceAs (Decidable (_ < _))

instance (first second : Span Point) : Decidable (Touches first second) :=
  inferInstanceAs (Decidable (_ ∧ _))

def join (first second : Span Point) : Span Point :=
  ⟨min first.start second.start, max first.stop second.stop⟩

def Separated (spans : List (Span Point)) : Prop :=
  (∀ span ∈ spans, span.Proper) ∧ spans.Pairwise Before

def Covers (spans : List (Span Point)) (point : Point) : Prop :=
  ∃ span ∈ spans, span.Contains point

/-- Insert a span, joining it with the spans it touches. -/
def insert (span : Span Point) : List (Span Point) → List (Span Point)
  | [] => [span]
  | first :: rest =>
      if span.Before first then span :: first :: rest
      else if first.Before span then first :: insert span rest
      else insert (first.join span) rest

theorem not_before_iff_touches {first second : Span Point} :
    (¬first.Before second ∧ ¬second.Before first) ↔ first.Touches second := by
  simp only [Before, Touches, not_lt]
  exact and_comm

theorem join_comm (first second : Span Point) : first.join second = second.join first := by
  rw [join, join, min_comm, max_comm]

theorem join_proper {first second : Span Point} (proper : first.Proper) :
    (first.join second).Proper :=
  lt_of_le_of_lt (min_le_left _ _) (lt_of_lt_of_le proper (le_max_left _ _))

theorem join_contains {first second : Span Point} (touching : first.Touches second)
    (point : Point) :
    (first.join second).Contains point ↔ first.Contains point ∨ second.Contains point := by
  obtain ⟨left, right⟩ := touching
  simp only [Contains, join, min_le_iff, lt_max_iff]
  constructor
  · rintro ⟨low | low, high | high⟩
    · exact Or.inl ⟨low, high⟩
    · rcases lt_or_ge point first.stop with below | above
      · exact Or.inl ⟨low, below⟩
      · exact Or.inr ⟨le_trans right above, high⟩
    · rcases lt_or_ge point second.stop with below | above
      · exact Or.inr ⟨low, below⟩
      · exact Or.inl ⟨le_trans left above, high⟩
    · exact Or.inr ⟨low, high⟩
  · rintro (⟨low, high⟩ | ⟨low, high⟩)
    · exact ⟨Or.inl low, Or.inl high⟩
    · exact ⟨Or.inr low, Or.inr high⟩

theorem join_of_contained {first second : Span Point} (starts : first.start ≤ second.start)
    (stops : second.stop ≤ first.stop) : first.join second = first := by
  rw [join, min_eq_left starts, max_eq_left stops]

theorem Separated.tail {first : Span Point} {rest : List (Span Point)}
    (separated : Separated (first :: rest)) : Separated rest :=
  ⟨fun span member => separated.1 span (List.mem_cons_of_mem _ member),
    (List.pairwise_cons.mp separated.2).2⟩

theorem Separated.before {first : Span Point} {rest : List (Span Point)}
    (separated : Separated (first :: rest)) : ∀ span ∈ rest, first.Before span :=
  (List.pairwise_cons.mp separated.2).1

theorem separated_cons {first : Span Point} {rest : List (Span Point)} (proper : first.Proper)
    (before : ∀ span ∈ rest, first.Before span) (separated : Separated rest) :
    Separated (first :: rest) :=
  ⟨List.forall_mem_cons.mpr ⟨proper, separated.1⟩, List.pairwise_cons.mpr ⟨before, separated.2⟩⟩

theorem Before.trans {first second third : Span Point} (left : first.Before second)
    (proper : second.Proper) (right : second.Before third) : first.Before third :=
  lt_trans (lt_trans left proper) right

theorem before_insert {low span : Span Point} {spans : List (Span Point)}
    (beforeSpan : low.Before span) (before : ∀ member ∈ spans, low.Before member) :
    ∀ member ∈ insert span spans, low.Before member := by
  induction spans generalizing span with
  | nil => simpa [insert] using beforeSpan
  | cons first rest ih =>
      obtain ⟨beforeFirst, beforeRest⟩ := List.forall_mem_cons.mp before
      rw [insert]
      split
      · exact List.forall_mem_cons.mpr ⟨beforeSpan, before⟩
      · split
        · exact List.forall_mem_cons.mpr ⟨beforeFirst, ih beforeSpan beforeRest⟩
        · exact ih (lt_min beforeFirst beforeSpan) beforeRest

theorem separated_insert {span : Span Point} {spans : List (Span Point)} (proper : span.Proper)
    (separated : Separated spans) : Separated (insert span spans) := by
  induction spans generalizing span with
  | nil => exact ⟨by simpa [insert] using proper, List.pairwise_singleton _ _⟩
  | cons first rest ih =>
      have firstProper := separated.1 first List.mem_cons_self
      rw [insert]
      split
      · rename_i ahead
        refine separated_cons proper (List.forall_mem_cons.mpr ⟨ahead, ?_⟩) separated
        exact fun member found => ahead.trans firstProper (separated.before member found)
      · split
        · rename_i behind
          exact separated_cons firstProper (before_insert behind separated.before)
            (ih proper separated.tail)
        · exact ih (join_proper firstProper) separated.tail

theorem covers_insert (span : Span Point) (spans : List (Span Point)) (point : Point) :
    Covers (insert span spans) point ↔ span.Contains point ∨ Covers spans point := by
  induction spans generalizing span with
  | nil => simp [insert, Covers]
  | cons first rest ih =>
      have split_covers : Covers (first :: rest) point ↔
          first.Contains point ∨ Covers rest point := by
        simp [Covers]
      rw [insert, split_covers]
      split
      · simp [Covers]
      · rename_i notAhead
        split
        · have inner := ih span
          simp only [Covers, List.mem_cons, exists_eq_or_imp] at inner ⊢
          rw [inner]
          exact or_left_comm
        · rename_i notBehind
          have touching := not_before_iff_touches.mp ⟨notBehind, notAhead⟩
          rw [ih, join_contains touching, or_assoc]
          exact or_left_comm

theorem insert_of_before {span : Span Point} {spans : List (Span Point)}
    (before : ∀ member ∈ spans, span.Before member) : insert span spans = span :: spans := by
  cases spans with
  | nil => rfl
  | cons first rest => rw [insert, if_pos (before first List.mem_cons_self)]

theorem insert_length_le (span : Span Point) (spans : List (Span Point)) :
    (insert span spans).length ≤ spans.length + 1 := by
  induction spans generalizing span with
  | nil => exact Nat.le_refl 1
  | cons first rest ih =>
      rw [insert]
      split
      · exact Nat.le_refl _
      · split
        · exact Nat.succ_le_succ (ih span)
        · exact Nat.le_succ_of_le (ih _)

theorem insert_length_of_touches {span : Span Point} {spans : List (Span Point)}
    (separated : Separated spans)
    (touching : ∃ member ∈ spans, span.Touches member) :
    (insert span spans).length ≤ spans.length := by
  induction spans with
  | nil => simp at touching
  | cons first rest ih =>
      obtain ⟨member, found, touches⟩ := touching
      rw [insert]
      split
      · rename_i ahead
        have before : span.Before member := by
          rcases List.mem_cons.mp found with rfl | later
          · exact ahead
          · exact ahead.trans (separated.1 first List.mem_cons_self) (separated.before member later)
        exact absurd before (not_before_iff_touches.mpr touches).1
      · split
        · rename_i behind
          have later : member ∈ rest := by
            rcases List.mem_cons.mp found with rfl | later
            · exact absurd behind (not_before_iff_touches.mpr touches).2
            · exact later
          exact Nat.succ_le_succ (ih separated.tail ⟨member, later, touches⟩)
        · exact insert_length_le _ rest

theorem insert_length_of_apart {span : Span Point} {spans : List (Span Point)}
    (apart : ∀ member ∈ spans, ¬span.Touches member) :
    (insert span spans).length = spans.length + 1 := by
  induction spans with
  | nil => rfl
  | cons first rest ih =>
      obtain ⟨apartFirst, apartRest⟩ := List.forall_mem_cons.mp apart
      rw [insert]
      split
      · rfl
      · next notAhead =>
        split
        · rw [List.length_cons, ih apartRest, List.length_cons]
        · next notBehind => exact absurd (not_before_iff_touches.mp ⟨notAhead, notBehind⟩) apartFirst

theorem Separated.start_le {first : Span Point} {rest : List (Span Point)}
    (separated : Separated (first :: rest)) {point : Point} (covered : Covers (first :: rest) point) :
    first.start ≤ point := by
  have proper := separated.1 first List.mem_cons_self
  obtain ⟨span, member, inside⟩ := covered
  rcases List.mem_cons.mp member with rfl | later
  · exact inside.1
  · exact le_trans (le_of_lt (lt_trans proper (separated.before span later))) inside.1

theorem Separated.covers_start {first : Span Point} {rest : List (Span Point)}
    (separated : Separated (first :: rest)) : Covers (first :: rest) first.start :=
  ⟨first, List.mem_cons_self, le_refl _, separated.1 first List.mem_cons_self⟩

theorem Separated.covers_tail {first : Span Point} {rest : List (Span Point)}
    (separated : Separated (first :: rest)) (point : Point) :
    Covers rest point ↔ Covers (first :: rest) point ∧ first.stop < point := by
  constructor
  · rintro ⟨span, member, inside⟩
    exact ⟨⟨span, List.mem_cons_of_mem _ member, inside⟩,
      lt_of_lt_of_le (separated.before span member) inside.1⟩
  · rintro ⟨⟨span, member, inside⟩, beyond⟩
    rcases List.mem_cons.mp member with rfl | later
    · exact absurd inside.2 (not_lt_of_gt beyond)
    · exact ⟨span, later, inside⟩

theorem Separated.stop_not_covered {first : Span Point} {rest : List (Span Point)}
    (separated : Separated (first :: rest)) : ¬Covers (first :: rest) first.stop := by
  rintro ⟨span, member, inside⟩
  rcases List.mem_cons.mp member with rfl | later
  · exact lt_irrefl _ inside.2
  · exact absurd inside.1 (not_le_of_gt (separated.before span later))

theorem Separated.stop_le {first second : Span Point} {firstRest secondRest : List (Span Point)}
    (separated : Separated (first :: firstRest)) (proper : first.Proper)
    (starts : first.start = second.start)
    (same : ∀ point, Covers (first :: firstRest) point ↔ Covers (second :: secondRest) point) :
    second.stop ≤ first.stop := by
  by_contra further
  have covered : Covers (second :: secondRest) first.stop :=
    ⟨second, List.mem_cons_self, starts ▸ le_of_lt proper, not_le.mp further⟩
  exact separated.stop_not_covered ((same first.stop).mpr covered)

/-- Separated spans are determined by the points that they cover. -/
theorem Separated.eq_of_covers {first second : List (Span Point)} (firstSeparated : Separated first)
    (secondSeparated : Separated second)
    (same : ∀ point, Covers first point ↔ Covers second point) : first = second := by
  induction first generalizing second with
  | nil =>
      cases second with
      | nil => rfl
      | cons span rest =>
          obtain ⟨_, member, _⟩ := (same span.start).mpr secondSeparated.covers_start
          cases member
  | cons span rest ih =>
      cases second with
      | nil =>
          obtain ⟨_, member, _⟩ := (same span.start).mp firstSeparated.covers_start
          cases member
      | cons other others =>
          have starts : span.start = other.start := le_antisymm
            (firstSeparated.start_le ((same _).mpr secondSeparated.covers_start))
            (secondSeparated.start_le ((same _).mp firstSeparated.covers_start))
          have stops : span.stop = other.stop := le_antisymm
            (secondSeparated.stop_le (secondSeparated.1 other List.mem_cons_self) starts.symm
              fun point => (same point).symm)
            (firstSeparated.stop_le (firstSeparated.1 span List.mem_cons_self) starts same)
          obtain rfl : span = other := by
            cases span
            cases other
            exact (mk.injEq _ _ _ _).mpr ⟨starts, stops⟩
          have tails := ih firstSeparated.tail secondSeparated.tail fun point => by
            rw [firstSeparated.covers_tail, secondSeparated.covers_tail, same]
          rw [tails]

theorem insert_of_covered {span : Span Point} {spans : List (Span Point)} (proper : span.Proper)
    (separated : Separated spans) (covered : ∀ point, span.Contains point → Covers spans point) :
    insert span spans = spans :=
  (separated_insert proper separated).eq_of_covers separated fun point => by
    rw [covers_insert]
    exact or_iff_right_of_imp (covered point)

/-- The runs of points that spans fall into, none next to another. -/
structure Runs (spans runs : List (Span Point)) : Prop where
  separated : Separated runs
  covers : ∀ point, Covers runs point ↔ Covers spans point

theorem Runs.unique {spans first second : List (Span Point)} (one : Runs spans first)
    (other : Runs spans second) : first = second :=
  one.separated.eq_of_covers other.separated fun point =>
    (one.covers point).trans (other.covers point).symm

/-- Taken in turn, the spans at no time fall into more runs than there is room for. -/
def FitInTurn (room : Nat) (spans : List (Span Point)) : Prop :=
  ∀ first, first <+: spans → ∀ runs, Runs first runs → runs.length ≤ room

end Span
