import Mathlib.Data.Finset.Card
import Mathlib.Tactic.Common

/-!
The trail of places that a partial function leads along, and the search along it for a
wanted place, which gives up after a bounded number of places.
-/

section Trails

variable {Place Site : Type}

/-- The place some steps further on, when the trail goes that far. -/
def trail (follow : Place → Option Place) (start : Place) : Nat → Option Place
  | 0 => some start
  | steps + 1 => (follow start).bind fun next => trail follow next steps

inductive Sought (Place : Type)
  | found (place : Place)
  | ended
  | gaveUp

def seek (wanted : Place → Bool) (follow : Place → Option Place) : Nat → Place → Sought Place
  | 0, _ => .gaveUp
  | places + 1, start =>
      if wanted start then .found start
      else
        match follow start with
        | none => .ended
        | some next => seek wanted follow places next

/-- The trail comes to the place without a wanted one before it. -/
structure Reaches (wanted : Place → Bool) (follow : Place → Option Place) (start : Place) (steps : Nat)
    (place : Place) : Prop where
  there : trail follow start steps = some place
  unwanted : ∀ earlier < steps, ∀ passed, trail follow start earlier = some passed →
    wanted passed = false

/-- Two of the places up to some steps are at one site. -/
def Revisits (site : Place → Site) (follow : Place → Option Place) (start : Place) (steps : Nat) :
    Prop :=
  ∃ first second, first < second ∧ second ≤ steps ∧ ∃ before after,
    trail follow start first = some before ∧ trail follow start second = some after ∧
      site before = site after

variable {wanted : Place → Bool} {follow : Place → Option Place} {start next place : Place}
  {steps places : Nat}

theorem trail_next (followed : follow start = some next) (steps : Nat) :
    trail follow start (steps + 1) = trail follow next steps := by
  rw [trail, followed, Option.bind_some]

theorem trail_succ (follow : Place → Option Place) (start : Place) (steps : Nat) :
    trail follow start (steps + 1) = (trail follow start steps).bind follow := by
  induction steps generalizing start with
  | zero => simp [trail]
  | succ steps ih =>
      cases followed : follow start with
      | none => simp [trail, followed]
      | some next => rw [trail_next followed, trail_next followed, ih]

theorem trail_of_le {earlier : Nat} (there : trail follow start steps = some place)
    (before : earlier ≤ steps) : ∃ passed, trail follow start earlier = some passed := by
  induction steps generalizing place with
  | zero =>
      obtain rfl := Nat.le_zero.mp before
      exact ⟨place, there⟩
  | succ steps ih =>
      rcases Nat.le_or_eq_of_le_succ before with sooner | rfl
      · rw [trail_succ] at there
        obtain ⟨last, near, _⟩ := Option.bind_eq_some_iff.mp there
        exact ih near sooner
      · exact ⟨place, there⟩

theorem Reaches.zero (wanted : Place → Bool) (follow : Place → Option Place) (start : Place) :
    Reaches wanted follow start 0 start :=
  ⟨rfl, fun earlier below => absurd below (Nat.not_lt_zero earlier)⟩

theorem Reaches.step (reaches : Reaches wanted follow start (steps + 1) place) :
    wanted start = false ∧ ∃ next, follow start = some next ∧ Reaches wanted follow next steps place := by
  obtain ⟨there, unwanted⟩ := reaches
  refine ⟨unwanted 0 (Nat.succ_pos steps) start rfl, ?_⟩
  rw [trail] at there
  obtain ⟨next, followed, rest⟩ := Option.bind_eq_some_iff.mp there
  refine ⟨next, followed, rest, fun earlier below passed at_earlier => ?_⟩
  exact unwanted (earlier + 1) (Nat.succ_lt_succ below) passed ((trail_next followed earlier).trans at_earlier)

theorem Reaches.cons (reaches : Reaches wanted follow next steps place) (skipped : wanted start = false)
    (followed : follow start = some next) : Reaches wanted follow start (steps + 1) place := by
  refine ⟨(trail_next followed steps).trans reaches.there, ?_⟩
  intro earlier below passed at_earlier
  cases earlier with
  | zero =>
      obtain rfl := Option.some.inj at_earlier
      exact skipped
  | succ earlier =>
      rw [trail_next followed] at at_earlier
      exact reaches.unwanted earlier (Nat.lt_of_succ_lt_succ below) passed at_earlier

theorem seek_of_reaches (reaches : Reaches wanted follow start steps place) (extra : Nat) :
    seek wanted follow (steps + 1 + extra) start =
      if wanted place then .found place
      else
        match follow place with
        | none => .ended
        | some next => seek wanted follow extra next := by
  induction steps generalizing start with
  | zero =>
      obtain rfl := Option.some.inj reaches.there
      rw [Nat.zero_add, Nat.add_comm, seek]
  | succ steps ih =>
      obtain ⟨skipped, next, followed, rest⟩ := reaches.step
      rw [Nat.add_right_comm, seek, skipped, if_neg Bool.false_ne_true, followed]
      exact ih rest

theorem seek_found (reaches : Reaches wanted follow start steps place) (here : wanted place = true)
    (short : steps < places) : seek wanted follow places start = .found place := by
  obtain ⟨extra, rfl⟩ := Nat.exists_eq_add_of_le (Nat.succ_le_of_lt short)
  rw [seek_of_reaches reaches, if_pos here]

theorem seek_ended (reaches : Reaches wanted follow start steps place) (last : wanted place = false)
    (stuck : follow place = none) (short : steps < places) :
    seek wanted follow places start = .ended := by
  obtain ⟨extra, rfl⟩ := Nat.exists_eq_add_of_le (Nat.succ_le_of_lt short)
  rw [seek_of_reaches reaches, last, if_neg Bool.false_ne_true, stuck]

theorem seek_cases (wanted : Place → Bool) (follow : Place → Option Place) (places : Nat)
    (start : Place) :
    (∃ steps place, steps < places ∧ Reaches wanted follow start steps place ∧ wanted place = true ∧
      seek wanted follow places start = .found place) ∨
    (∃ steps place, steps < places ∧ Reaches wanted follow start steps place ∧
      wanted place = false ∧ follow place = none ∧ seek wanted follow places start = .ended) ∨
    ((∃ place, Reaches wanted follow start places place) ∧
      seek wanted follow places start = .gaveUp) := by
  induction places generalizing start with
  | zero => exact Or.inr (Or.inr ⟨⟨start, .zero wanted follow start⟩, rfl⟩)
  | succ places ih =>
      have here := Reaches.zero wanted follow start
      cases reached : wanted start with
      | true =>
          exact Or.inl ⟨0, start, Nat.succ_pos _, here, reached,
            seek_found here reached (Nat.succ_pos _)⟩
      | false =>
          cases followed : follow start with
          | none =>
              exact Or.inr (Or.inl ⟨0, start, Nat.succ_pos _, here, reached, followed,
                seek_ended here reached followed (Nat.succ_pos _)⟩)
          | some next =>
              have moved : seek wanted follow (places + 1) start = seek wanted follow places next := by
                rw [seek, reached, if_neg Bool.false_ne_true, followed]
              rw [moved]
              rcases ih next with
                ⟨steps, place, short, reaches, found⟩ | ⟨steps, place, short, reaches, ended⟩ |
                ⟨⟨place, reaches⟩, stopped⟩
              · have longer := reaches.cons reached followed
                exact Or.inl ⟨steps + 1, place, Nat.succ_lt_succ short, longer, found⟩
              · have longer := reaches.cons reached followed
                exact Or.inr (Or.inl ⟨steps + 1, place, Nat.succ_lt_succ short, longer, ended⟩)
              · exact Or.inr (Or.inr ⟨⟨place, reaches.cons reached followed⟩, stopped⟩)

theorem revisits_of_long {site : Place → Site} {sites : List Site}
    (inside : ∀ passed place, trail follow start passed = some place → site place ∈ sites)
    (there : trail follow start steps = some place) (long : sites.length ≤ steps) :
    Revisits site follow start steps := by
  classical
  have many : (sites.toFinset.image some).card < (Finset.range (steps + 1)).card := by
    rw [Finset.card_range]
    exact Nat.lt_succ_of_le
      (Nat.le_trans Finset.card_image_le (Nat.le_trans (List.toFinset_card_le sites) long))
  have among : ∀ passed ∈ Finset.range (steps + 1),
      (trail follow start passed).map site ∈ sites.toFinset.image some := by
    intro passed below
    obtain ⟨before, at_passed⟩ := trail_of_le there (Nat.lt_succ_iff.mp (Finset.mem_range.mp below))
    rw [at_passed]
    exact Finset.mem_image_of_mem some (List.mem_toFinset.mpr (inside passed before at_passed))
  obtain ⟨first, firstBelow, second, secondBelow, apart, same⟩ :=
    Finset.exists_ne_map_eq_of_card_lt_of_maps_to many among
  obtain ⟨before, at_first⟩ := trail_of_le there (Nat.lt_succ_iff.mp (Finset.mem_range.mp firstBelow))
  obtain ⟨after, at_second⟩ :=
    trail_of_le there (Nat.lt_succ_iff.mp (Finset.mem_range.mp secondBelow))
  rw [at_first, at_second] at same
  have shared : site before = site after := Option.some.inj same
  rcases Nat.lt_or_gt_of_ne apart with less | more
  · exact ⟨first, second, less, Nat.lt_succ_iff.mp (Finset.mem_range.mp secondBelow), before, after,
      at_first, at_second, shared⟩
  · exact ⟨second, first, more, Nat.lt_succ_iff.mp (Finset.mem_range.mp firstBelow), after, before,
      at_second, at_first, shared.symm⟩

end Trails
