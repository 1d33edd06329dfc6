import Iommu.Library.Walking
import Mathlib.Data.List.Forall2
import Mathlib.Data.Set.List

/-!
Iterators over arrays of elements of one size, which count down what is left. Such an
iterator gives as many results as were left, one for each element.
-/

structure ArrayCursor where
  offset : Nat
  remaining : UInt32
  deriving DecidableEq

namespace ArrayCursor

open MachineWord

variable {Item Failure : Type}

/-- One element is passed, whether it can be read or not. -/
def next (size : Nat) (read : Nat → Parse Failure Item) :
    Effect ArrayCursor (Stop Failure) (Option Item) := do
  let cursor ← .get id
  if cursor.remaining = 0 then pure none
  else do
    let after ← .ofExcept (Parse.sum cursor.offset size)
    .modify fun _ => ⟨after, cursor.remaining - 1⟩
    let item ← .ofExcept (read cursor.offset)
    pure (some item)

def items (cursor : ArrayCursor) (size : Nat) (read : Nat → Parse Failure Item) :
    Parse Failure (List (Except Failure Item)) :=
  drain (next size read) (cursor.remaining.toNat + 1) cursor

variable {size : Nat} {read : Nat → Parse Failure Item} {cursor : ArrayCursor}

theorem next_done (none_left : cursor.remaining = 0) :
    next size read cursor = (.ok none, cursor) := by
  rw [next, Effect.bind_apply, Effect.get_apply]
  exact congrFun (if_pos none_left) cursor

theorem next_element (left : cursor.remaining ≠ 0) (small : cursor.offset + size < limit) :
    next size read cursor =
      ((read cursor.offset).map some, ⟨cursor.offset + size, cursor.remaining - 1⟩) := by
  simp only [next, Effect.bind_apply, Effect.get_apply, id_eq, if_neg left, Effect.ofExcept_apply,
    Parse.sum_of_lt small, Effect.modify_apply]
  cases read cursor.offset with
  | error stop => rfl
  | ok item => rfl

theorem remaining_pred {remaining : UInt32} {fewer : Nat} (left : remaining.toNat = fewer + 1) :
    remaining ≠ 0 ∧ (remaining - 1).toNat = fewer := by
  have positive : remaining ≠ 0 := by
    rintro rfl
    simp at left
  have one : (1 : UInt32) ≤ remaining := by
    rw [UInt32.le_iff_toNat_le, left, UInt32.toNat_one]
    omega
  refine ⟨positive, ?_⟩
  rw [UInt32.toNat_sub_of_le _ _ one, left, UInt32.toNat_one, Nat.add_sub_cancel]

theorem drain_elements {rounds count : Nat} (left : cursor.remaining.toNat = count)
    (small : cursor.offset + size * count < limit)
    (returns : ∀ place ∈ List.range' cursor.offset count size, (read place).Returns)
    (enough : count < rounds) :
    ∃ items, drain (next size read) rounds cursor = .ok items ∧
      List.Forall₂ (fun place outcome => read place = outcome.mapError .failed)
        (List.range' cursor.offset count size) items := by
  induction count generalizing cursor rounds with
  | zero =>
      obtain ⟨fewer, rfl⟩ : ∃ fewer, rounds = fewer + 1 := ⟨rounds - 1, by omega⟩
      exact ⟨[], drain_done (next_done (UInt32.toNat_inj.mp left)), .nil⟩
  | succ count ih =>
      obtain ⟨fewer, rfl⟩ : ∃ fewer, rounds = fewer + 1 := ⟨rounds - 1, by omega⟩
      obtain ⟨some_left, fewer_left⟩ := remaining_pred left
      rw [Nat.mul_succ, Nat.add_comm (size * count), ← Nat.add_assoc] at small
      rw [List.range'_succ] at returns ⊢
      have ran : next size read cursor = ((read cursor.offset).map some, _) :=
        next_element some_left (Nat.lt_of_le_of_lt (Nat.le_add_right _ _) small)
      obtain ⟨rest, drained, outcomes⟩ := @ih ⟨cursor.offset + size, cursor.remaining - 1⟩ fewer
        fewer_left small (fun place member => returns place (List.mem_cons_of_mem _ member))
        (Nat.lt_of_succ_lt_succ enough)
      obtain ⟨outcome, found⟩ := (returns cursor.offset (List.mem_cons_self ..)).outcome
      rw [found] at ran
      refine ⟨outcome :: rest, ?_, .cons found outcomes⟩
      cases outcome with
      | ok item => exact drain_item ran drained
      | error failure => exact drain_failed ran drained

theorem items_ok (small : cursor.offset + size * cursor.remaining.toNat < limit)
    (returns : ∀ place ∈ List.range' cursor.offset cursor.remaining.toNat size,
      (read place).Returns) :
    ∃ items, cursor.items size read = .ok items ∧
      List.Forall₂ (fun place outcome => read place = outcome.mapError .failed)
        (List.range' cursor.offset cursor.remaining.toNat size) items :=
  drain_elements rfl small returns (Nat.lt_succ_self _)

theorem items_read (small : cursor.offset + size * cursor.remaining.toNat < limit)
    (reads : ∀ place ∈ List.range' cursor.offset cursor.remaining.toNat size,
      ∃ item, read place = .ok item) :
    ∃ elements : List Item, cursor.items size read = .ok (elements.map .ok) := by
  have returns : ∀ place ∈ List.range' cursor.offset cursor.remaining.toNat size,
      (read place).Returns := by
    intro place member
    obtain ⟨item, found⟩ := reads place member
    rw [found]
    exact .ok item
  obtain ⟨items, ran, outcomes⟩ := items_ok small returns
  have readable : items ∈ Set.range (List.map Except.ok) := by
    rw [Set.range_list_map]
    intro outcome member
    obtain ⟨place, among, found⟩ := exists_of_forall₂ outcomes member
    obtain ⟨item, ok⟩ := reads place among
    rw [ok] at found
    cases outcome with
    | error failure => cases found
    | ok value => exact ⟨value, rfl⟩
  obtain ⟨elements, rfl⟩ := readable
  exact ⟨elements, ran⟩

theorem length_laid {Element : Type} {bytes : Element → List UInt8} {size : Nat}
    (sized : ∀ element, (bytes element).length = size) (elements : List Element) :
    (elements.flatMap bytes).length = size * elements.length := by
  induction elements with
  | nil => rfl
  | cons element rest ih =>
      simp only [List.flatMap_cons, List.length_append, ih, sized, List.length_cons, Nat.mul_succ]
      omega

theorem items_laid {Element : Type} {bytes : Element → List UInt8} {shown : Element → Item}
    {whole : List UInt8} (short : whole.length < limit)
    (sized : ∀ element, (bytes element).length = size)
    (reads : ∀ element place, HoldsAt whole place (bytes element) → read place = .ok (shown element))
    {elements : List Element} (holds : HoldsAt whole cursor.offset (elements.flatMap bytes))
    (counted : cursor.remaining.toNat = elements.length) :
    cursor.items size read = .ok ((elements.map shown).map .ok) := by
  have enough : elements.length < cursor.remaining.toNat + 1 := by omega
  rw [items]
  generalize cursor.remaining.toNat + 1 = rounds at enough
  induction elements generalizing cursor rounds with
  | nil =>
      obtain ⟨fewer, rfl⟩ : ∃ fewer, rounds = fewer + 1 := ⟨rounds - 1, by omega⟩
      exact drain_done (next_done (UInt32.toNat_inj.mp counted))
  | cons element rest ih =>
      obtain ⟨fewer, rfl⟩ : ∃ fewer, rounds = fewer + 1 := ⟨rounds - 1, by omega⟩
      obtain ⟨some_left, fewer_left⟩ := remaining_pred counted
      rw [List.flatMap_cons] at holds
      obtain ⟨first, later⟩ := holds.split
      have inside := first.inside
      rw [sized] at inside later
      have ran : next size read cursor = ((read cursor.offset).map some, _) :=
        next_element some_left (Nat.lt_of_le_of_lt inside short)
      rw [reads element _ first] at ran
      exact drain_item ran (@ih ⟨cursor.offset + size, cursor.remaining - 1⟩ later fewer_left fewer
        (Nat.lt_of_succ_lt_succ enough))

theorem outcomes_unique {other : Nat → Parse Failure Item} {places : List Nat}
    {items others : List (Except Failure Item)}
    (found : List.Forall₂ (fun place outcome => read place = outcome.mapError .failed) places items)
    (foundOther : List.Forall₂ (fun place outcome => other place = outcome.mapError .failed) places
      others)
    (same : ∀ place ∈ places, other place = read place) : others = items := by
  induction found generalizing others with
  | nil =>
      cases foundOther
      rfl
  | @cons place outcome places items first _ ih =>
      cases foundOther with
      | @cons _ second _ others firstOther rest =>
          rw [same place (List.mem_cons_self ..), first] at firstOther
          rw [ih rest fun place member => same place (List.mem_cons_of_mem _ member)]
          congr 1
          cases outcome <;> cases second <;> cases firstOther <;> rfl

theorem items_congr {other : Nat → Parse Failure Item}
    (small : cursor.offset + size * cursor.remaining.toNat < limit)
    (returns : ∀ place ∈ List.range' cursor.offset cursor.remaining.toNat size,
      (read place).Returns)
    (same : ∀ place ∈ List.range' cursor.offset cursor.remaining.toNat size,
      other place = read place) : cursor.items size other = cursor.items size read := by
  obtain ⟨items, ran, found⟩ := items_ok small returns
  have returnsOther : ∀ place ∈ List.range' cursor.offset cursor.remaining.toNat size,
      (other place).Returns := by
    intro place member
    rw [same place member]
    exact returns place member
  obtain ⟨others, ranOther, foundOther⟩ := items_ok small returnsOther
  rw [ran, ranOther, outcomes_unique found foundOther same]

theorem place_inside {offset count place : Nat} (member : place ∈ List.range' offset count size) :
    offset ≤ place ∧ place + size ≤ offset + size * count := by
  obtain ⟨index, below, rfl⟩ := List.mem_range'.mp member
  have scaled := Nat.mul_le_mul_left size (Nat.succ_le_of_lt below)
  rw [Nat.mul_succ] at scaled
  omega

end ArrayCursor
