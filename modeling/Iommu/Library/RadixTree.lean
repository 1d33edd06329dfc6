import Mathlib.Algebra.Group.Nat.Defs
import Mathlib.Tactic.Common

/-!
Trees that cut a stretch of points into equal parts, and each part again, until a leaf takes a part
whole. A search follows the digits of a point; a leaf has a place, where the search finds it.
-/

namespace RadixTree

/-- A tree of the given level. Leaves and tables carry what their level asks for. -/
inductive Tree (Leaf Table : Nat → Type) (fan : Nat) : Nat → Type
  | hole {level : Nat} : Tree Leaf Table fan level
  | leaf {level : Nat} (leaf : Leaf level) : Tree Leaf Table fan level
  | table {level : Nat} (table : Table level) (entries : Fin fan → Tree Leaf Table fan level) :
      Tree Leaf Table fan (level + 1)

def span (grain fan level : Nat) : Nat := fan ^ level * grain

variable {Leaf Table : Nat → Type} {grain fan : Nat}

theorem span_succ (grain fan level : Nat) : span grain fan (level + 1) = fan * span grain fan level := by
  rw [span, span, Nat.pow_succ, Nat.mul_comm (fan ^ level) fan, Nat.mul_assoc]

theorem digit_lt {level point : Nat} (inside : point < span grain fan (level + 1)) :
    point / span grain fan level < fan := by
  apply Nat.div_lt_of_lt_mul
  rwa [Nat.mul_comm, ← span_succ]

/-- A leaf that was found, with how far into it the point is. -/
structure Found (Leaf : Nat → Type) where
  level : Nat
  leaf : Leaf level
  offset : Nat

namespace Tree

variable {level : Nat}

def find (grain : Nat) : {level : Nat} → Tree Leaf Table fan level → Nat → Option (Found Leaf)
  | _, hole, _ => none
  | level, leaf found, point => some ⟨level, found, point⟩
  | _, @table _ _ _ level _ entries, point =>
      if inside : point / span grain fan level < fan then
        (entries ⟨point / span grain fan level, inside⟩).find grain (point % span grain fan level)
      else none

/-- A leaf of the tree, by the first of its points. -/
inductive Placed (grain : Nat) {found : Nat} (leaf : Leaf found) :
    {level : Nat} → Tree Leaf Table fan level → Nat → Prop
  | here : Placed grain leaf (.leaf leaf) 0
  | under {level start : Nat} {table : Table level} {entries : Fin fan → Tree Leaf Table fan level}
      (index : Fin fan) : Placed grain leaf (entries index) start →
      Placed grain leaf (.table table entries) (index * span grain fan level + start)

theorem Placed.fits {found start : Nat} {leaf : Leaf found} {tree : Tree Leaf Table fan level}
    (placed : Placed grain leaf tree start) :
    start + span grain fan found ≤ span grain fan level := by
  induction placed with
  | here => exact Nat.le_of_eq (Nat.zero_add _)
  | @under level start table entries index placed ih =>
      have last : (index + 1) * span grain fan level ≤ fan * span grain fan level :=
        Nat.mul_le_mul_right _ index.isLt
      rw [Nat.add_one_mul] at last
      rw [span_succ]
      omega

theorem Placed.find {found start : Nat} {leaf : Leaf found} {tree : Tree Leaf Table fan level}
    (placed : Placed grain leaf tree start) {offset : Nat} (inside : offset < span grain fan found) :
    tree.find grain (start + offset) = some ⟨found, leaf, offset⟩ := by
  induction placed with
  | here => rw [Nat.zero_add, Tree.find]
  | @under level start table entries index placed ih =>
      have fits := placed.fits
      have below : start + offset < span grain fan level := by omega
      have digit : (index * span grain fan level + start + offset) / span grain fan level = index := by
        rw [Nat.add_assoc, Nat.mul_comm, Nat.mul_add_div (by omega), Nat.div_eq_of_lt below,
          Nat.add_zero]
      have rest : (index * span grain fan level + start + offset) % span grain fan level =
          start + offset := by
        rw [Nat.add_assoc, Nat.mul_comm, Nat.mul_add_mod, Nat.mod_eq_of_lt below]
      have bounded : (index * span grain fan level + start + offset) / span grain fan level < fan :=
        digit.symm ▸ index.isLt
      have same : (⟨_, bounded⟩ : Fin fan) = index := Fin.ext digit
      rw [Tree.find, dif_pos bounded, rest, same]
      exact ih

theorem placed_of_find {tree : Tree Leaf Table fan level} {point : Nat} {found : Found Leaf}
    (inside : point < span grain fan level) (searched : tree.find grain point = some found) :
    ∃ start, Placed grain found.leaf tree start ∧ found.offset < span grain fan found.level ∧
      point = start + found.offset := by
  induction tree generalizing point with
  | hole => simp [find] at searched
  | leaf leaf =>
      rw [find, Option.some.injEq] at searched
      obtain rfl := searched
      exact ⟨0, .here, inside, (Nat.zero_add _).symm⟩
  | @table level table entries ih =>
      have digit := digit_lt inside
      have positive : 0 < span grain fan level := by
        rw [span_succ] at inside
        exact Nat.pos_of_mul_pos_left (Nat.lt_of_le_of_lt (Nat.zero_le point) inside)
      rw [find, dif_pos digit] at searched
      obtain ⟨start, placed, within_leaf, split⟩ := ih _ (Nat.mod_lt point positive) searched
      refine ⟨_, .under ⟨_, digit⟩ placed, within_leaf, ?_⟩
      have whole := Nat.div_add_mod point (span grain fan level)
      rw [Nat.mul_comm] at whole
      dsimp only
      omega

end Tree

end RadixTree
