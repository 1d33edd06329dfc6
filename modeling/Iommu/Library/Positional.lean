import Mathlib.Algebra.BigOperators.Group.Finset.Basic
import Mathlib.Algebra.Order.BigOperators.Group.Finset
import Mathlib.Tactic.Common

/-!
Numbers cut into fields of bits: each field begins where the one below it ends. The fields of a
number give it back, and any choice of fields is the fields of one number.
-/

namespace Positional

/-- Fields one above the other, of which so many count. -/
structure Fields where
  place : Nat → Nat
  width : Nat → Nat
  count : Nat
  joined : ∀ index < count, place (index + 1) = place index + width index

namespace Fields

variable (fields : Fields)

def field (number index : Nat) : Nat := number / 2 ^ fields.place index % 2 ^ fields.width index

def assemble (rest : Nat) (chosen : Nat → Nat) (count : Nat) : Nat :=
  rest + ∑ index ∈ Finset.range count, chosen index * 2 ^ fields.place index

variable {fields}

theorem assemble_succ (rest : Nat) (chosen : Nat → Nat) (count : Nat) :
    fields.assemble rest chosen (count + 1) =
      fields.assemble rest chosen count + chosen count * 2 ^ fields.place count := by
  rw [assemble, assemble, Finset.sum_range_succ, Nat.add_assoc]

theorem assemble_congr {rest count : Nat} {first second : Nat → Nat}
    (same : ∀ index < count, first index = second index) :
    fields.assemble rest first count = fields.assemble rest second count := by
  rw [assemble, assemble]
  congr 1
  apply Finset.sum_congr rfl
  intro index member
  rw [same index (Finset.mem_range.mp member)]

theorem assemble_fields (number : Nat) {count : Nat} (counted : count ≤ fields.count) :
    fields.assemble (number % 2 ^ fields.place 0) (fields.field number) count =
      number % 2 ^ fields.place count := by
  induction count with
  | zero => rw [assemble, Finset.range_zero, Finset.sum_empty, Nat.add_zero]
  | succ count ih =>
      rw [assemble_succ, ih (Nat.le_of_succ_le counted), fields.joined count counted, Nat.pow_add,
        Nat.mod_mul, field, Nat.mul_comm (2 ^ fields.place count)]

theorem assemble_lt {rest : Nat} {chosen : Nat → Nat} {count : Nat}
    (counted : count ≤ fields.count) (small : rest < 2 ^ fields.place 0)
    (fits : ∀ index < count, chosen index < 2 ^ fields.width index) :
    fields.assemble rest chosen count < 2 ^ fields.place count := by
  induction count with
  | zero => rwa [assemble, Finset.range_zero, Finset.sum_empty, Nat.add_zero]
  | succ count ih =>
      have below := ih (Nat.le_of_succ_le counted) fun index early => fits index (by omega)
      have top : (chosen count + 1) * 2 ^ fields.place count ≤
          2 ^ fields.width count * 2 ^ fields.place count :=
        Nat.mul_le_mul_right _ (fits count (Nat.lt_succ_self count))
      rw [Nat.add_one_mul] at top
      rw [assemble_succ, fields.joined count counted, Nat.pow_add, Nat.mul_comm (2 ^ _) (2 ^ _)]
      omega

theorem place_le {low high : Nat} (ordered : low ≤ high) (counted : high ≤ fields.count) :
    fields.place low ≤ fields.place high := by
  induction high, ordered using Nat.le_induction with
  | base => exact Nat.le_refl _
  | succ high ordered ih =>
      rw [fields.joined high counted]
      exact Nat.le_trans (ih (Nat.le_of_succ_le counted)) (Nat.le_add_right _ _)

theorem field_add_mul {number multiple index high : Nat} (below : index < high)
    (counted : high ≤ fields.count) :
    fields.field (number + multiple * 2 ^ fields.place high) index = fields.field number index := by
  obtain ⟨more, place⟩ := Nat.exists_eq_add_of_le (place_le below counted)
  rw [fields.joined index (Nat.lt_of_lt_of_le below counted)] at place
  have split : multiple * 2 ^ fields.place high =
      2 ^ fields.place index * (multiple * 2 ^ more * 2 ^ fields.width index) := by
    rw [place, Nat.pow_add, Nat.pow_add]
    ac_rfl
  rw [field, field, split, Nat.add_mul_div_left _ _ (Nat.two_pow_pos _), Nat.add_mul_mod_self_right]

theorem field_assemble {rest : Nat} {chosen : Nat → Nat} {count index : Nat}
    (counted : count ≤ fields.count) (small : rest < 2 ^ fields.place 0)
    (fits : ∀ index < count, chosen index < 2 ^ fields.width index) (below : index < count) :
    fields.field (fields.assemble rest chosen count) index = chosen index := by
  induction count with
  | zero => omega
  | succ count ih =>
      rw [assemble_succ]
      have early : ∀ lower < count, chosen lower < 2 ^ fields.width lower :=
        fun lower under => fits lower (by omega)
      by_cases last : index = count
      · subst last
        have under := assemble_lt (Nat.le_of_succ_le counted) small early
        rw [field, Nat.add_mul_div_right _ _ (Nat.two_pow_pos _), Nat.div_eq_of_lt under,
          Nat.zero_add, Nat.mod_eq_of_lt (fits index below)]
      · rw [field_add_mul (by omega) (Nat.le_of_succ_le counted)]
        exact ih (Nat.le_of_succ_le counted) early (by omega)

theorem rest_assemble {rest : Nat} {chosen : Nat → Nat} {count : Nat}
    (counted : count ≤ fields.count) (small : rest < 2 ^ fields.place 0) :
    fields.assemble rest chosen count % 2 ^ fields.place 0 = rest := by
  induction count with
  | zero =>
      rw [assemble, Finset.range_zero, Finset.sum_empty, Nat.add_zero, Nat.mod_eq_of_lt small]
  | succ count ih =>
      obtain ⟨more, place⟩ :=
        Nat.exists_eq_add_of_le (place_le (Nat.zero_le count) (Nat.le_of_succ_le counted))
      rw [assemble_succ, place, Nat.pow_add, Nat.mul_left_comm, Nat.add_mul_mod_self_left]
      exact ih (Nat.le_of_succ_le counted)

end Fields

end Positional
