import Iommu.Addr

/-!
The checked addition of the integers that represent addresses, which first casts its operand to
their type, and the checked multiplication of addresses, which converts back what it gives.
-/

namespace Iommu

open MachineWord

namespace Unsigned

variable {T : Unsigned}

def checkedAdd (T : Unsigned) (value : BitVec T.bits) (offset : Usize) : Option (BitVec T.bits) :=
  let operand := offset.setWidth T.bits
  if value.toNat + operand.toNat ≤ T.max then some (value + operand) else none

theorem le_max_iff {value : Nat} : value ≤ T.max ↔ value < 2 ^ T.bits := by
  rw [← Nat.not_lt, max_lt_iff, Nat.not_le]

theorem checkedAdd_toNat (value : BitVec T.bits) (offset : Usize) :
    (T.checkedAdd value offset).map BitVec.toNat =
      if value.toNat + offset.toNat % 2 ^ T.bits ≤ T.max then
        some (value.toNat + offset.toNat % 2 ^ T.bits)
      else none := by
  rw [checkedAdd, BitVec.toNat_setWidth]
  split
  · next fits =>
    rw [Option.map_some, BitVec.toNat_add, BitVec.toNat_setWidth,
      Nat.mod_eq_of_lt (le_max_iff.mp fits)]
  · rfl

theorem checkedAdd_exact_iff (value : BitVec T.bits) (offset : Usize) :
    (T.checkedAdd value offset).map BitVec.toNat =
        (if value.toNat + offset.toNat ≤ T.max then some (value.toNat + offset.toNat) else none) ↔
      offset.toNat ≤ T.max ∨ T.max < value.toNat + offset.toNat % 2 ^ T.bits := by
  rw [checkedAdd_toNat]
  by_cases fits : offset.toNat ≤ T.max
  · rw [Nat.mod_eq_of_lt (le_max_iff.mp fits)]
    exact iff_of_true rfl (Or.inl fits)
  · have large : ¬value.toNat + offset.toNat ≤ T.max := fun small => fits (by omega)
    rw [if_neg large]
    by_cases cast : value.toNat + offset.toNat % 2 ^ T.bits ≤ T.max
    · rw [if_pos cast]
      refine iff_of_false (fun same => by cases same) ?_
      rintro (small | overflows)
      · exact fits small
      · exact absurd cast (Nat.not_le.mpr overflows)
    · rw [if_neg cast]
      exact iff_of_true rfl (Or.inr (Nat.lt_of_not_le cast))

end Unsigned

namespace IoAddr

variable {T : Unsigned} {Space : Type} {addr : IoAddr T Space} {factor : Usize}

def checkedMul (addr : IoAddr T Space) (factor : Usize) : Parse Empty (Option (IoAddr T Space)) :=
  if addr.asUsize.toNat * factor.toNat < limit then some <$> ofUsize (addr.asUsize * factor)
  else .ok none

theorem mul_toNat (small : addr.toNat * factor.toNat < limit) :
    (addr.asUsize * factor).toNat = addr.toNat * factor.toNat := by
  rw [BitVec.toNat_mul, asUsize_toNat]
  exact Nat.mod_eq_of_lt small

theorem checkedMul_exact_iff (addr : IoAddr T Space) (factor : Usize) :
    Answers IoAddr.toNat (addr.checkedMul factor)
        (if addr.toNat * factor.toNat ≤ T.max then some (addr.toNat * factor.toNat) else none) ↔
      ¬T.Gap (addr.toNat * factor.toNat) := by
  rw [checkedMul, asUsize_toNat]
  by_cases small : addr.toNat * factor.toNat < limit
  · rw [if_pos small, ← mul_toNat small]
    by_cases fits : (addr.asUsize * factor).toNat ≤ T.max
    · have converts : ∃ product : IoAddr T Space, ofUsize (addr.asUsize * factor) = .ok product ∧
          product.toNat = (addr.asUsize * factor).toNat := ofUsize_of_le fits
      obtain ⟨product, converted, same⟩ := converts
      refine iff_of_true ⟨some product, ?_, ?_⟩ (Unsigned.not_gap_of_fits fits)
      · rw [converted]
        rfl
      · rw [if_pos fits, ← same]
        rfl
    · have large := Nat.lt_of_not_le fits
      rw [← mul_toNat small] at small
      refine iff_of_false (not_answers_panicked ?_) (not_not_intro ⟨large, small⟩)
      rw [ofUsize_of_lt large]
      rfl
  · have beyond := Nat.le_of_not_lt small
    have large : ¬addr.toNat * factor.toNat ≤ T.max :=
      Nat.not_le.mpr (Nat.lt_of_lt_of_le T.max_lt_limit beyond)
    rw [if_neg small, if_neg large]
    exact iff_of_true ⟨none, rfl, rfl⟩ (Unsigned.not_gap_of_beyond beyond)

end IoAddr

/-- The checked addition is exact when its operand fits the type or overflows it in its low bits too, and
the checked multiplication when no machine word that the type does not represent is the product. -/
theorem checked_arithmetic_exact_iff (T : Unsigned) (Space : Type) (value : BitVec T.bits)
    (addr : IoAddr T Space) (operand : Usize) :
    ((T.checkedAdd value operand).map BitVec.toNat =
        (if value.toNat + operand.toNat ≤ T.max then some (value.toNat + operand.toNat) else none) ↔
      operand.toNat ≤ T.max ∨ T.max < value.toNat + operand.toNat % 2 ^ T.bits) ∧
    (Answers IoAddr.toNat (addr.checkedMul operand)
        (if addr.toNat * operand.toNat ≤ T.max then some (addr.toNat * operand.toNat) else none) ↔
      ¬T.Gap (addr.toNat * operand.toNat)) :=
  ⟨Unsigned.checkedAdd_exact_iff value operand, IoAddr.checkedMul_exact_iff addr operand⟩

/-- The cast drops the high half of an operand, and the product of two representable numbers need not be
representable. -/
theorem checked_arithmetic_inexact :
    (¬∀ (T : Unsigned) (value : BitVec T.bits) (operand : Usize),
      (T.checkedAdd value operand).map BitVec.toNat =
        if value.toNat + operand.toNat ≤ T.max then some (value.toNat + operand.toNat) else none) ∧
    ¬∀ (T : Unsigned) (addr : MmioAddr T) (operand : Usize),
      Answers IoAddr.toNat (addr.checkedMul operand)
        (if addr.toNat * operand.toNat ≤ T.max then some (addr.toNat * operand.toNat) else none) := by
  constructor
  · intro exact_sum
    have wrong := exact_sum .u32 5 0x100000003
    exact absurd wrong (by decide)
  · intro exact_product
    refine not_answers_panicked ?_ (exact_product .u32 ⟨0x10000⟩ 0x10000)
    rfl

end Iommu
