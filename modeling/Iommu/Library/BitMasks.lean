import Mathlib.Algebra.Group.Nat.Defs
import Mathlib.Tactic.Common

/-!
Masks of machine words: the lowest bits of a word and how many bits are set, and the fields of a
word that is put together from parts under masks that lie apart.
-/

namespace BitMasks

def countOnes (word : UInt32) : Nat := (List.range 32).countP fun bit => word.toNat.testBit bit

def lowMask (width : Nat) : UInt32 := .ofNat (2 ^ width - 1)

theorem countP_lt_range (width places : Nat) :
    (List.range places).countP (fun place => decide (place < width)) = min width places := by
  induction places with
  | zero => simp
  | succ places ih =>
      rw [List.range_succ, List.countP_append, ih, List.countP_singleton]
      by_cases inside : places < width
      · simp [inside]
        omega
      · simp [inside]
        omega

theorem and_not_eq_zero_iff {word mask : UInt32} : word &&& ~~~mask = 0 ↔ word &&& mask = word := by
  have parted : word &&& mask ||| word &&& ~~~mask = word := by
    apply UInt32.toBitVec_inj.mp
    apply BitVec.eq_of_getLsbD_eq
    intro bit below
    simp only [UInt32.toBitVec_or, UInt32.toBitVec_and, UInt32.toBitVec_not, BitVec.getLsbD_or,
      BitVec.getLsbD_and, BitVec.getLsbD_not, below, decide_true, Bool.true_and]
    cases mask.toBitVec.getLsbD bit <;> simp
  constructor
  · intro clear
    rwa [clear, UInt32.or_zero] at parted
  · intro inside
    rw [← inside, UInt32.and_assoc, UInt32.and_not_self, UInt32.and_zero]

section LowMask

variable {width : Nat}

theorem lowMask_toNat (narrow : width ≤ 32) : (lowMask width).toNat = 2 ^ width - 1 := by
  have bounded : 2 ^ width ≤ 2 ^ 32 := Nat.pow_le_pow_right Nat.two_pos narrow
  have positive := Nat.two_pow_pos width
  have small : 2 ^ width - 1 < 2 ^ 32 := by omega
  exact UInt32.toNat_ofNat_of_lt' small

theorem countOnes_lowMask (narrow : width ≤ 32) : countOnes (lowMask width) = width := by
  rw [countOnes, lowMask_toNat narrow]
  simp only [Nat.testBit_two_pow_sub_one]
  rw [countP_lt_range, Nat.min_eq_left narrow]

theorem and_lowMask (narrow : width ≤ 32) (word : UInt32) :
    (word &&& lowMask width).toNat = word.toNat % 2 ^ width := by
  rw [UInt32.toNat_and, lowMask_toNat narrow, Nat.and_two_pow_sub_one_eq_mod]

theorem and_not_lowMask (narrow : width ≤ 32) (word : UInt32) :
    word &&& ~~~lowMask width = 0 ↔ word ≤ lowMask width := by
  have positive := Nat.two_pow_pos width
  rw [and_not_eq_zero_iff, ← UInt32.toNat_inj, and_lowMask narrow, UInt32.le_iff_toNat_le,
    lowMask_toNat narrow, Nat.mod_eq_iff_lt (Nat.ne_of_gt positive)]
  omega

end LowMask

def flag (condition : Prop) [Decidable condition] (bits : UInt64) : UInt64 :=
  if condition then bits else 0

section Apart

variable {first second mask field : UInt64}

theorem or_and (first second mask : UInt64) :
    (first ||| second) &&& mask = first &&& mask ||| second &&& mask :=
  UInt64.toBitVec_inj.mp BitVec.and_or_distrib_right

theorem masked_or_and (apart : mask &&& field = 0) :
    (first &&& mask ||| second) &&& field = second &&& field := by
  rw [or_and, UInt64.and_assoc, apart, UInt64.and_zero, UInt64.zero_or]

theorem masked_or_and_mask (apart : second &&& mask = 0) :
    (first &&& mask ||| second) &&& mask = first &&& mask := by
  rw [or_and, UInt64.and_assoc, UInt64.and_self, apart, UInt64.or_zero]

variable {condition : Prop} [Decidable condition] {bits : UInt64}

theorem flag_and (bits field : UInt64) :
    flag condition bits &&& field = flag condition (bits &&& field) := by
  by_cases holds : condition
  · rw [flag, flag, if_pos holds, if_pos holds]
  · rw [flag, flag, if_neg holds, if_neg holds, UInt64.zero_and]

@[simp] theorem flag_zero : flag condition 0 = 0 := ite_self 0

theorem flag_ne_zero_iff (set : bits ≠ 0) : flag condition bits ≠ 0 ↔ condition := by
  by_cases holds : condition
  · rw [flag, if_pos holds]
    exact iff_of_true set holds
  · rw [flag, if_neg holds]
    exact iff_of_false (fun absurdity => absurdity rfl) holds

end Apart

end BitMasks
