import Mathlib.Algebra.Group.Nat.Defs
import Mathlib.Tactic.Common

/-!
Arithmetic of 64-bit unsigned machine words carried as naturals, with the
overflow behaviour of each operation explicit.
-/

namespace MachineWord

def limit : Nat := 2 ^ 64

def checkedAdd (left right : Nat) : Option Nat :=
  if left + right < limit then some (left + right) else none

def checkedMul (left right : Nat) : Option Nat :=
  if left * right < limit then some (left * right) else none

def wrappingAdd (left right : Nat) : Nat := (left + right) % limit

def wrappingSub (left right : Nat) : Nat := (left + limit - right) % limit

def saturatingAdd (left right : Nat) : Nat := min (left + right) (limit - 1)

/-- Left shift that is refused only when the shift amount is out of range; high bits are lost. -/
def checkedShl (value amount : Nat) : Option Nat :=
  if amount < 64 then some (value * 2 ^ amount % limit) else none

def checkedAdd32 (left right : UInt32) : Option UInt32 :=
  if left.toNat + right.toNat < 2 ^ 32 then some (left + right) else none

def checkedSub32 (left right : UInt32) : Option UInt32 :=
  if right ≤ left then some (left - right) else none

def saturatingAdd32 (left right : UInt32) : UInt32 :=
  if left.toNat + right.toNat < 2 ^ 32 then left + right else 0xffffffff

theorem checkedAdd_of_lt {left right : Nat} (small : left + right < limit) :
    checkedAdd left right = some (left + right) := if_pos small

theorem checkedMul_of_lt {left right : Nat} (small : left * right < limit) :
    checkedMul left right = some (left * right) := if_pos small

theorem checkedAdd_eq_some {left right sum : Nat} :
    checkedAdd left right = some sum ↔ left + right < limit ∧ left + right = sum := by
  simp [checkedAdd]

theorem checkedMul_eq_some {left right product : Nat} :
    checkedMul left right = some product ↔ left * right < limit ∧ left * right = product := by
  simp [checkedMul]

theorem wrappingAdd_of_lt {left right : Nat} (small : left + right < limit) :
    wrappingAdd left right = left + right := Nat.mod_eq_of_lt small

theorem wrappingSub_of_le {left right : Nat} (ordered : right ≤ left) (small : left < limit) :
    wrappingSub left right = left - right := by
  have shifted : left + limit - right = left - right + limit := by omega
  rw [wrappingSub, shifted, Nat.add_mod_right, Nat.mod_eq_of_lt (by omega)]

theorem checkedAdd32_eq_some {left right sum : UInt32} :
    checkedAdd32 left right = some sum ↔ left.toNat + right.toNat = sum.toNat := by
  rw [checkedAdd32]
  split
  · next fits =>
    have added : (left + right).toNat = left.toNat + right.toNat := by
      rw [UInt32.toNat_add]
      exact Nat.mod_eq_of_lt fits
    rw [Option.some_inj, ← UInt32.toNat_inj, added]
  · next overflows =>
    have bounded := sum.toNat_lt
    simp only [reduceCtorEq, false_iff]
    omega

theorem checkedAdd32_eq_none {left right : UInt32} :
    checkedAdd32 left right = none ↔ 2 ^ 32 ≤ left.toNat + right.toNat := by
  simp [checkedAdd32]

theorem saturatingAdd_of_lt {left right : Nat} (small : left + right < limit) :
    saturatingAdd left right = left + right := by
  rw [saturatingAdd]
  omega

theorem and_pred_of_isPowerOfTwo {value size : Nat} (power : size.isPowerOfTwo) :
    value &&& (size - 1) = value % size := by
  obtain ⟨exponent, rfl⟩ := power
  exact Nat.and_two_pow_sub_one_eq_mod value exponent

/-- The index of the lowest set bit, 64 when there is none. -/
def trailingZeros (value : Nat) : Nat := ((List.range 64).find? fun bit => value.testBit bit).getD 64

/-- The number of clear bits above the highest set one, 64 when there is none. -/
def leadingZeros (value : Nat) : Nat :=
  ((List.range 64).find? fun clear => value.testBit (63 - clear)).getD 64

theorem mod_two_pow_of_clear {value width : Nat}
    (clear : ∀ bit < width, value.testBit bit = false) : value % 2 ^ width = 0 := by
  apply Nat.eq_of_testBit_eq
  intro bit
  rw [Nat.testBit_mod_two_pow, Nat.zero_testBit]
  by_cases below : bit < width
  · simp [clear bit below]
  · simp [below]

theorem trailingZeros_spec {value : Nat} (positive : 0 < value) (small : value < limit) :
    trailingZeros value < 64 ∧ 2 ^ trailingZeros value ∣ value := by
  rw [trailingZeros]
  cases found : (List.range 64).find? fun bit => value.testBit bit with
  | none =>
      have empty : value % 2 ^ 64 = 0 := by
        apply mod_two_pow_of_clear
        intro bit below
        have clear := List.find?_eq_none.mp found bit (List.mem_range.mpr below)
        simpa using clear
      rw [limit] at small
      omega
  | some lowest =>
      obtain ⟨_, inside, before⟩ := List.find?_range_eq_some.mp found
      refine ⟨List.mem_range.mp inside, Nat.dvd_of_mod_eq_zero ?_⟩
      apply mod_two_pow_of_clear
      intro bit below
      simpa using before bit below

theorem leadingZeros_spec {value : Nat} (positive : 0 < value) (small : value < limit) :
    leadingZeros value < 64 ∧ 2 ^ (63 - leadingZeros value) ≤ value := by
  rw [leadingZeros]
  cases found : (List.range 64).find? fun clear => value.testBit (63 - clear) with
  | none =>
      have empty : value % 2 ^ 64 = 0 := by
        apply mod_two_pow_of_clear
        intro bit below
        have clear := List.find?_eq_none.mp found (63 - bit) (List.mem_range.mpr (by omega))
        rw [Nat.sub_sub_self (by omega)] at clear
        simpa using clear
      rw [limit] at small
      omega
  | some clear =>
      obtain ⟨set, inside, _⟩ := List.find?_range_eq_some.mp found
      exact ⟨List.mem_range.mp inside, Nat.ge_two_pow_of_testBit set⟩

theorem le_trailingZeros {value width : Nat} (positive : 0 < value) (small : value < limit)
    (divides : 2 ^ width ∣ value) : width ≤ trailingZeros value := by
  obtain ⟨below, _⟩ := trailingZeros_spec positive small
  by_contra above
  have clear : value.testBit (trailingZeros value) = false := by
    have low := congrArg (·.testBit (trailingZeros value)) (Nat.mod_eq_zero_of_dvd divides)
    simpa [Nat.testBit_mod_two_pow, Nat.lt_of_not_le above] using low
  rw [trailingZeros] at clear below
  cases found : (List.range 64).find? fun bit => value.testBit bit with
  | none => simp [found] at below
  | some lowest =>
      rw [found] at clear
      have set := (List.find?_range_eq_some.mp found).1
      rw [Option.getD_some, set] at clear
      cases clear

theorem trailingZeros_two_pow {exponent : Nat} (narrow : exponent < 64) :
    trailingZeros (2 ^ exponent) = exponent := by
  have positive : 0 < 2 ^ exponent := Nat.two_pow_pos exponent
  have small : 2 ^ exponent < limit := Nat.pow_lt_pow_right (by decide) narrow
  apply Nat.le_antisymm
  · exact Nat.pow_dvd_pow_iff_le_right'.mp (trailingZeros_spec positive small).2
  · exact le_trailingZeros positive small (Nat.dvd_refl _)

theorem le_log_of_two_pow_le {value width : Nat} (small : value < limit) (fits : 2 ^ width ≤ value) :
    width ≤ 63 - leadingZeros value := by
  obtain ⟨bit, above, set⟩ := Nat.exists_ge_and_testBit_of_ge_two_pow fits
  have inside : bit < 64 := by
    by_contra outside
    have far : 2 ^ 64 ≤ 2 ^ bit := Nat.pow_le_pow_right (by decide) (Nat.le_of_not_lt outside)
    have reached := Nat.ge_two_pow_of_testBit set
    rw [limit] at small
    omega
  have clear : leadingZeros value ≤ 63 - bit := by
    rw [leadingZeros]
    by_contra later
    cases found : (List.range 64).find? fun clear => value.testBit (63 - clear) with
    | none =>
        have unset := List.find?_eq_none.mp found (63 - bit) (List.mem_range.mpr (by omega))
        rw [Nat.sub_sub_self (by omega)] at unset
        exact unset set
    | some first =>
        rw [found, Option.getD_some] at later
        have unset := (List.find?_range_eq_some.mp found).2.2 (63 - bit) (by omega)
        rw [Nat.sub_sub_self (by omega), set] at unset
        cases unset
  omega

theorem testBit_fieldMask (low width bit : Nat) :
    ((2 ^ width - 1) <<< low).testBit bit = decide (low ≤ bit ∧ bit < low + width) := by
  rw [Nat.testBit_shiftLeft, Nat.testBit_two_pow_sub_one]
  by_cases above : low ≤ bit
  · simp [above]
    omega
  · simp [above]

theorem and_fieldMask (value low width : Nat) :
    value &&& ((2 ^ width - 1) <<< low) = value / 2 ^ low % 2 ^ width * 2 ^ low := by
  rw [← Nat.shiftLeft_eq]
  apply Nat.eq_of_testBit_eq
  intro bit
  rw [Nat.testBit_and, testBit_fieldMask, Nat.testBit_shiftLeft, Nat.testBit_mod_two_pow,
    Nat.testBit_div_two_pow]
  by_cases above : low ≤ bit
  · have shifted : bit - low < width ↔ bit < low + width := by omega
    simp [above, shifted, Bool.and_comm]
  · simp [above]

section Fields

variable {word field shift : UInt64}

theorem toNat_shifted (room : shift.toNat < 64) (fits : field.toNat * 2 ^ shift.toNat < limit) :
    (field <<< shift).toNat = field.toNat * 2 ^ shift.toNat := by
  rw [UInt64.toNat_shiftLeft, Nat.mod_eq_of_lt room, Nat.shiftLeft_eq]
  exact Nat.mod_eq_of_lt fits

theorem toNat_or_shifted (room : shift.toNat < 64) (fits : field.toNat * 2 ^ shift.toNat < limit)
    (below : word.toNat < 2 ^ shift.toNat) :
    (word ||| field <<< shift).toNat = word.toNat + field.toNat * 2 ^ shift.toNat := by
  rw [UInt64.toNat_or, toNat_shifted room fits, Nat.or_comm, Nat.mul_comm,
    ← Nat.two_pow_add_eq_or_of_lt below, Nat.add_comm]

theorem toNat_fieldAt {mask : UInt64} {width : Nat} (room : shift.toNat < 64)
    (ones : mask.toNat = 2 ^ width - 1) :
    (word >>> shift &&& mask).toNat = word.toNat / 2 ^ shift.toNat % 2 ^ width := by
  rw [UInt64.toNat_and, ones, Nat.and_two_pow_sub_one_eq_mod, UInt64.toNat_shiftRight,
    Nat.mod_eq_of_lt room, Nat.shiftRight_eq_div_pow]

theorem toNat_and_fieldMask (word : UInt64) {mask : UInt64} (low width : Nat)
    (ones : mask.toNat = (2 ^ width - 1) <<< low) :
    (word &&& mask).toNat = word.toNat / 2 ^ low % 2 ^ width * 2 ^ low := by
  rw [UInt64.toNat_and, ones, and_fieldMask]

theorem toNat_masked_or_flags (word : UInt64) {mask flags : UInt64} (low width : Nat)
    (ones : mask.toNat = (2 ^ width - 1) <<< low) (small : flags.toNat < 2 ^ low) :
    (word &&& mask ||| flags).toNat = word.toNat / 2 ^ low % 2 ^ width * 2 ^ low + flags.toNat := by
  rw [UInt64.toNat_or, toNat_and_fieldMask word low width ones, Nat.mul_comm,
    ← Nat.two_pow_add_eq_or_of_lt small]

theorem or_field (first second low width : Nat) :
    (first ||| second) / 2 ^ low % 2 ^ width =
      first / 2 ^ low % 2 ^ width ||| second / 2 ^ low % 2 ^ width := by
  rw [Nat.or_div_two_pow, Nat.or_mod_two_pow]

theorem and_one_ne_zero_iff : (word &&& 1 ≠ 0) ↔ word.toNat % 2 = 1 := by
  have bit : (word &&& 1).toNat = word.toNat % 2 := by
    rw [UInt64.toNat_and]
    exact Nat.and_two_pow_sub_one_eq_mod word.toNat 1
  rw [ne_eq, ← UInt64.toNat_inj, bit]
  simp

end Fields

theorem or_flag_and (word flag : UInt32) : (word ||| flag) &&& flag = flag := by
  apply UInt32.toBitVec_inj.mp
  apply BitVec.eq_of_getLsbD_eq
  intro bit _
  simp only [UInt32.toBitVec_and, UInt32.toBitVec_or, BitVec.getLsbD_and, BitVec.getLsbD_or]
  cases flag.toBitVec.getLsbD bit <;> simp

theorem or_and_apart {word flag mask : UInt32} (apart : flag &&& mask = 0) :
    (word ||| flag) &&& mask = word &&& mask := by
  have distribute : (word ||| flag) &&& mask = (word &&& mask) ||| (flag &&& mask) :=
    UInt32.toBitVec_inj.mp BitVec.and_or_distrib_right
  rw [distribute, apart, UInt32.or_zero]

theorem and_not_and_apart {word flag mask : UInt32} (apart : ~~~flag &&& mask = mask) :
    word &&& ~~~flag &&& mask = word &&& mask := by
  rw [UInt32.and_assoc, apart]

theorem bits_cleared_and {width : Nat} {word mask flag : BitVec width}
    (inside : mask &&& flag = flag) : word &&& ~~~(word &&& mask) &&& flag = 0 := by
  apply BitVec.eq_of_getLsbD_eq
  intro bit below
  rw [← inside]
  simp only [BitVec.getLsbD_and, BitVec.getLsbD_not, below, decide_true, Bool.true_and]
  cases word.getLsbD bit <;> cases mask.getLsbD bit <;> simp

theorem cleared_and {word mask flag : UInt32} (inside : mask &&& flag = flag) :
    word &&& ~~~(word &&& mask) &&& flag = 0 :=
  UInt32.toBitVec_inj.mp (bits_cleared_and (UInt32.toBitVec_inj.mpr inside))

theorem cleared_and64 {word mask flag : UInt64} (inside : mask &&& flag = flag) :
    word &&& ~~~(word &&& mask) &&& flag = 0 :=
  UInt64.toBitVec_inj.mp (bits_cleared_and (UInt64.toBitVec_inj.mpr inside))

end MachineWord
