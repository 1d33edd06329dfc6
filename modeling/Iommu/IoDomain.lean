import Iommu.Library.BitMasks
import Iommu.Vtd.Info

/-!
The packing of a domain number and a generation of the host into one word, by the mask of the bits
that belong to the number.
-/

namespace Iommu

open BitMasks

namespace IoDomain

variable {mask : UInt32}

def idBits (mask : UInt32) : Nat := countOnes mask

def generationMask (mask : UInt32) : UInt32 :=
  if 32 ≤ idBits mask then 0 else 0xffffffff >>> UInt32.ofNat (idBits mask)

def fromPartsTrusted (mask id generation : UInt32) : IoDomain mask :=
  let genBits :=
    if 32 ≤ idBits mask then 0
    else (generation &&& generationMask mask) <<< UInt32.ofNat (idBits mask)
  ⟨id &&& mask ||| genBits⟩

def new (mask id generation : UInt32) : Option (IoDomain mask) :=
  if id &&& ~~~mask = 0 then some (fromPartsTrusted mask id generation) else none

def generation (domain : IoDomain mask) : UInt32 :=
  if 32 ≤ idBits mask then 0 else domain.bits >>> UInt32.ofNat (idBits mask)

section LowMask

variable {width : Nat} {id : UInt32}

theorem idBits_lowMask (narrow : width ≤ 32) : idBits (lowMask width) = width :=
  countOnes_lowMask narrow

theorem amount_toNat (narrow : width ≤ 32) : (UInt32.ofNat width).toNat = width := by
  have small : width < 2 ^ 32 := by omega
  exact UInt32.toNat_ofNat_of_lt' small

theorem generationMask_lowMask (narrow : width < 32) :
    (generationMask (lowMask width)).toNat = 2 ^ (32 - width) - 1 := by
  have ones : (0xffffffff : UInt32).toNat = 2 ^ 32 - 1 := rfl
  rw [generationMask, idBits_lowMask (Nat.le_of_lt narrow), if_neg (Nat.not_le.mpr narrow),
    UInt32.toNat_shiftRight, amount_toNat (Nat.le_of_lt narrow), Nat.mod_eq_of_lt narrow, ones]
  apply Nat.eq_of_testBit_eq
  intro bit
  rw [Nat.testBit_shiftRight, Nat.testBit_two_pow_sub_one, Nat.testBit_two_pow_sub_one]
  apply decide_eq_decide.mpr
  omega

theorem and_lowMask_of_le (narrow : width ≤ 32) (inside : id ≤ lowMask width) :
    (id &&& lowMask width).toNat = id.toNat := by
  have below := UInt32.le_iff_toNat_le.mp inside
  have positive := Nat.two_pow_pos width
  rw [lowMask_toNat narrow] at below
  rw [and_lowMask narrow, Nat.mod_eq_of_lt (by omega)]

theorem fromPartsTrusted_bits (narrow : width ≤ 32) (inside : id ≤ lowMask width)
    (generation : UInt32) :
    (fromPartsTrusted (lowMask width) id generation).bits.toNat =
      2 ^ width * (generation.toNat % 2 ^ (32 - width)) + id.toNat := by
  have below : id.toNat < 2 ^ width := by
    have bounded := UInt32.le_iff_toNat_le.mp inside
    have positive := Nat.two_pow_pos width
    rw [lowMask_toNat narrow] at bounded
    omega
  rw [fromPartsTrusted, idBits_lowMask narrow]
  dsimp only
  rw [UInt32.toNat_or, and_lowMask_of_le narrow inside]
  by_cases whole : 32 ≤ width
  · obtain rfl := Nat.le_antisymm narrow whole
    rw [if_pos (Nat.le_refl 32), Nat.sub_self, Nat.pow_zero, Nat.mod_one, Nat.mul_zero, Nat.zero_add]
    exact Nat.or_zero _
  · have room : 2 ^ width * (generation.toNat % 2 ^ (32 - width)) < 2 ^ 32 := by
      have cut : generation.toNat % 2 ^ (32 - width) < 2 ^ (32 - width) :=
        Nat.mod_lt _ (Nat.two_pow_pos _)
      calc 2 ^ width * (generation.toNat % 2 ^ (32 - width))
          < 2 ^ width * 2 ^ (32 - width) := Nat.mul_lt_mul_of_pos_left cut (Nat.two_pow_pos width)
        _ = 2 ^ 32 := by rw [← Nat.pow_add, Nat.add_sub_cancel' narrow]
    rw [if_neg whole, UInt32.toNat_shiftLeft, UInt32.toNat_and,
      generationMask_lowMask (Nat.lt_of_not_le whole), Nat.and_two_pow_sub_one_eq_mod, amount_toNat narrow,
      Nat.mod_eq_of_lt (Nat.lt_of_not_le whole), Nat.shiftLeft_eq, Nat.mul_comm _ (2 ^ width),
      Nat.mod_eq_of_lt room, Nat.or_comm, ← Nat.two_pow_add_eq_or_of_lt below]

theorem new_isSome (narrow : width ≤ 32) (id generation : UInt32) :
    (new (lowMask width) id generation).isSome = true ↔ id ≤ lowMask width := by
  rw [new, ← and_not_lowMask narrow]
  split
  · next inside => exact iff_of_true rfl inside
  · next outside => exact iff_of_false Bool.false_ne_true outside

theorem new_eq_some (narrow : width ≤ 32) {generation : UInt32} {domain : IoDomain (lowMask width)}
    (accepted : new (lowMask width) id generation = some domain) :
    id.toNat < 2 ^ width ∧
      domain.bits.toNat = 2 ^ width * (generation.toNat % 2 ^ (32 - width)) + id.toNat := by
  have inside := (new_isSome narrow id generation).mp (by rw [accepted]; rfl)
  have bounded := UInt32.le_iff_toNat_le.mp inside
  have positive := Nat.two_pow_pos width
  rw [lowMask_toNat narrow] at bounded
  rw [new, if_pos ((and_not_lowMask narrow id).mpr inside)] at accepted
  obtain rfl := Option.some.inj accepted
  exact ⟨by omega, fromPartsTrusted_bits narrow inside generation⟩

theorem id_toNat (narrow : width ≤ 32) (domain : IoDomain (lowMask width)) :
    domain.id.toNat = domain.bits.toNat % 2 ^ width := by
  rw [IoDomain.id, and_lowMask narrow]

theorem generation_toNat (narrow : width ≤ 32) (domain : IoDomain (lowMask width)) :
    domain.generation.toNat = domain.bits.toNat / 2 ^ width := by
  rw [generation, idBits_lowMask narrow]
  by_cases whole : 32 ≤ width
  · obtain rfl := Nat.le_antisymm narrow whole
    rw [if_pos (Nat.le_refl 32), Nat.div_eq_of_lt domain.bits.toNat_lt]
    rfl
  · rw [if_neg whole, UInt32.toNat_shiftRight, amount_toNat narrow, Nat.mod_eq_of_lt (Nat.lt_of_not_le whole),
      Nat.shiftRight_eq_div_pow]

end LowMask

end IoDomain

/-- A number is accepted when it is in the mask. An accepted number is read back, the generation up to the
bits that there is room for, and the word tells two pairs apart exactly when these differ. -/
theorem io_domain_separates (width : Nat) (narrow : width ≤ 32) (id generation : UInt32) :
    ((IoDomain.new (lowMask width) id generation).isSome = true ↔ id ≤ lowMask width) ∧
    ∀ domain, IoDomain.new (lowMask width) id generation = some domain →
      domain.id = id ∧ domain.generation.toNat = generation.toNat % 2 ^ (32 - width) ∧
      ∀ otherId otherGeneration other,
        IoDomain.new (lowMask width) otherId otherGeneration = some other →
        (domain.bits = other.bits ↔
          id = otherId ∧
            generation.toNat % 2 ^ (32 - width) = otherGeneration.toNat % 2 ^ (32 - width)) := by
  refine ⟨IoDomain.new_isSome narrow id generation, ?_⟩
  intro domain accepted
  obtain ⟨below, packed⟩ := IoDomain.new_eq_some narrow accepted
  have lowBits : domain.bits.toNat % 2 ^ width = id.toNat := by
    rw [packed, Nat.mul_add_mod, Nat.mod_eq_of_lt below]
  have highBits : domain.bits.toNat / 2 ^ width = generation.toNat % 2 ^ (32 - width) := by
    rw [packed, Nat.mul_add_div (Nat.two_pow_pos width), Nat.div_eq_of_lt below, Nat.add_zero]
  refine ⟨?_, ?_, ?_⟩
  · rw [← UInt32.toNat_inj, IoDomain.id_toNat narrow, lowBits]
  · rw [IoDomain.generation_toNat narrow, highBits]
  · intro otherId otherGeneration other otherAccepted
    obtain ⟨otherBelow, otherPacked⟩ := IoDomain.new_eq_some narrow otherAccepted
    rw [← UInt32.toNat_inj, ← UInt32.toNat_inj]
    constructor
    · intro same
      rw [← lowBits, ← highBits, same, otherPacked, Nat.mul_add_mod, Nat.mod_eq_of_lt otherBelow,
        Nat.mul_add_div (Nat.two_pow_pos width), Nat.div_eq_of_lt otherBelow, Nat.add_zero]
      exact ⟨rfl, rfl⟩
    · rintro ⟨sameId, sameGeneration⟩
      rw [packed, otherPacked, sameId, sameGeneration]

theorem io_domain_separates_sample :
    ∃ domain, IoDomain.new (lowMask 16) 0x1234 0x1abcd = some domain ∧
      domain.id = 0x1234 ∧ domain.generation.toNat = 0xabcd := by
  obtain ⟨accepts, reads⟩ := io_domain_separates 16 (by decide) 0x1234 0x1abcd
  obtain ⟨domain, accepted⟩ := Option.isSome_iff_exists.mp (accepts.mpr (by decide))
  obtain ⟨number, generation, _⟩ := reads domain accepted
  exact ⟨domain, accepted, number, generation⟩

end Iommu
