import Iommu.Paging.AmdVi

/-!
The size that AMD-Vi hardware takes a leaf to have: that of its level, or the one that the marker of
large leaves says to read from the address.
-/

namespace Iommu

namespace AmdViPte

def lowestZero (bits : UInt64) : Option Nat :=
  (List.range 52).find? fun place => 12 ≤ place ∧ bits.toNat.testBit place = false

/-- The rule of the hardware: level zero next means the natural size of the level, level seven next a size
in the address, which has ones below the place that tells it. -/
def hardwarePageSize (level : UInt8) (entry : AmdViPte) : Option Nat :=
  if nextLevel entry.bits = 0 then some (0x1000 * 512 ^ (level.toNat - 1))
  else if nextLevel entry.bits = 7 then (lowestZero entry.bits).map fun place => 2 ^ (place + 1)
  else none

variable {paddr : UInt64} {flags : AmdViFlags} {size : PageSize} {level : UInt8}

theorem lowestZero_eq {bits : UInt64} (clear : bits.toNat.testBit 12 = false) :
    lowestZero bits = some 12 := by
  rw [lowestZero, List.find?_range_eq_some]
  refine ⟨by simp [clear], by simp, ?_⟩
  intro place below
  simp [Nat.not_le.mpr below]

theorem newLeaf_testBit (frame : FrameAddress paddr) (aligned : 2 ^ 13 ∣ paddr.toNat) :
    (newLeaf paddr flags size).bits.toNat.testBit 12 = false := by
  have address : (newLeaf paddr flags size).bits.toNat &&& ADDR_MASK.toNat = paddr.toNat := by
    rw [← UInt64.toNat_and]
    exact congrArg UInt64.toNat (newLeaf_paddr frame)
  have clear : paddr.toNat.testBit 12 = false := by
    obtain ⟨frames, same⟩ := aligned
    rw [same, Nat.testBit_two_pow_mul]
    rfl
  have set : ADDR_MASK.toNat.testBit 12 = true := by decide +kernel
  rw [← address, Nat.testBit_and, set, Bool.and_true] at clear
  exact clear

end AmdViPte

/-- The hardware takes a leaf of 2 MiB or 1 GiB to be one of 8 KiB, whatever its address. -/
theorem large_leaf_size_lost (paddr : UInt64) (flags : AmdViFlags) (level : UInt8) (size : PageSize)
    (supported : PageTableEntry.levelSupportsLeaf AmdViPte level size = true)
    (large : size = .size2M ∨ size = .size1G) (aligned : size.bytes ∣ paddr.toNat)
    (small : paddr.toNat < 2 ^ 52) :
    AmdViPte.hardwarePageSize level (.newLeaf paddr flags size) = some 0x2000 ∧
      AmdViPte.hardwarePageSize level (.newLeaf paddr flags size) ≠ some size.bytes := by
  have frames : 2 ^ 13 ∣ size.bytes := by
    rcases large with rfl | rfl
    · exact ⟨2 ^ 8, rfl⟩
    · exact ⟨2 ^ 17, rfl⟩
  have wide := Nat.dvd_trans frames aligned
  have frame : FrameAddress paddr := ⟨small, Nat.dvd_trans ⟨2, rfl⟩ wide⟩
  have lost : AmdViPte.hardwarePageSize level (.newLeaf paddr flags size) = some 0x2000 := by
    have marked : AmdViPte.nextLevel (AmdViPte.newLeaf paddr flags size).bits = 7 := by
      rw [AmdViPte.newLeaf_nextLevel]
      rcases large with rfl | rfl
      · rfl
      · rfl
    rw [AmdViPte.hardwarePageSize, marked, if_neg (by decide), if_pos rfl,
      AmdViPte.lowestZero_eq (AmdViPte.newLeaf_testBit frame wide)]
    rfl
  rw [lost]
  refine ⟨rfl, ?_⟩
  rcases large with rfl | rfl
  · decide
  · decide

theorem large_leaf_size_lost_sample :
    AmdViPte.hardwarePageSize 3 (.newLeaf 0x40000000 ⟨{.read}, .writeback⟩ .size1G) = some 0x2000 := by
  have lost := large_leaf_size_lost 0x40000000 ⟨{.read}, .writeback⟩ 3 .size1G (by decide +kernel)
    (Or.inr rfl) (by decide +kernel) (by decide +kernel)
  exact lost.1

theorem large_leaf_size_not_kept :
    ¬∀ (paddr : UInt64) (flags : AmdViFlags) (level : UInt8) (size : PageSize),
      PageTableEntry.levelSupportsLeaf AmdViPte level size = true →
      size = .size2M ∨ size = .size1G → size.bytes ∣ paddr.toNat → paddr.toNat < 2 ^ 52 →
        AmdViPte.hardwarePageSize level (.newLeaf paddr flags size) = some size.bytes := by
  intro kept
  have size := kept 0x40000000 ⟨{.read}, .writeback⟩ 3 .size1G (by decide +kernel) (Or.inr rfl)
    (by decide +kernel) (by decide +kernel)
  exact absurd size (by decide +kernel)

end Iommu
