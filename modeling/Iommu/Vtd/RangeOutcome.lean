import Iommu.Vtd.Unit

/-!
What a range invalidation does, by the checks it makes before it has a plan and by the number
of descriptors of the plan.
-/

namespace Iommu

open MachineWord Memory

/-- The range comes to the plan: it has pages, of a size with an address mask that the unit takes, from
an aligned start, and they can be counted. -/
structure RangePlanned (cap : VtdCapability) (start : UInt64) (pageSize : PageSize) (countPages : Nat)
    (plan : VtdIotlbRangePlan) : Prop where
  asked : countPages ≠ 0
  granule : vtdIotlbGranuleAddressMask pageSize = some plan.minMask
  selective : cap.pageSelectiveInvalidation = true
  greatest : plan.maxMask = min (min cap.maxAddressMaskValue IVA_AM_MASK) 63
  ordered : plan.minMask ≤ plan.maxMask
  start : plan.nextPage = start.toNat / 2 ^ 12
  aligned : 2 ^ plan.minMask ∣ plan.nextPage
  total : checkedMul countPages (2 ^ plan.minMask) = some plan.remainingPages

def RangeUsable (cap : VtdCapability) (start : UInt64) (minMask : Nat) : Prop :=
  cap.pageSelectiveInvalidation = true ∧ minMask ≤ min (min cap.maxAddressMaskValue IVA_AM_MASK) 63 ∧
    2 ^ minMask ∣ start.toNat / 2 ^ 12

theorem rangeUsable_iff {cap : VtdCapability} {start : UInt64} {minMask : Nat} :
    ¬((!cap.pageSelectiveInvalidation) = true ∨
      min (min cap.maxAddressMaskValue IVA_AM_MASK) 63 < minMask ∨
      start.toNat / 2 ^ 12 % 2 ^ minMask ≠ 0) ↔ RangeUsable cap start minMask := by
  rw [not_or, not_or, Nat.not_lt, not_not, RangeUsable, Nat.dvd_iff_mod_eq_zero]
  simp

namespace VtdUnit

variable {QN : Nat} {Registers : Type} {mmu : Translation} {unit : VtdUnit Registers}
  {domain : VtdIoDomain} {start : UInt64} {pageSize : PageSize} {countPages : Nat}
  {plan : VtdIotlbRangePlan}

def flushDomain (mmu : Translation) (unit : VtdUnit Registers) (domain : VtdIoDomain) :
    Effect (QueueWorld QN Registers) Error InvalidateScope := do
  unit.invalidateIotlbDomain mmu domain
  pure .domain

def submitPlan (mmu : Translation) (unit : VtdUnit Registers) (domain : VtdIoDomain)
    (plan : VtdIotlbRangePlan) : Effect (QueueWorld QN Registers) Error InvalidateScope := do
  unit.submitBlocks mmu domain plan.remainingPages plan
  pure .leaf

theorem startPage_eq (start : UInt64) :
    ((start &&& PAGE_ADDR_MASK) >>> 12).toNat = start.toNat / 2 ^ 12 := by
  have bounded := start.toNat_lt
  have inside : start.toNat / 2 ^ 12 < 2 ^ 52 := by omega
  have masked : (start &&& PAGE_ADDR_MASK).toNat = start.toNat / 2 ^ 12 * 2 ^ 12 := by
    rw [toNat_and_fieldMask start 12 52 (by decide), Nat.mod_eq_of_lt inside]
  rw [UInt64.toNat_shiftRight, masked]
  simp [Nat.shiftRight_eq_div_pow]

theorem granule_pages {pageSize : PageSize} {minMask : Nat}
    (granule : vtdIotlbGranuleAddressMask pageSize = some minMask) :
    minMask < 64 ∧ pageSize.pages = 2 ^ minMask := by
  cases pageSize <;> simp [vtdIotlbGranuleAddressMask] at granule
  all_goals
    subst granule
    decide

theorem granule_shifted {minMask : Nat} (granule : vtdIotlbGranuleAddressMask pageSize = some minMask) :
    checkedShl 1 minMask = some (2 ^ minMask) := by
  obtain ⟨narrow, _⟩ := granule_pages granule
  have small : 2 ^ minMask < limit := Nat.pow_lt_pow_right (by decide) narrow
  rw [checkedShl, if_pos narrow, Nat.one_mul, Nat.mod_eq_of_lt small]

theorem invalidateIotlbRange_unsupported (asked : countPages ≠ 0)
    (unsupported : vtdIotlbGranuleAddressMask pageSize = none) :
    (unit.invalidateIotlbRange mmu domain start pageSize countPages :
      Effect (QueueWorld QN Registers) Error InvalidateScope) = unit.flushDomain mmu domain := by
  rw [invalidateIotlbRange, if_neg asked]
  simp only [unsupported]
  rfl

theorem invalidateIotlbRange_supported {minMask : Nat} (asked : countPages ≠ 0)
    (granule : vtdIotlbGranuleAddressMask pageSize = some minMask) :
    (¬RangeUsable unit.info.cap start minMask →
      (unit.invalidateIotlbRange mmu domain start pageSize countPages :
        Effect (QueueWorld QN Registers) Error InvalidateScope) = unit.flushDomain mmu domain) ∧
    (RangeUsable unit.info.cap start minMask → checkedMul countPages (2 ^ minMask) = none →
      (unit.invalidateIotlbRange mmu domain start pageSize countPages :
        Effect (QueueWorld QN Registers) Error InvalidateScope) = .fail .addressOverflow) := by
  rw [invalidateIotlbRange, if_neg asked]
  simp only [granule, granule_shifted granule, startPage_eq, Nat.and_two_pow_sub_one_eq_mod]
  constructor
  · intro refused
    rw [if_pos (not_not.mp (mt rangeUsable_iff.mp refused))]
    rfl
  · intro usable overflow
    rw [if_neg (rangeUsable_iff.mpr usable)]
    simp only [overflow]

theorem invalidateIotlbRange_planned
    (planned : RangePlanned unit.info.cap start pageSize countPages plan) :
    (unit.invalidateIotlbRange mmu domain start pageSize countPages :
      Effect (QueueWorld QN Registers) Error InvalidateScope) =
      if IOTLB_RANGE_DOMAIN_INVALIDATION_THRESHOLD < plan.descriptorCount then
        unit.flushDomain mmu domain
      else unit.submitPlan mmu domain plan := by
  obtain ⟨nextPage, remainingPages, minMask, maxMask⟩ := plan
  obtain ⟨asked, granule, selective, greatest, ordered, page, aligned, total⟩ := planned
  dsimp only at *
  subst greatest page
  obtain ⟨narrow, _⟩ := granule_pages granule
  have usable : RangeUsable unit.info.cap start minMask := ⟨selective, ordered, aligned⟩
  have multiple : 2 ^ minMask ∣ remainingPages :=
    (checkedMul_eq_some.mp total).2 ▸ Nat.dvd_mul_left ..
  rw [invalidateIotlbRange, if_neg asked]
  simp only [granule, granule_shifted granule, startPage_eq, Nat.and_two_pow_sub_one_eq_mod]
  rw [if_neg (rangeUsable_iff.mpr usable)]
  simp only [total, VtdIotlbRangePlan.new_of_aligned ordered narrow aligned multiple]
  rfl

theorem invalidateIotlbRange_cases (mmu : Translation) (unit : VtdUnit Registers) (domain : VtdIoDomain)
    (start : UInt64) (pageSize : PageSize) (asked : countPages ≠ 0) :
    (unit.invalidateIotlbRange mmu domain start pageSize countPages :
        Effect (QueueWorld QN Registers) Error InvalidateScope) = unit.flushDomain mmu domain ∨
    (unit.invalidateIotlbRange mmu domain start pageSize countPages :
        Effect (QueueWorld QN Registers) Error InvalidateScope) = .fail .addressOverflow ∨
    ∃ plan, RangePlanned unit.info.cap start pageSize countPages plan := by
  cases granule : vtdIotlbGranuleAddressMask pageSize with
  | none => exact Or.inl (invalidateIotlbRange_unsupported asked granule)
  | some minMask =>
      obtain ⟨flushes, overflows⟩ := invalidateIotlbRange_supported asked granule
      by_cases usable : RangeUsable unit.info.cap start minMask
      · cases total : checkedMul countPages (2 ^ minMask) with
        | none => exact Or.inr (Or.inl (overflows usable total))
        | some pages =>
            right; right
            exact ⟨⟨_, pages, minMask, _⟩, asked, granule, usable.1, rfl, usable.2.1, rfl, usable.2.2,
              total⟩
      · exact Or.inl (flushes usable)

end VtdUnit

namespace RangePlanned

variable {cap : VtdCapability} {start : UInt64} {pageSize : PageSize} {countPages : Nat}
  {plan : VtdIotlbRangePlan}

theorem pages (planned : RangePlanned cap start pageSize countPages plan) :
    plan.minMask < 64 ∧ countPages * pageSize.pages = plan.remainingPages ∧
      2 ^ plan.minMask ∣ plan.remainingPages ∧ plan.remainingPages < limit := by
  obtain ⟨narrow, pages⟩ := VtdUnit.granule_pages planned.granule
  obtain ⟨small, total⟩ := checkedMul_eq_some.mp planned.total
  rw [pages, ← total]
  exact ⟨narrow, rfl, Nat.dvd_mul_left .., small⟩

theorem plan_aligned (planned : RangePlanned cap start pageSize countPages plan)
    (bounded : plan.nextPage + plan.remainingPages < limit) : plan.Aligned :=
  ⟨planned.ordered, planned.pages.1, planned.aligned, planned.pages.2.2.1, bounded⟩

theorem maxMask_le (planned : RangePlanned cap start pageSize countPages plan) :
    plan.maxMask ≤ cap.maxAddressMaskValue ∧ plan.maxMask ≤ IVA_AM_MASK := by
  rw [planned.greatest]
  exact ⟨Nat.le_trans (Nat.min_le_left ..) (Nat.min_le_left ..),
    Nat.le_trans (Nat.min_le_left ..) (Nat.min_le_right ..)⟩

end RangePlanned

end Iommu
