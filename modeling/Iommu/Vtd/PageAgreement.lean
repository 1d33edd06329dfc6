import Iommu.Vtd.RangeOutcome

/-!
A range of one page is invalidated as the page is: the plan of an aligned page is one block
with the page's own mask, and what stops one operation stops the other.
-/

namespace Iommu

open MachineWord Memory

namespace VtdCapability

variable {cap : VtdCapability} {pageSize : PageSize}

theorem pageSelectiveAddressMask_eq (cap : VtdCapability) (pageSize : PageSize) :
    cap.pageSelectiveAddressMask pageSize =
      (vtdIotlbGranuleAddressMask pageSize).bind fun mask =>
        if cap.pageSelectiveInvalidation ∧ mask ≤ cap.maxAddressMaskValue then some mask else none := by
  cases pageSize <;> rfl

end VtdCapability

namespace VtdIotlbRangePlan

theorem nextBlock_single {plan : VtdIotlbRangePlan} (aligned : plan.Aligned)
    (single : plan.remainingPages = 2 ^ plan.minMask) :
    ∃ next, plan.nextBlock = some (⟨plan.nextPage, plan.minMask⟩, next) ∧ next.nextBlock = none := by
  have more : 0 < plan.remainingPages := single ▸ Nat.two_pow_pos _
  obtain ⟨above, _, _, _, fits⟩ := nextAddressMask_spec aligned more
  rw [single] at fits
  have mask : plan.nextAddressMask = plan.minMask :=
    Nat.le_antisymm ((Nat.pow_le_pow_iff_right (by decide)).mp fits) above
  obtain ⟨next, yielded, _, _, _, _, remaining⟩ := nextBlock_spec aligned more
  rw [mask] at yielded remaining
  exact ⟨next, yielded, nextBlock_of_exhausted (by omega)⟩

theorem descriptorCount_single {plan : VtdIotlbRangePlan} (aligned : plan.Aligned)
    (single : plan.remainingPages = 2 ^ plan.minMask) : plan.descriptorCount = 1 := by
  obtain ⟨next, yielded, ended⟩ := nextBlock_single aligned single
  obtain ⟨rounds, counted⟩ := Nat.exists_eq_add_one_of_ne_zero (Nat.two_pow_pos plan.minMask).ne'
  rw [descriptorCount, single, counted, countBlocks, yielded]
  cases rounds with
  | zero => rfl
  | succ rounds =>
      dsimp only
      rw [countBlocks, ended]
      rfl

end VtdIotlbRangePlan

namespace VtdUnit

variable {QN : Nat} {Registers : Type} {mmu : Translation} {unit : VtdUnit Registers}
  {domain : VtdIoDomain} {iova : UInt64} {pageSize : PageSize} {plan : VtdIotlbRangePlan}

theorem iotlbPageWithAddressMask_page (cap : VtdCapability) (domain : VtdIoDomain) (iova : UInt64)
    (mask addressMask : Nat) :
    ∃ address, blockIova ⟨iova.toNat / 2 ^ 12, mask⟩ = .ok address ∧
      VtdQueuedInvalidationDescriptor.iotlbPageWithAddressMask domain address addressMask cap =
        VtdQueuedInvalidationDescriptor.iotlbPageWithAddressMask domain iova addressMask cap := by
  have bounded := iova.toNat_lt
  have small : iova.toNat / 2 ^ 12 * 2 ^ 12 < limit := by
    rw [limit]
    omega
  have masked : UInt64.ofNat (iova.toNat / 2 ^ 12 * 2 ^ 12) &&& PAGE_ADDR_MASK = iova &&& PAGE_ADDR_MASK := by
    apply UInt64.toNat_inj.mp
    rw [toNat_and_fieldMask _ 12 52 (by decide), toNat_and_fieldMask _ 12 52 (by decide),
      UInt64.toNat_ofNat_of_lt' small]
    omega
  refine ⟨UInt64.ofNat (iova.toNat / 2 ^ 12 * 2 ^ 12), ?_, ?_⟩
  · rw [blockIova, checkedShl, if_pos (by decide), Nat.mod_eq_of_lt small]
  · rw [VtdQueuedInvalidationDescriptor.iotlbPageWithAddressMask,
      VtdQueuedInvalidationDescriptor.iotlbPageWithAddressMask, masked]

theorem submitBlocks_exhausted {rounds : Nat} (exhausted : plan.nextBlock = none) :
    (unit.submitBlocks mmu domain rounds plan : Effect (QueueWorld QN Registers) Error Unit) = pure () := by
  cases rounds with
  | zero => rfl
  | succ rounds => rw [submitBlocks, exhausted]

theorem submitPlan_page (planned : RangePlanned unit.info.cap iova pageSize 1 plan) :
    plan.descriptorCount = 1 ∧
      (unit.submitPlan mmu domain plan : Effect (QueueWorld QN Registers) Error InvalidateScope) =
        unit.invalidateIotlbPage mmu domain iova pageSize := by
  obtain ⟨supported, encodable⟩ := planned.maxMask_le
  obtain ⟨narrow, _, _, _⟩ := planned.pages
  have page := planned.start
  have ordered := planned.ordered
  have bounded := iova.toNat_lt
  have single : plan.remainingPages = 2 ^ plan.minMask := by
    rw [← (checkedMul_eq_some.mp planned.total).2, Nat.one_mul]
  have size : 2 ^ plan.minMask ≤ 2 ^ 63 := Nat.pow_le_pow_right (by decide) (by omega)
  have aligned : plan.Aligned := planned.plan_aligned (by rw [single, page, limit]; omega)
  have mask : unit.info.cap.pageSelectiveAddressMask pageSize = some plan.minMask := by
    rw [VtdCapability.pageSelectiveAddressMask_eq, planned.granule, Option.bind_some,
      if_pos ⟨planned.selective, by omega⟩]
  obtain ⟨descriptor, built, _⟩ := VtdQueuedInvalidationDescriptor.iotlbPageWithAddressMask_reads
    unit.info.cap domain iova planned.selective (Nat.le_trans ordered supported)
    (Nat.le_trans ordered encodable)
  obtain ⟨address, placed, same⟩ :=
    iotlbPageWithAddressMask_page unit.info.cap domain iova plan.minMask plan.minMask
  obtain ⟨next, yielded, ended⟩ := VtdIotlbRangePlan.nextBlock_single aligned single
  obtain ⟨rounds, counted⟩ := Nat.exists_eq_add_one_of_ne_zero (Nat.two_pow_pos plan.minMask).ne'
  refine ⟨VtdIotlbRangePlan.descriptorCount_single aligned single, ?_⟩
  rw [submitPlan, single, counted, submitBlocks, yielded, page, invalidateIotlbPage,
    VtdQueuedInvalidationDescriptor.iotlbPage, mask]
  dsimp only
  rw [placed, submitBlocks_exhausted ended, built]
  funext world
  rw [Effect.bind_apply, Effect.bind_of_ok (Effect.ofExcept_apply _ _), same, built,
    Effect.bind_of_ok (Effect.ofExcept_apply _ _), Effect.bind_apply]
  dsimp only
  rw [Effect.bind_apply]
  rcases unit.submitQueuedInvalidation mmu descriptor world with ⟨outcome, after⟩
  cases outcome with
  | error error => rfl
  | ok value => rfl

end VtdUnit

/-- A range of one page does what the invalidation of the page does. -/
theorem one_page_range_eq (mmu : Translation) {QN : Nat} {Registers : Type} (unit : VtdUnit Registers)
    (domain : VtdIoDomain) (iova : UInt64) (pageSize : PageSize)
    (aligned : vtdIotlbGranuleAddressMask pageSize = none ∨ pageSize.pages ∣ iova.toNat / 2 ^ 12) :
    (unit.invalidateIotlbRange mmu domain iova pageSize 1 :
      Effect (QueueWorld QN Registers) Error InvalidateScope) =
      unit.invalidateIotlbPage mmu domain iova pageSize := by
  have one : 1 ≠ 0 := Nat.one_ne_zero
  have flushes : unit.info.cap.pageSelectiveAddressMask pageSize = none →
      (unit.flushDomain mmu domain : Effect (QueueWorld QN Registers) Error InvalidateScope) =
        unit.invalidateIotlbPage mmu domain iova pageSize := by
    intro refused
    rw [VtdUnit.invalidateIotlbPage, VtdQueuedInvalidationDescriptor.iotlbPage, refused]
    rfl
  cases granule : vtdIotlbGranuleAddressMask pageSize with
  | none =>
      rw [VtdUnit.invalidateIotlbRange_unsupported one granule]
      apply flushes
      rw [VtdCapability.pageSelectiveAddressMask_eq, granule, Option.bind_none]
  | some minMask =>
      obtain ⟨narrow, pages⟩ := VtdUnit.granule_pages granule
      have divides : 2 ^ minMask ∣ iova.toNat / 2 ^ 12 := by
        rw [← pages]
        exact aligned.resolve_left (by simp [granule])
      by_cases usable : RangeUsable unit.info.cap iova minMask
      · have small : 2 ^ minMask < limit := Nat.pow_lt_pow_right (by decide) narrow
        have planned : RangePlanned unit.info.cap iova pageSize 1
            ⟨iova.toNat / 2 ^ 12, 2 ^ minMask, minMask,
              min (min unit.info.cap.maxAddressMaskValue IVA_AM_MASK) 63⟩ :=
          ⟨one, granule, usable.1, rfl, usable.2.1, rfl, divides,
            checkedMul_eq_some.mpr ⟨by rwa [Nat.one_mul], Nat.one_mul _⟩⟩
        obtain ⟨counted, same⟩ := VtdUnit.submitPlan_page planned
        rw [VtdUnit.invalidateIotlbRange_planned planned, if_neg (by rw [counted]; decide), same]
      · rw [(VtdUnit.invalidateIotlbRange_supported one granule).1 usable]
        apply flushes
        rw [VtdCapability.pageSelectiveAddressMask_eq, granule, Option.bind_some, if_neg]
        rintro ⟨selective, supported⟩
        have encodable : minMask ≤ IVA_AM_MASK := Nat.le_of_lt_succ narrow
        have masked := Nat.le_min.mpr ⟨Nat.le_min.mpr ⟨supported, encodable⟩, encodable⟩
        exact usable ⟨selective, masked, divides⟩

theorem one_page_range_eq_sample :
    (VtdUnit.sample.invalidateIotlbRange id ⟨1⟩ 0x200000 .size2M 1 :
      Effect (QueueWorld 2 UInt64) Error InvalidateScope) =
      VtdUnit.sample.invalidateIotlbPage id ⟨1⟩ 0x200000 .size2M :=
  one_page_range_eq id VtdUnit.sample ⟨1⟩ 0x200000 .size2M (Or.inr (by decide))

end Iommu
