import Iommu.Vtd.RangeOutcome

/-!
Invalidating a range of pages: on success the hardware has been handed either one
domain-selective invalidation or aligned blocks that tile exactly the range.
-/

namespace Iommu

open MachineWord Memory

variable {QN : Nat} {Registers : Type} {mmu : Translation} {unit : VtdUnit Registers}

def VtdIotlbRangeBlock.invalidation (domain : VtdIoDomain) (block : VtdIotlbRangeBlock) :
    Option Invalidation :=
  some (.iotlbPages domain.id.toNat block.page block.addressMask)

namespace VtdUnit

theorem submitQueuedInvalidation_ringOnly (unit : VtdUnit Registers)
    {world : QueueWorld QN Registers}
    (mapped : world.RingMapped mmu) (descriptor : VtdQueuedInvalidationDescriptor) :
    world.RingOnly (unit.submitQueuedInvalidation mmu descriptor world).2 :=
  submitWithTail_ringOnly mapped

theorem submitQueuedInvalidation_events (unit : VtdUnit Registers) {world : QueueWorld QN Registers}
    (mapped : world.RingMapped mmu) (descriptor : VtdQueuedInvalidationDescriptor) :
    ∃ handed, (unit.submitQueuedInvalidation mmu descriptor world).2.events = world.events ++ handed ∧
      (Invalidation.ofEvents handed = [descriptor.reads] ∨
        handed = [] ∧ (unit.submitQueuedInvalidation mmu descriptor world).1 ≠ .ok ()) :=
  submitWithTail_events mapped

theorem submitQueuedInvalidation_ok_events {world after : QueueWorld QN Registers}
    {descriptor : VtdQueuedInvalidationDescriptor} (mapped : world.RingMapped mmu)
    (ran : unit.submitQueuedInvalidation mmu descriptor world = (.ok (), after)) :
    after.RingMapped mmu ∧ ∃ handed, after.events = world.events ++ handed ∧
      Invalidation.ofEvents handed = [descriptor.reads] := by
  have frame := unit.submitQueuedInvalidation_ringOnly mapped descriptor
  rw [ran] at frame
  exact ⟨mapped.congr frame.ring, submitWithTail_ok_events mapped ran⟩

theorem submitQueuedInvalidation_ok {world after : QueueWorld QN Registers}
    {descriptor : VtdQueuedInvalidationDescriptor} (mapped : world.RingMapped mmu)
    (ran : unit.submitQueuedInvalidation mmu descriptor world = (.ok (), after)) :
    after.RingMapped mmu ∧ Invalidation.ofEvents after.events =
      Invalidation.ofEvents world.events ++ [descriptor.reads] := by
  obtain ⟨still, handed, events, reads⟩ := submitQueuedInvalidation_ok_events mapped ran
  refine ⟨still, ?_⟩
  rw [events, Invalidation.ofEvents_append, reads]

theorem flushDomain_ok {world after : QueueWorld QN Registers} {domain : VtdIoDomain}
    {scope : InvalidateScope} (mapped : world.RingMapped mmu)
    (ran : unit.flushDomain mmu domain world = (.ok scope, after)) :
    scope = .domain ∧ Invalidation.ofEvents after.events =
      Invalidation.ofEvents world.events ++ [some (.iotlbDomain domain.id.toNat)] := by
  obtain ⟨_, middle, submitted, finished⟩ := Effect.bind_eq_ok.mp ran
  rw [Effect.pure_apply] at finished
  cases finished
  have handed := (submitQueuedInvalidation_ok mapped submitted).2
  rw [VtdQueuedInvalidationDescriptor.iotlbDomain_reads] at handed
  exact ⟨rfl, handed⟩

theorem blockIova_of_lt (block : VtdIotlbRangeBlock) (below : block.page < 2 ^ 52) :
    ∃ iova, blockIova block = .ok iova ∧ iova.toNat / 2 ^ 12 = block.page := by
  have small : block.page * 2 ^ 12 < limit := by
    rw [limit]
    omega
  rw [blockIova, checkedShl, if_pos (by decide), Nat.mod_eq_of_lt small]
  refine ⟨_, rfl, ?_⟩
  rw [UInt64.toNat_ofNat_of_lt' small]
  omega

theorem submitBlocks_ok {domain : VtdIoDomain} (rounds : Nat) {plan : VtdIotlbRangePlan}
    {world after : QueueWorld QN Registers} (mapped : world.RingMapped mmu)
    (selective : unit.info.cap.pageSelectiveInvalidation = true) (aligned : plan.Aligned)
    (inside : plan.nextPage + plan.remainingPages ≤ 2 ^ 52)
    (supported : plan.maxMask ≤ unit.info.cap.maxAddressMaskValue)
    (encodable : plan.maxMask ≤ IVA_AM_MASK)
    (ran : unit.submitBlocks mmu domain rounds plan world = (.ok (), after)) :
    Invalidation.ofEvents after.events = Invalidation.ofEvents world.events ++
      (VtdIotlbRangePlan.blocks rounds plan).map (VtdIotlbRangeBlock.invalidation domain) := by
  induction rounds generalizing plan world with
  | zero =>
      rw [submitBlocks, Effect.pure_apply] at ran
      cases ran
      simp [VtdIotlbRangePlan.blocks]
  | succ rounds ih =>
      rw [submitBlocks] at ran
      rw [VtdIotlbRangePlan.blocks]
      by_cases exhausted : plan.remainingPages = 0
      · rw [VtdIotlbRangePlan.nextBlock_of_exhausted exhausted] at ran ⊢
        simp only [Effect.pure_apply] at ran
        cases ran
        simp
      · have more := Nat.pos_of_ne_zero exhausted
        obtain ⟨next, yielded, still, _, cap, page, remaining⟩ :=
          VtdIotlbRangePlan.nextBlock_spec aligned more
        obtain ⟨_, below, _, _, _⟩ := VtdIotlbRangePlan.nextAddressMask_spec aligned more
        obtain ⟨iova, address, number⟩ :=
          blockIova_of_lt ⟨plan.nextPage, plan.nextAddressMask⟩ (by simp only; omega)
        obtain ⟨descriptor, built, reads⟩ :=
          VtdQueuedInvalidationDescriptor.iotlbPageWithAddressMask_reads unit.info.cap domain
            iova selective (Nat.le_trans below supported)
            (Nat.le_trans below encodable)
        rw [yielded] at ran ⊢
        simp only [address] at ran
        rw [Effect.bind_of_ok (Effect.ofExcept_apply _ _), built,
          Effect.bind_of_ok (Effect.ofExcept_apply _ _)] at ran
        obtain ⟨_, middle, submitted, rest⟩ := Effect.bind_eq_ok.mp ran
        obtain ⟨still_mapped, handed⟩ := submitQueuedInvalidation_ok mapped submitted
        have later := ih still_mapped still (by omega) (by omega) (by omega) rest
        rw [later, handed, reads, number]
        simp [VtdIotlbRangeBlock.invalidation]

/-- The blocks name supported, aligned, disjoint stretches whose union is the given pages. -/
structure ExactBlocks (cap : VtdCapability) (blocks : List VtdIotlbRangeBlock)
    (first last : Nat) : Prop where
  few : blocks.length ≤ IOTLB_RANGE_DOMAIN_INVALIDATION_THRESHOLD
  supported : ∀ block ∈ blocks, block.addressMask ≤ cap.maxAddressMaskValue
  aligned : ∀ block ∈ blocks, 2 ^ block.addressMask ∣ block.page
  apart : (blocks.map VtdIotlbRangeBlock.span).Pairwise Span.Apart
  covers : ∀ page, Span.Covers (blocks.map VtdIotlbRangeBlock.span) page ↔
    first ≤ page ∧ page < last

theorem exactBlocks_nil (cap : VtdCapability) (page : Nat) : ExactBlocks cap [] page page := by
  constructor
  · simp [IOTLB_RANGE_DOMAIN_INVALIDATION_THRESHOLD]
  · simp
  · simp
  · simp
  · intro query
    simp [Span.Covers]

theorem exactBlocks_of_plan {cap : VtdCapability} {plan : VtdIotlbRangePlan}
    (aligned : plan.Aligned) (supported : plan.maxMask ≤ cap.maxAddressMaskValue)
    (few : plan.descriptorCount ≤ IOTLB_RANGE_DOMAIN_INVALIDATION_THRESHOLD) :
    ExactBlocks cap (VtdIotlbRangePlan.blocks plan.remainingPages plan) plan.nextPage
      (plan.nextPage + plan.remainingPages) := by
  obtain ⟨tiled, shaped⟩ := VtdIotlbRangePlan.blocks_tile _ aligned (Nat.le_refl _)
  rw [VtdIotlbRangePlan.descriptorCount_eq aligned] at few
  constructor
  · exact few
  · intro block member
    exact Nat.le_trans (shaped block member).1 supported
  · intro block member
    exact (shaped block member).2.2
  · exact tiled.pairwise_apart
  · exact tiled.covers_iff

/-- What a range invalidation that reported `scope` has handed to the hardware. -/
def RangeSubmitted (cap : VtdCapability) (domain : VtdIoDomain) (first last : Nat)
    (scope : InvalidateScope) (submitted : List (Option Invalidation)) : Prop :=
  (scope = .domain ∧ submitted = [some (.iotlbDomain domain.id.toNat)]) ∨
    (scope = .leaf ∧ ∃ blocks : List VtdIotlbRangeBlock, ExactBlocks cap blocks first last ∧
      submitted = blocks.map (VtdIotlbRangeBlock.invalidation domain))

theorem planned_ok {world after : QueueWorld QN Registers} {domain : VtdIoDomain}
    {plan : VtdIotlbRangePlan} {scope : InvalidateScope} (mapped : world.RingMapped mmu)
    (selective : unit.info.cap.pageSelectiveInvalidation = true) (aligned : plan.Aligned)
    (inside : plan.nextPage + plan.remainingPages ≤ 2 ^ 52)
    (supported : plan.maxMask ≤ unit.info.cap.maxAddressMaskValue)
    (encodable : plan.maxMask ≤ IVA_AM_MASK)
    (few : plan.descriptorCount ≤ IOTLB_RANGE_DOMAIN_INVALIDATION_THRESHOLD)
    (ran : unit.submitPlan mmu domain plan world = (.ok scope, after)) :
    ∃ submitted, Invalidation.ofEvents after.events =
        Invalidation.ofEvents world.events ++ submitted ∧
      RangeSubmitted unit.info.cap domain plan.nextPage (plan.nextPage + plan.remainingPages) scope
        submitted := by
  obtain ⟨_, middle, looped, finished⟩ := Effect.bind_eq_ok.mp ran
  rw [Effect.pure_apply] at finished
  cases finished
  have handed :=
    submitBlocks_ok plan.remainingPages mapped selective aligned inside supported encodable looped
  exact ⟨_, handed, Or.inr ⟨rfl, _, exactBlocks_of_plan aligned supported few, rfl⟩⟩

theorem invalidateIotlbRange_covers {world after : QueueWorld QN Registers}
    (mapped : world.RingMapped mmu) (domain : VtdIoDomain) (start : UInt64) (pageSize : PageSize)
    (countPages : Nat) {scope : InvalidateScope}
    (inside : start.toNat / 2 ^ 12 + countPages * pageSize.pages ≤ 2 ^ 52)
    (ran : unit.invalidateIotlbRange mmu domain start pageSize countPages world =
      (.ok scope, after)) :
    ∃ submitted, Invalidation.ofEvents after.events =
        Invalidation.ofEvents world.events ++ submitted ∧
      RangeSubmitted unit.info.cap domain (start.toNat / 2 ^ 12)
        (start.toNat / 2 ^ 12 + countPages * pageSize.pages) scope submitted := by
  by_cases empty : countPages = 0
  · rw [invalidateIotlbRange, if_pos empty, Effect.pure_apply] at ran
    cases ran
    rw [empty, Nat.zero_mul]
    exact ⟨[], by simp, Or.inr ⟨rfl, [], exactBlocks_nil _ _, rfl⟩⟩
  rcases invalidateIotlbRange_cases mmu unit domain start pageSize empty with
    flushed | overflows | ⟨plan, planned⟩
  · rw [flushed] at ran
    obtain ⟨reported, handed⟩ := flushDomain_ok mapped ran
    exact ⟨_, handed, Or.inl ⟨reported, rfl⟩⟩
  · rw [overflows] at ran
    cases ran
  · rw [invalidateIotlbRange_planned planned] at ran
    split at ran
    · obtain ⟨reported, handed⟩ := flushDomain_ok mapped ran
      exact ⟨_, handed, Or.inl ⟨reported, rfl⟩⟩
    · next few =>
      obtain ⟨_, total, _, _⟩ := planned.pages
      rw [total, ← planned.start] at inside ⊢
      have aligned := planned.plan_aligned (by rw [limit]; omega)
      exact planned_ok mapped planned.selective aligned inside planned.maxMask_le.1
        planned.maxMask_le.2 (Nat.le_of_not_lt few) ran

theorem sample_range_covers :
    ∃ submitted, Invalidation.ofEvents
        (sample.invalidateIotlbRange id ⟨1⟩ 0x3000 .size4K 5 sampleWorld).2.events =
          Invalidation.ofEvents sampleWorld.events ++ submitted ∧
      RangeSubmitted sample.info.cap ⟨1⟩ 3 (3 + 5 * 1) .leaf submitted :=
  invalidateIotlbRange_covers sampleWorld_mapped ⟨1⟩ 0x3000 .size4K 5 (by decide) rfl

end VtdUnit

end Iommu
