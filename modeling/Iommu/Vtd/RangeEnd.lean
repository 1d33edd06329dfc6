import Iommu.Vtd.PromptHardware
import Iommu.Vtd.RangeInvalidation

/-!
Ranges that run past the last page of the address space: which of them are refused or flushed
as a domain, and which are submitted page by page with addresses that start again at zero.
-/

namespace Iommu

open MachineWord Memory CommandQueue

/-- The range is refused or flushed as a domain, and no other page than its own is invalidated. -/
def RangeKept {QN : Nat} {Registers : Type} (mmu : Translation) (unit : VtdUnit Registers)
    (domain : VtdIoDomain) (start : UInt64) (pageSize : PageSize) (countPages : Nat)
    (world : QueueWorld QN Registers) : Prop :=
  let run := unit.invalidateIotlbRange mmu domain start pageSize countPages world
  (run.1 = .error .addressOverflow ∨ run = unit.flushDomain mmu domain world) ∧
    ∃ submitted, Invalidation.ofEvents run.2.events = Invalidation.ofEvents world.events ++ submitted ∧
      ∀ domainId page mask, some (.iotlbPages domainId page mask) ∈ submitted →
        start.toNat / 2 ^ 12 ≤ page ∧ page < start.toNat / 2 ^ 12 + countPages * pageSize.pages

/-- The range is kept by every unit of the capability, whatever its queue and its registers do. -/
def NeverWraps (cap : VtdCapability) (domain : VtdIoDomain) (start : UInt64) (pageSize : PageSize)
    (countPages : Nat) : Prop :=
  ∀ (QN : Nat) (Registers : Type) (mmu : Translation) (unit : VtdUnit Registers)
    (world : QueueWorld QN Registers), unit.info.cap = cap → world.RingMapped mmu →
      RangeKept mmu unit domain start pageSize countPages world

namespace VtdUnit

section Kept

variable {QN : Nat} {Registers : Type} {mmu : Translation} {unit : VtdUnit Registers}
  {domain : VtdIoDomain} {start : UInt64} {pageSize : PageSize} {countPages : Nat}
  {world : QueueWorld QN Registers}

theorem flushDomain_events (unit : VtdUnit Registers) (domain : VtdIoDomain)
    (mapped : world.RingMapped mmu) :
    ∃ submitted, Invalidation.ofEvents (unit.flushDomain mmu domain world).2.events =
        Invalidation.ofEvents world.events ++ submitted ∧
      ∀ domainId page mask, some (.iotlbPages domainId page mask) ∉ submitted := by
  have same : (unit.flushDomain mmu domain world).2 =
      (unit.invalidateIotlbDomain mmu domain world).2 := by
    rw [flushDomain, Effect.bind_apply]
    rcases unit.invalidateIotlbDomain mmu domain world with ⟨outcome, after⟩
    cases outcome with
    | error error => rfl
    | ok value => rfl
  obtain ⟨handed, events, handed_reads⟩ :=
    unit.submitQueuedInvalidation_events mapped (.iotlbDomain domain unit.info.cap)
  refine ⟨Invalidation.ofEvents handed, ?_, ?_⟩
  · rw [same, ← Invalidation.ofEvents_append]
    exact congrArg Invalidation.ofEvents events
  · intro domainId page mask member
    rcases handed_reads with reads | ⟨nothing, _⟩
    · rw [reads, VtdQueuedInvalidationDescriptor.iotlbDomain_reads] at member
      simp at member
    · rw [nothing] at member
      simp [Invalidation.ofEvents] at member

theorem rangeKept_of_flush (mapped : world.RingMapped mmu)
    (flushed : (unit.invalidateIotlbRange mmu domain start pageSize countPages :
      Effect (QueueWorld QN Registers) Error InvalidateScope) = unit.flushDomain mmu domain) :
    RangeKept mmu unit domain start pageSize countPages world := by
  obtain ⟨submitted, events, others⟩ := flushDomain_events unit domain mapped
  rw [RangeKept, flushed]
  refine ⟨Or.inr rfl, submitted, events, ?_⟩
  intro domainId page mask member
  exact absurd member (others domainId page mask)

theorem rangeKept_of_overflow
    (overflows : (unit.invalidateIotlbRange mmu domain start pageSize countPages :
      Effect (QueueWorld QN Registers) Error InvalidateScope) = .fail .addressOverflow) :
    RangeKept mmu unit domain start pageSize countPages world := by
  rw [RangeKept, overflows]
  exact ⟨Or.inl rfl, [], by simp, by simp⟩

end Kept

def promptUnit (cap : VtdCapability) : VtdUnit UInt64 := .new ⟨some 0, cap, ⟨0⟩⟩ .prompt .sample

section Prompt

variable {cap : VtdCapability} {domain : VtdIoDomain} {plan : VtdIotlbRangePlan} {ticket : Nat}
  {world : QueueWorld 2 UInt64}

theorem promptUnit_submitBlocks (domain : VtdIoDomain) (rounds : Nat)
    (selective : cap.pageSelectiveInvalidation = true)
    (ordered : plan.minMask ≤ plan.maxMask) (supported : plan.maxMask ≤ cap.maxAddressMaskValue)
    (encodable : plan.maxMask ≤ IVA_AM_MASK) (clean : Clean descriptorRing ticket world)
    (small : ticket + (VtdIotlbRangePlan.blocks rounds plan).length < limit) :
    ((promptUnit cap).submitBlocks id domain rounds plan world).1 = .ok () := by
  induction rounds generalizing plan ticket world with
  | zero => rfl
  | succ rounds ih =>
      rw [submitBlocks]
      rw [VtdIotlbRangePlan.blocks] at small
      by_cases exhausted : plan.remainingPages = 0
      · rw [VtdIotlbRangePlan.nextBlock_of_exhausted exhausted]
        rfl
      · rw [VtdIotlbRangePlan.nextBlock, if_neg exhausted] at small ⊢
        dsimp only at small ⊢
        rw [List.length_cons] at small
        have below : plan.nextAddressMask ≤ plan.maxMask :=
          Nat.max_le.mpr ⟨Nat.min_le_right _ _, ordered⟩
        obtain ⟨descriptor, built, _⟩ :=
          VtdQueuedInvalidationDescriptor.iotlbPageWithAddressMask_reads cap domain
            (UInt64.ofNat (plan.nextPage * 2 ^ 12 % limit)) selective (Nat.le_trans below supported)
            (Nat.le_trans below encodable)
        have prompt : (promptUnit cap).registers = .prompt := rfl
        obtain ⟨after, submitted, next⟩ := submit_prompt prompt descriptor clean (by omega)
        have address : blockIova ⟨plan.nextPage, plan.nextAddressMask⟩ =
            .ok (UInt64.ofNat (plan.nextPage * 2 ^ 12 % limit)) := rfl
        have described : VtdQueuedInvalidationDescriptor.iotlbPageWithAddressMask domain
            (UInt64.ofNat (plan.nextPage * 2 ^ 12 % limit)) plan.nextAddressMask
            (promptUnit cap).info.cap = .ok descriptor := built
        rw [address, Effect.bind_of_ok (Effect.ofExcept_apply _ _), described,
          Effect.bind_of_ok (Effect.ofExcept_apply _ _), Effect.bind_of_ok submitted]
        exact ih ordered supported encodable next (by omega)

end Prompt

end VtdUnit

open VtdUnit

/-- A range past the end of the address space is kept exactly when it has no plan of few enough
descriptors: every such plan is submitted. -/
theorem range_end_kept_iff (cap : VtdCapability) (domain : VtdIoDomain) (start : UInt64)
    (pageSize : PageSize) (countPages : Nat)
    (past : 2 ^ 52 < start.toNat / 2 ^ 12 + countPages * pageSize.pages) :
    NeverWraps cap domain start pageSize countPages ↔
      ¬∃ plan, RangePlanned cap start pageSize countPages plan ∧
        plan.descriptorCount ≤ IOTLB_RANGE_DOMAIN_INVALIDATION_THRESHOLD := by
  constructor
  · rintro kept ⟨plan, planned, few⟩
    obtain ⟨supported, encodable⟩ := planned.maxMask_le
    obtain ⟨_, _, _, small⟩ := planned.pages
    have counted : plan.descriptorCount = (VtdIotlbRangePlan.blocks plan.remainingPages plan).length := by
      rw [VtdIotlbRangePlan.descriptorCount, VtdIotlbRangePlan.countBlocks_eq _ _ (by omega), Nat.zero_add]
    have submitted := promptUnit_submitBlocks domain plan.remainingPages planned.selective
      planned.ordered supported encodable sampleWorld_clean (by
        rw [← counted, Nat.zero_add]
        exact Nat.lt_of_le_of_lt few (by decide))
    have ran : ((promptUnit cap).invalidateIotlbRange id domain start pageSize countPages
        sampleWorld).1 = .ok .leaf := by
      have within : RangePlanned (promptUnit cap).info.cap start pageSize countPages plan := planned
      rw [invalidateIotlbRange_planned within, if_neg (Nat.not_lt_of_le few), submitPlan, Effect.bind_apply]
      rcases looped : (promptUnit cap).submitBlocks id domain plan.remainingPages plan sampleWorld with
        ⟨outcome, after⟩
      rw [looped] at submitted
      cases submitted
      rfl
    obtain ⟨overflows | flushed, _⟩ := kept 2 UInt64 id (promptUnit cap) sampleWorld rfl sampleWorld_mapped
    · rw [ran] at overflows
      cases overflows
    · rw [flushed] at ran
      have reported := flushDomain_ok sampleWorld_mapped (Prod.ext ran rfl)
      exact absurd reported.1 (by decide)
  · intro unplanned QN Registers mmu unit world same mapped
    subst same
    have asked : countPages ≠ 0 := by
      rintro rfl
      have bounded := start.toNat_lt
      omega
    rcases invalidateIotlbRange_cases mmu unit domain start pageSize asked with
      flushed | overflows | ⟨plan, planned⟩
    · exact rangeKept_of_flush mapped flushed
    · exact rangeKept_of_overflow overflows
    · apply rangeKept_of_flush mapped
      rw [invalidateIotlbRange_planned planned, if_pos]
      by_contra few
      exact unplanned ⟨plan, planned, Nat.le_of_not_lt few⟩

/-- From the last 4 KiB page on there is no aligned range of 2 MiB pages. -/
theorem range_end_kept_unaligned : NeverWraps sample.info.cap ⟨1⟩ 0xfffffffffffff000 .size2M 1 := by
  refine (range_end_kept_iff sample.info.cap ⟨1⟩ 0xfffffffffffff000 .size2M 1 (by decide)).mpr ?_
  rintro ⟨plan, planned, _⟩
  have mask : plan.minMask = 9 := Option.some.inj planned.granule.symm
  have aligned := planned.aligned
  rw [mask, planned.start] at aligned
  revert aligned
  decide

/-- The page after the last one is submitted as page 0. -/
theorem range_end_wraps :
    2 ^ 52 < (0xfffffffffffff000 : UInt64).toNat / 2 ^ 12 + 2 * PageSize.size4K.pages ∧
      ∃ after, sample.invalidateIotlbRange id ⟨1⟩ 0xfffffffffffff000 .size4K 2 sampleWorld =
          (.ok .leaf, after) ∧
        Invalidation.ofEvents after.events =
          [some (.iotlbPages 1 (2 ^ 52 - 1) 0), some (.iotlbPages 1 0 0)] ∧
        ¬NeverWraps sample.info.cap ⟨1⟩ 0xfffffffffffff000 .size4K 2 := by
  have past : 2 ^ 52 < (0xfffffffffffff000 : UInt64).toNat / 2 ^ 12 + 2 * PageSize.size4K.pages := by
    decide
  refine ⟨past, _, rfl, rfl, fun kept => ?_⟩
  obtain ⟨_, submitted, events, inside⟩ :=
    kept 2 UInt64 id sample sampleWorld rfl sampleWorld_mapped
  have handed : [some (.iotlbPages 1 (2 ^ 52 - 1) 0), some (.iotlbPages 1 0 0)] = submitted := events
  have low := (inside 1 0 0 (handed ▸ List.mem_cons_of_mem _ List.mem_cons_self)).1
  revert low
  decide

end Iommu
