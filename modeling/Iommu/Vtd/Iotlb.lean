import Iommu.Vtd.HardwareCaches
import Iommu.Vtd.PageAgreement
import Iommu.Vtd.Reachable

/-!
The IOTLB: what the hardware may remember of the translations of its domains while page tables
change, and which of it an invalidation takes away.
-/

namespace Iommu

open MachineWord Memory Caching

variable {QN : Nat} {Registers Leaf : Type} {mmu : Translation} {hardware : RingHardware Registers}
  {backing : CommandQueueBacking}

structure VtdQueuedInvalidator where
  domain : VtdIoDomain

namespace VtdQueuedInvalidator

def invalidateDomain (mmu : Translation) (unit : VtdUnit Registers)
    (invalidator : VtdQueuedInvalidator) : Effect (QueueWorld QN Registers) Error Unit :=
  unit.invalidateIotlbDomain mmu invalidator.domain

def invalidatePage (mmu : Translation) (unit : VtdUnit Registers)
    (invalidator : VtdQueuedInvalidator) (iova : UInt64) (granule : PageSize) :
    Effect (QueueWorld QN Registers) Error InvalidateScope :=
  unit.invalidateIotlbPage mmu invalidator.domain iova granule

def invalidateRange (mmu : Translation) (unit : VtdUnit Registers)
    (invalidator : VtdQueuedInvalidator) (start : UInt64) (pageSize : PageSize) (countPages : Nat) :
    Effect (QueueWorld QN Registers) Error InvalidateScope :=
  unit.invalidateIotlbRange mmu invalidator.domain start pageSize countPages

end VtdQueuedInvalidator

/-- The IOTLB is tagged by domain and page. An invalidation of pages ignores as many low bits of the
page as its mask says. -/
def Invalidation.dropsPages : Invalidation → Nat × Nat → Bool
  | .iotlbGlobal, _ => true
  | .iotlbDomain domainId, (tag, _) => tag = domainId
  | .iotlbPages domainId first mask, (tag, page) =>
      tag = domainId ∧ page / 2 ^ mask = first / 2 ^ mask
  | _, _ => false

inductive IotlbCall (Leaf : Type)
  | retranslate (domain : VtdIoDomain) (pages : Nat → Option Leaf)
  | invalidateDomain (domain : VtdIoDomain)
  | invalidatePage (domain : VtdIoDomain) (iova : UInt64) (granule : PageSize)
  | invalidateRange (domain : VtdIoDomain) (start : UInt64) (pageSize : PageSize) (countPages : Nat)
  | request (controller : VtdDomainController) (asked : Invalidate)

def Invalidate.asks (domain : VtdIoDomain) : Invalidate → Nat × Nat → Prop
  | .global, _ => True
  | .addressSpace, (tag, _) => tag = domain.id.toNat
  | .leaf iova granule, (tag, page) =>
      tag = domain.id.toNat ∧ page / granule.pages = iova.toNat / 2 ^ 12 / granule.pages
  | .device _, _ => False
  | .deviceLeaf _ _ _, _ => False

namespace IotlbCall

/-- The pages a call says are no longer to be remembered. -/
def asks : IotlbCall Leaf → Nat × Nat → Prop
  | retranslate _ _, _ => False
  | invalidateDomain domain, key => Invalidate.addressSpace.asks domain key
  | invalidatePage domain iova granule, key => (Invalidate.leaf iova granule).asks domain key
  | invalidateRange domain start pageSize countPages, (tag, page) =>
      tag = domain.id.toNat ∧ start.toNat / 2 ^ 12 ≤ page ∧
        page < start.toNat / 2 ^ 12 + countPages * pageSize.pages
  | request controller asked, key => asked.asks controller.domain.id key

def Inside : IotlbCall Leaf → Prop
  | invalidateRange _ start pageSize countPages =>
      start.toNat / 2 ^ 12 + countPages * pageSize.pages ≤ 2 ^ 52
  | _ => True

def perform (mmu : Translation) (unit : VtdUnit Registers) :
    IotlbCall Leaf → Effect (QueueWorld QN Registers) Error Unit
  | retranslate _ _ => pure ()
  | invalidateDomain domain => VtdQueuedInvalidator.invalidateDomain mmu unit ⟨domain⟩
  | invalidatePage domain iova granule => do
      let _ ← VtdQueuedInvalidator.invalidatePage mmu unit ⟨domain⟩ iova granule
      pure ()
  | invalidateRange domain start pageSize countPages => do
      let _ ← VtdQueuedInvalidator.invalidateRange mmu unit ⟨domain⟩ start pageSize countPages
      pure ()
  | request controller asked => do
      let _ ← controller.invalidate mmu unit asked
      pure ()

def translate (tables : Nat × Nat → Option Leaf) : IotlbCall Leaf → Nat × Nat → Option Leaf
  | retranslate domain pages, (tag, page) =>
      if tag = domain.id.toNat then pages page else tables (tag, page)
  | _, key => tables key

theorem submitting {unit : VtdUnit Registers} (call : IotlbCall Leaf) :
    Submitting mmu unit (call.perform mmu unit : Effect (QueueWorld QN Registers) Error Unit) := by
  cases call with
  | retranslate domain pages => exact .pure ()
  | invalidateDomain domain => exact .submit _
  | invalidatePage domain iova granule =>
      exact .bind (.invalidateIotlbPage domain iova granule) fun _ => .pure ()
  | invalidateRange domain start pageSize countPages =>
      exact .bind (.invalidateIotlbRange domain start pageSize countPages) fun _ => .pure ()
  | request controller asked => exact .bind (.invalidate controller asked) fun _ => .pure ()

theorem caughtUp {unit : VtdUnit Registers} {call : IotlbCall Leaf}
    {before after : QueueWorld QN Registers}
    (serves : hardware.Serves backing unit.registers unit.registers.writeInvalidateQueueTailShared)
    (caught : hardware.CaughtUp backing before)
    (ran : call.perform mmu unit before = (.ok (), after)) : hardware.CaughtUp backing after :=
  call.submitting.keeps (fun _ _ _ holds submitted => holds.submitted serves submitted) before ()
    after caught ran

end IotlbCall

def OnlySubmits (mmu : Translation) (before after : QueueWorld QN Registers) : Prop :=
  before.RingMapped mmu → after.RingMapped mmu ∧
    ∃ handed, after.events = before.events ++ handed ∧ OnlyPublishes handed

namespace OnlySubmits

theorem refl (world : QueueWorld QN Registers) : OnlySubmits mmu world world :=
  fun mapped => ⟨mapped, [], (List.append_nil _).symm, fun _ member => absurd member List.not_mem_nil⟩

theorem trans (first second third : QueueWorld QN Registers)
    (before : OnlySubmits mmu first second) (after : OnlySubmits mmu second third) :
    OnlySubmits mmu first third := by
  intro mapped
  obtain ⟨middle, early, logged, publishes⟩ := before mapped
  obtain ⟨last, late, later, more⟩ := after middle
  exact ⟨last, early ++ late, by rw [later, logged, List.append_assoc], publishes.append more⟩

theorem submit (unit : VtdUnit Registers) (descriptor : VtdQueuedInvalidationDescriptor) :
    (unit.submitQueuedInvalidation mmu descriptor :
      Effect (QueueWorld QN Registers) Error Unit).Respects (OnlySubmits mmu) := by
  intro world mapped
  have frame := unit.submitQueuedInvalidation_ringOnly mapped descriptor
  exact ⟨mapped.congr frame.ring, submitWithTail_publishes _ _ mapped descriptor⟩

theorem perform {unit : VtdUnit Registers} (call : IotlbCall Leaf) :
    (call.perform mmu unit : Effect (QueueWorld QN Registers) Error Unit).Respects
      (OnlySubmits mmu) :=
  call.submitting.respects refl trans (submit unit)

end OnlySubmits

def Named (before after : QueueWorld QN Registers) (keys : Nat × Nat → Prop) : Prop :=
  ∃ submitted, Invalidation.ofEvents after.events =
      Invalidation.ofEvents before.events ++ submitted ∧
    ∀ key, keys key → ∃ invalidation, some invalidation ∈ submitted ∧
      invalidation.dropsPages key = true

section Named

variable {unit : VtdUnit Registers} {before after : QueueWorld QN Registers} {domain : VtdIoDomain}

theorem Named.of_submit {descriptor : VtdQueuedInvalidationDescriptor} {invalidation : Invalidation}
    {keys : Nat × Nat → Prop} (mapped : before.RingMapped mmu)
    (reads : descriptor.reads = some invalidation)
    (drops : ∀ key, keys key → invalidation.dropsPages key = true)
    (ran : unit.submitQueuedInvalidation mmu descriptor before = (.ok (), after)) :
    Named before after keys := by
  obtain ⟨_, handed⟩ := VtdUnit.submitQueuedInvalidation_ok mapped ran
  refine ⟨_, handed, fun key asked => ⟨invalidation, ?_, drops key asked⟩⟩
  rw [reads]
  exact List.mem_singleton_self _

theorem named_of_flush {keys : Nat × Nat → Prop} (mapped : before.RingMapped mmu)
    (tagged : ∀ key, keys key → key.1 = domain.id.toNat)
    (ran : unit.invalidateIotlbDomain mmu domain before = (.ok (), after)) :
    Named before after keys :=
  Named.of_submit mapped (VtdQueuedInvalidationDescriptor.iotlbDomain_reads unit.info.cap domain)
    (fun key asked => decide_eq_true (tagged key asked)) ran

theorem named_of_page {iova : UInt64} {granule : PageSize} {scope : InvalidateScope}
    (mapped : before.RingMapped mmu)
    (ran : unit.invalidateIotlbPage mmu domain iova granule before = (.ok scope, after)) :
    Named before after ((Invalidate.leaf iova granule).asks domain) := by
  rw [VtdUnit.invalidateIotlbPage, VtdQueuedInvalidationDescriptor.iotlbPage] at ran
  cases selected : unit.info.cap.pageSelectiveAddressMask granule with
  | none =>
      rw [selected] at ran
      obtain ⟨_, middle, flushed, finished⟩ := Effect.bind_eq_ok.mp ran
      cases finished
      exact named_of_flush mapped (fun _ asked => asked.1) flushed
  | some mask =>
      have chosen := selected
      rw [VtdCapability.pageSelectiveAddressMask_eq, Option.bind_eq_some_iff] at chosen
      obtain ⟨_, size, usable⟩ := chosen
      obtain ⟨⟨selective, supported⟩, same⟩ := Option.ite_none_right_eq_some.mp usable
      obtain rfl := Option.some.inj same
      obtain ⟨narrow, pages⟩ := VtdUnit.granule_pages size
      obtain ⟨descriptor, built, reads⟩ :=
        VtdQueuedInvalidationDescriptor.iotlbPageWithAddressMask_reads unit.info.cap domain iova
          selective supported (Nat.le_of_lt_succ narrow)
      rw [selected] at ran
      simp only [built] at ran
      obtain ⟨_, middle, submitted, finished⟩ := Effect.bind_eq_ok.mp ran
      cases finished
      refine Named.of_submit mapped reads (fun key asked => ?_) submitted
      have block := asked.2
      rw [pages] at block
      exact decide_eq_true ⟨asked.1, block⟩

theorem page_of_block {block : VtdIotlbRangeBlock} {page : Nat}
    (aligned : 2 ^ block.addressMask ∣ block.page) (inside : block.span.Contains page) :
    page / 2 ^ block.addressMask = block.page / 2 ^ block.addressMask := by
  obtain ⟨number, start⟩ := aligned
  have positive := Nat.two_pow_pos block.addressMask
  have from_start : block.page ≤ page := inside.1
  have before_end : page < block.page + 2 ^ block.addressMask := inside.2
  rw [start, Nat.mul_div_cancel_left _ positive]
  rw [start] at from_start before_end
  apply Nat.div_eq_of_lt_le
  · rwa [Nat.mul_comm]
  · rwa [Nat.add_one_mul, Nat.mul_comm]

theorem named_of_range {start : UInt64} {pageSize : PageSize} {countPages : Nat}
    {scope : InvalidateScope} (mapped : before.RingMapped mmu)
    (inside : start.toNat / 2 ^ 12 + countPages * pageSize.pages ≤ 2 ^ 52)
    (ran : unit.invalidateIotlbRange mmu domain start pageSize countPages before =
      (.ok scope, after)) :
    Named before after
      ((IotlbCall.invalidateRange domain start pageSize countPages : IotlbCall Leaf).asks) := by
  have flushes : unit.flushDomain mmu domain before = (.ok scope, after) → Named before after
      ((IotlbCall.invalidateRange domain start pageSize countPages : IotlbCall Leaf).asks) := by
    intro flushed
    obtain ⟨_, middle, submitted, finished⟩ := Effect.bind_eq_ok.mp flushed
    cases finished
    exact named_of_flush mapped (fun _ asked => asked.1) submitted
  by_cases empty : countPages = 0
  · rw [VtdUnit.invalidateIotlbRange, if_pos empty, Effect.pure_apply] at ran
    cases ran
    refine ⟨[], (List.append_nil _).symm, fun key asked => ?_⟩
    obtain ⟨_, low, high⟩ := asked
    rw [empty, Nat.zero_mul] at high
    omega
  rcases VtdUnit.invalidateIotlbRange_cases mmu unit domain start pageSize empty with
    flushed | overflows | ⟨plan, planned⟩
  · rw [flushed] at ran
    exact flushes ran
  · rw [overflows] at ran
    cases ran
  · rw [VtdUnit.invalidateIotlbRange_planned planned] at ran
    split at ran
    · exact flushes ran
    · next few =>
      obtain ⟨_, total, _, _⟩ := planned.pages
      have first := planned.start
      have aligned := planned.plan_aligned (by rw [limit]; omega)
      obtain ⟨_, middle, looped, finished⟩ := Effect.bind_eq_ok.mp ran
      cases finished
      have handed := VtdUnit.submitBlocks_ok plan.remainingPages mapped planned.selective aligned
        (by omega) planned.maxMask_le.1 planned.maxMask_le.2 looped
      have exact_blocks := VtdUnit.exactBlocks_of_plan aligned planned.maxMask_le.1
        (Nat.le_of_not_lt few)
      refine ⟨_, handed, fun key asked => ?_⟩
      obtain ⟨tagged, low, high⟩ := asked
      obtain ⟨span, listed, contains⟩ := (exact_blocks.covers key.2).mpr (by omega)
      obtain ⟨block, member, rfl⟩ := List.mem_map.mp listed
      refine ⟨.iotlbPages domain.id.toNat block.page block.addressMask,
        List.mem_map.mpr ⟨block, member, rfl⟩, decide_eq_true ⟨tagged, ?_⟩⟩
      exact page_of_block (exact_blocks.aligned block member) contains

theorem IotlbCall.named {call : IotlbCall Leaf} (mapped : before.RingMapped mmu)
    (inside : call.Inside) (ran : call.perform mmu unit before = (.ok (), after)) :
    Named before after call.asks := by
  cases call with
  | retranslate domain pages =>
      cases ran
      exact ⟨[], (List.append_nil _).symm, fun _ asked => asked.elim⟩
  | invalidateDomain domain => exact named_of_flush mapped (fun _ asked => asked) ran
  | invalidatePage domain iova granule =>
      obtain ⟨_, middle, paged, finished⟩ := Effect.bind_eq_ok.mp ran
      cases finished
      exact named_of_page mapped paged
  | invalidateRange domain start pageSize countPages =>
      obtain ⟨_, middle, ranged, finished⟩ := Effect.bind_eq_ok.mp ran
      cases finished
      exact named_of_range mapped inside ranged
  | request controller asked =>
      obtain ⟨_, middle, requested, finished⟩ := Effect.bind_eq_ok.mp ran
      cases finished
      cases asked with
      | global =>
          obtain ⟨_, last, submitted, finished⟩ := Effect.bind_eq_ok.mp requested
          cases finished
          exact Named.of_submit mapped
            (VtdQueuedInvalidationDescriptor.iotlbGlobal_reads unit.info.cap) (fun _ _ => rfl)
            submitted
      | addressSpace =>
          obtain ⟨_, last, flushed, finished⟩ := Effect.bind_eq_ok.mp requested
          cases finished
          exact named_of_flush mapped (fun _ asked => asked) flushed
      | leaf iova granule =>
          obtain ⟨_, last, paged, finished⟩ := Effect.bind_eq_ok.mp requested
          cases finished
          exact named_of_page mapped paged
      | device client => cases requested
      | deviceLeaf client iova granule => cases requested

end Named

/-- A unit's queue with the page tables of its domains, the history of its IOTLB, and the pages that
have lost a translation since a call that returned `Ok` asked for them. -/
structure IotlbLedger (QN : Nat) (Registers Leaf : Type) where
  world : QueueWorld QN Registers
  tables : Nat × Nat → Option Leaf
  history : List (Moment (Nat × Nat) Leaf)
  stale : Nat × Nat → Prop

namespace IotlbLedger

def opened (world : QueueWorld QN Registers) (tables : Nat × Nat → Option Leaf) :
    IotlbLedger QN Registers Leaf :=
  ⟨world, tables, [], fun _ => False⟩

def record (mmu : Translation) (hardware : RingHardware Registers) (backing : CommandQueueBacking)
    (unit : VtdUnit Registers) (ledger : IotlbLedger QN Registers Leaf)
    (step : Timed Registers (IotlbCall Leaf)) : IotlbLedger QN Registers Leaf :=
  let world := ledger.world.resumed step.registers
  let ran := step.call.perform mmu unit world
  let tables := step.call.translate ledger.tables
  { world := ran.2
    tables := tables
    history := ledger.history ++ .shown tables ::
      callMoments mmu (fun _ => tables) Invalidation.dropsPages (hardware.pending backing ran.2.env)
        world ran.2
    stale := fun key =>
      (ledger.stale key ∨ ledger.tables key ≠ none ∧ tables key ≠ ledger.tables key) ∧
        ¬(ran.1 = .ok () ∧ step.call.asks key) }

def after (mmu : Translation) (hardware : RingHardware Registers) (backing : CommandQueueBacking)
    (unit : VtdUnit Registers) (world : QueueWorld QN Registers) (tables : Nat × Nat → Option Leaf)
    (steps : List (Timed Registers (IotlbCall Leaf))) : IotlbLedger QN Registers Leaf :=
  steps.foldl (record mmu hardware backing unit) (opened world tables)

end IotlbLedger

theorem settles_submitted {before after : QueueWorld QN Registers}
    {source : Nat × Nat → Option Leaf} {key : Nat × Nat} {clean : Prop} {waiting : Nat}
    {keys : Nat × Nat → Prop} (mapped : before.RingMapped mmu)
    (submits : OnlySubmits mmu before after)
    (holds : clean ∨ waiting = 0 ∧ Named before after keys ∧ keys key) :
    Settles key source clean
      (callMoments mmu (fun _ => source) Invalidation.dropsPages waiting before after) := by
  obtain ⟨_, handed, events, publishes⟩ := submits mapped
  rw [callMoments, events, List.drop_left, publishes.count]
  have untouched : Untouched key source (momentsOf mmu (fun _ => source) Invalidation.dropsPages
      (handed.length - waiting) before.memory handed ++ [.shown source]) := by
    intro next member
    rcases List.mem_append.mp member with early | last
    · exact absurd early (publishes.no_shown _ _ next)
    · rw [Moment.shown.inj (List.mem_singleton.mp last)]
  rcases holds with before_clean | ⟨rfl, ⟨submitted, logged, drops⟩, asked⟩
  · exact untouched.settles before_clean
  · rw [events, Invalidation.ofEvents_append] at logged
    obtain ⟨invalidation, listed, dropped⟩ := drops key asked
    rw [← List.append_cancel_left logged] at listed
    exact settles_of_dropped untouched
      (List.mem_append_left _ (publishes.mem_dropped listed _)) dropped clean

/-- What holds of a ledger and so of every cache that went through its history. -/
structure TranslatesCoherently (mmu : Translation) (tables : Nat × Nat → Option Leaf)
    (ledger : IotlbLedger QN Registers Leaf) : Prop where
  ringMapped : ledger.world.RingMapped mmu
  shown : lastShown tables ledger.history = ledger.tables
  settled : ∀ key, ¬ledger.stale key → Settles key tables True ledger.history

theorem TranslatesCoherently.record {unit : VtdUnit Registers} {tables : Nat × Nat → Option Leaf}
    {ledger : IotlbLedger QN Registers Leaf} {step : Timed Registers (IotlbCall Leaf)}
    (serves : hardware.Serves backing unit.registers unit.registers.writeInvalidateQueueTailShared)
    (coherently : TranslatesCoherently mmu tables ledger) (inside : step.call.Inside)
    (caught : hardware.CaughtUp backing (ledger.world.resumed step.registers)) :
    TranslatesCoherently mmu tables (ledger.record mmu hardware backing unit step) := by
  obtain ⟨started, shown, settled⟩ := coherently
  have mapped : (ledger.world.resumed step.registers).RingMapped mmu := started
  have submits : OnlySubmits mmu (ledger.world.resumed step.registers)
      (step.call.perform mmu unit (ledger.world.resumed step.registers)).2 :=
    OnlySubmits.perform step.call _
  constructor
  · exact (submits mapped).1
  · rw [IotlbLedger.record, lastShown_append, lastShown, lastShown_callMoments]
  · intro key fresh
    rw [IotlbLedger.record, settles_append, shown, Settles]
    simp only [IotlbLedger.record, not_and_or, not_not, not_or] at fresh
    apply settles_submitted mapped submits
    rcases fresh with ⟨still, kept⟩ | ⟨completed, asked⟩
    · exact Or.inl ⟨settled key still, kept⟩
    · have ran : step.call.perform mmu unit (ledger.world.resumed step.registers) =
          (.ok (), (step.call.perform mmu unit (ledger.world.resumed step.registers)).2) :=
        Prod.ext completed rfl
      exact Or.inr ⟨(step.call.caughtUp serves caught ran).pending_eq,
        step.call.named mapped inside ran, asked⟩

end Iommu
