import Iommu.Vtd.FaultPolling
import Iommu.Vtd.GlobalCommand

/-!
The error check of a queued invalidation: a submission that returns `Ok` has read the fault
status last, and no value it can read there makes the submission fail.
-/

namespace Iommu

open MachineWord Memory CommandQueue

def invalidationErrors : UInt32 := FSTS_IQE ||| FSTS_ICE ||| FSTS_ITE

def SubmitPath (QN : Nat) : Type 1 :=
  ∀ Registers : Type, VtdRegisterWindow Registers → Effect (QueueWorld QN Registers) Error Unit

/-- Whatever the registers do, the fault status read last before `Ok` shows no queue error. -/
def SuccessMeansNoError {QN : Nat} (path : SubmitPath QN) (world : QueueWorld QN Unit) : Prop :=
  ∀ (Registers : Type) (window : VtdRegisterWindow Registers) (registers : Registers) after,
    path _ window.traced (world.withEnv (registers, [])) = (.ok (), after) →
      ∃ accesses status, after.env.2 = accesses ++ [.read32 REG_FSTS (.ok status)] ∧
        status &&& invalidationErrors = 0

section Paths

variable {QN : Nat} {Registers : Type} {mmu : Translation} {window : VtdRegisterWindow Registers}
  {writeTail : Nat → Effect (Registers × List RegisterAccess) Error Unit}
  {descriptor : VtdQueuedInvalidationDescriptor}

theorem checkError_reads {start after : (Registers × List RegisterAccess) × Except Error Unit}
    (checked : (invalidationHooks window.traced writeTail).checkError start = (.ok (), after)) :
    ∃ status, after.1.2 = start.1.2 ++ [.read32 REG_FSTS (.ok status)] := by
  have reading : (invalidationHooks window.traced writeTail).checkError =
      Effect.within Prod.fst (fun env registers => (registers, env.2))
        (window.traced.faultStatus >>= fun _ => pure ()) := rfl
  rw [reading] at checked
  obtain ⟨left, read, rfl⟩ := Effect.within_eq_ok.mp checked
  obtain ⟨status, middle, shown, finished⟩ := Effect.bind_eq_ok.mp read
  rw [Effect.pure_apply] at finished
  cases finished
  have raw := Effect.mapError_eq_ok.mp shown
  refine ⟨status, ?_⟩
  have noted := congrArg (fun result => result.2.2) raw
  have outcome := congrArg Prod.fst raw
  dsimp only at noted outcome
  rw [← noted, ← outcome]
  rfl

/-- The last access of a submission that returns `Ok` is a read of the fault status. -/
theorem submitWithTail_ok_reads {world after : QueueWorld QN (Registers × List RegisterAccess)}
    (ran : submitWithTail mmu window.traced writeTail descriptor world = (.ok (), after)) :
    (∃ backing, world.queue.Accepts backing descriptor.bytes) ∧
      ∃ accesses status, after.env.2 = accesses ++ [.read32 REG_FSTS (.ok status)] := by
  rw [submitWithTail_apply] at ran
  cases returned : (submit mmu (invalidationHooks window.traced writeTail) descriptor.bytes
      world.withTailResult).1 with
  | error error =>
      simp only [returned] at ran
      cases ran
  | ok value =>
      obtain ⟨backing, accepts, served⟩ := submit_ok_serves returned
      rw [serve] at served
      obtain ⟨_, _, _, polled⟩ := Effect.bind_eq_ok.mp served
      obtain ⟨_, middle, _, checked⟩ := Effect.bind_eq_ok.mp polled
      obtain ⟨status, noted⟩ := checkError_reads checked
      have final := congrArg (fun result => result.2.env) ran
      refine ⟨⟨backing, accepts⟩, middle.1.2, status, ?_⟩
      rw [← noted, ← final]
      rfl

end Paths

def raisingRange : AddrRange := .fromStartSize 0xfed90000 0x1000 registerPage_bounded

def raisingWindow (head : UInt64) : VtdRegisterWindow Unit where
  mapping := {
    range := raisingRange
    readVo32 := fun _ => pure FSTS_IQE
    readVo64 := fun _ => pure head
    writeVo32 := fun _ _ => pure ()
    writeVo64 := fun _ _ => pure ()
    writeVolatile64 := fun _ _ _ => ()
  }

section Raising

variable {QN : Nat} {head : UInt64}
  {writeTail : Nat → Effect (Unit × List RegisterAccess) Error Unit}

theorem exists_head_left (backing : CommandQueueBacking) (slot : Nat) :
    ∃ head : UInt64, head.toNat / backing.entryBytes ≠ slot := by
  by_cases first : slot = 0
  · have positive := backing.entryBytes_pos
    have bounded : backing.entryBytes < limit :=
      Nat.lt_of_le_of_lt (Nat.le_mul_of_pos_left _ backing.entryCount_pos) backing.sizeBound
    refine ⟨UInt64.ofNat backing.entryBytes, ?_⟩
    rw [UInt64.toNat_ofNat_of_lt' bounded, Nat.div_self positive, first]
    exact Nat.one_ne_zero
  · refine ⟨0, ?_⟩
    rw [UInt64.toNat_zero, Nat.zero_div]
    exact fun zero => first zero.symm

theorem raising_writeTail (head : UInt64) (tail : Nat) (start : Unit × List RegisterAccess) :
    ∃ accesses, (raisingWindow head).traced.writeInvalidateQueueTail tail start =
      (.ok (), ((), accesses)) :=
  ⟨_, rfl⟩

theorem raising_writeTailShared (head : UInt64) (tail : Nat) (start : Unit × List RegisterAccess) :
    ∃ accesses, (raisingWindow head).traced.writeInvalidateQueueTailShared tail start =
      (.ok (), ((), accesses)) := by
  have ending : checkedAdd REG_IQT 8 = some 0x90 := by decide
  have range : (raisingWindow head).traced.mapping.range = raisingRange := rfl
  have inside : ¬raisingRange.size < 0x90 := by decide
  have address : checkedAdd raisingRange.start REG_IQT = some 0xfed90088 := by decide
  rw [VtdRegisterWindow.writeInvalidateQueueTailShared, VtdRegisterWindow.write64Shared, ending]
  dsimp only
  rw [range, if_neg inside, address]
  exact ⟨_, rfl⟩

theorem serve_raising (writes : ∀ tail start, ∃ accesses, writeTail tail start = (.ok (), ((), accesses)))
    {backing : CommandQueueBacking} {slot : Nat} (left : head.toNat / backing.entryBytes ≠ slot)
    (start : (Unit × List RegisterAccess) × Except Error Unit) :
    ∃ accesses, serve (invalidationHooks (raisingWindow head).traced writeTail) backing slot start =
      (.ok (), (((), accesses ++ [.read32 REG_FSTS (.ok FSTS_IQE)]), .ok ())) := by
  obtain ⟨accesses, wrote⟩ := writes (tailAfter backing slot) start.1
  have written : (invalidationHooks (raisingWindow head).traced writeTail).writeTail
      (tailAfter backing slot) start = (((), accesses), .ok ()) := by
    simp only [invalidationHooks, wrote]
  have sampled : headLeft (invalidationHooks (raisingWindow head).traced writeTail) slot
      backing.entryBytes (((), accesses), .ok ()) =
        (.ok (decide (head.toNat / backing.entryBytes ≠ slot)),
          (((), accesses ++ [.read64 REG_IQH (.ok head)]), .ok ())) := rfl
  rw [decide_eq_true left] at sampled
  refine ⟨accesses ++ [.read64 REG_IQH (.ok head)], ?_⟩
  rw [serve, Effect.bind_of_ok (Effect.modify_apply _ _), written,
    Effect.bind_of_ok (Effect.poll_of_first pollLimit_pos sampled)]
  rfl

theorem submitWithTail_raising (mmu : Translation) {descriptor : VtdQueuedInvalidationDescriptor}
    {world : QueueWorld QN (Unit × List RegisterAccess)} {backing : CommandQueueBacking}
    (accepts : world.queue.Accepts backing descriptor.bytes)
    (writes : ∀ tail start, ∃ accesses, writeTail tail start = (.ok (), ((), accesses)))
    (left : head.toNat / backing.entryBytes ≠ ticketSlot backing world.queue.claim) :
    ∃ after accesses, submitWithTail mmu (raisingWindow head).traced writeTail descriptor world =
        (.ok (), after) ∧
      after.env.2 = accesses ++ [.read32 REG_FSTS (.ok FSTS_IQE)] := by
  have opened : world.withTailResult.queue.Accepts backing descriptor.bytes :=
    ⟨accepts.active, accepts.fits, accepts.capacity, accepts.empty, accepts.turn⟩
  obtain ⟨accesses, served⟩ := serve_raising writes left world.withTailResult.env
  obtain ⟨returned, env⟩ := opened.submit_ok mmu served
  rw [submitWithTail_apply]
  simp only [returned, env]
  exact ⟨_, accesses, rfl, rfl⟩

end Raising

theorem successMeansNoError_iff (mmu : Translation) {QN : Nat}
    (descriptor : VtdQueuedInvalidationDescriptor) (world : QueueWorld QN Unit) {path : SubmitPath QN}
    (writeTail : ∀ Registers, VtdRegisterWindow Registers → Nat → Effect Registers Error Unit)
    (through : ∀ Registers window, path Registers window =
      submitWithTail mmu window (writeTail Registers window) descriptor)
    (writes : ∀ head tail start, ∃ accesses,
      writeTail _ (raisingWindow head).traced tail start = (.ok (), ((), accesses))) :
    SuccessMeansNoError path world ↔ ¬∃ backing, world.queue.Accepts backing descriptor.bytes := by
  constructor
  · rintro checked ⟨backing, accepts⟩
    obtain ⟨head, left⟩ := exists_head_left backing (ticketSlot backing world.queue.claim)
    have opened : (world.withEnv (((), []) : Unit × List RegisterAccess)).queue.Accepts backing
        descriptor.bytes := accepts
    obtain ⟨after, accesses, ran, noted⟩ :=
      submitWithTail_raising mmu opened (writes head) left
    rw [← through] at ran
    obtain ⟨others, status, last, clear⟩ := checked Unit (raisingWindow head) () after ran
    rw [noted] at last
    have same := (List.append_inj' last rfl).2
    simp only [List.cons.injEq, RegisterAccess.read32.injEq, Except.ok.injEq, true_and, and_true] at same
    rw [← same] at clear
    exact absurd clear (by decide)
  · intro refused Registers window registers after ran
    rw [through] at ran
    exact absurd (submitWithTail_ok_reads ran).1 refused

/-- No queue error stops a submission: both paths meet the check exactly where the ring refuses the
descriptor, so that neither returns `Ok` at all. -/
theorem queue_errors_seen_iff (mmu : Translation) {QN : Nat}
    (descriptor : VtdQueuedInvalidationDescriptor) (world : QueueWorld QN Unit) :
    (SuccessMeansNoError (fun _ window => window.submitQueuedInvalidation mmu descriptor) world ↔
      ¬∃ backing, world.queue.Accepts backing descriptor.bytes) ∧
    ∀ (Other : Type) (unit : VtdUnit Other),
      (SuccessMeansNoError
          (fun _ window => (unit.through window).submitQueuedInvalidation mmu descriptor) world ↔
        ¬∃ backing, world.queue.Accepts backing descriptor.bytes) := by
  constructor
  · exact successMeansNoError_iff mmu descriptor world
      (fun _ window => window.writeInvalidateQueueTail) (fun _ _ => rfl) raising_writeTail
  · intro Other unit
    exact successMeansNoError_iff mmu descriptor world
      (fun _ window => window.writeInvalidateQueueTailShared) (fun _ _ => rfl) raising_writeTailShared

def restingWorld : QueueWorld 2 Unit := ⟨.ready descriptorRing, fun _ => 0, (), []⟩

theorem restingWorld_accepts (descriptor : VtdQueuedInvalidationDescriptor) :
    restingWorld.queue.Accepts descriptorRing descriptor.bytes := by
  have power : descriptor.bytes.length.isPowerOfTwo := ⟨4, descriptor.bytes_length⟩
  exact ⟨rfl, ⟨power, Nat.le_of_eq descriptor.bytes_length⟩, by decide, rfl, rfl⟩

/-- A flush of every domain returns `Ok` with the queue error set. -/
theorem queue_error_ignored :
    ∃ after accesses,
      (VtdUnit.sample.through (raisingWindow 16).traced).submitQueuedInvalidation id
          (.iotlbGlobal VtdUnit.sample.info.cap) (restingWorld.withEnv ((), [])) = (.ok (), after) ∧
        after.env.2 = accesses ++ [.read32 REG_FSTS (.ok FSTS_IQE)] ∧
        FSTS_IQE &&& invalidationErrors ≠ 0 ∧
        ¬SuccessMeansNoError (fun _ window => (VtdUnit.sample.through window).submitQueuedInvalidation id
          (.iotlbGlobal VtdUnit.sample.info.cap)) restingWorld ∧
        ¬SuccessMeansNoError (fun _ window => window.submitQueuedInvalidation id
          (.iotlbGlobal VtdUnit.sample.info.cap)) restingWorld := by
  have accepts := restingWorld_accepts (.iotlbGlobal VtdUnit.sample.info.cap)
  have opened : (restingWorld.withEnv (((), []) : Unit × List RegisterAccess)).queue.Accepts
      descriptorRing (VtdQueuedInvalidationDescriptor.iotlbGlobal VtdUnit.sample.info.cap).bytes := accepts
  have left : (16 : UInt64).toNat / descriptorRing.entryBytes ≠ ticketSlot descriptorRing 0 := by decide
  obtain ⟨after, accesses, ran, noted⟩ := submitWithTail_raising id opened
    (raising_writeTailShared 16) left
  refine ⟨after, accesses, ran, noted, by decide, fun checked => ?_, fun checked => ?_⟩
  · exact (successMeansNoError_iff id _ restingWorld (fun _ window => window.writeInvalidateQueueTailShared)
      (fun _ _ => rfl) raising_writeTailShared).mp checked ⟨descriptorRing, accepts⟩
  · exact (successMeansNoError_iff id _ restingWorld (fun _ window => window.writeInvalidateQueueTail)
      (fun _ _ => rfl) raising_writeTail).mp checked ⟨descriptorRing, accepts⟩

end Iommu
