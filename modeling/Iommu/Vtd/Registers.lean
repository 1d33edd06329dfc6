import Iommu.Vtd.Descriptor
import Iommu.Queue.SubmitFrame

/-!
The register window of a remapping unit and the queue submissions that go
through it. The mapping's accessors come from the page-table crate; they are
carried as fields over an arbitrary register state.
-/

namespace Iommu

open MachineWord Memory

def REG_GCMD : Nat := 0x18
def REG_GSTS : Nat := 0x1c
def REG_FSTS : Nat := 0x34
def REG_IQH : Nat := 0x80
def REG_IQT : Nat := 0x88
def REG_IQA : Nat := 0x90

def GCMD_QIE : UInt32 := (1 : UInt32) <<< 26
def GSTS_QIES : UInt32 := (1 : UInt32) <<< 26

def QI_ENTRY_BYTES : Nat := 16
def QI_MIN_ENTRIES : Nat := 256
def IQA_SIZE_MASK : Nat := 0x7
def REGISTER_TRANSITION_POLL_LIMIT : Nat := 1000000

structure Mapping (Registers : Type) where
  range : AddrRange
  readVo32 : Nat → Effect Registers PagingError UInt32
  readVo64 : Nat → Effect Registers PagingError UInt64
  writeVo32 : Nat → UInt32 → Effect Registers PagingError Unit
  writeVo64 : Nat → UInt64 → Effect Registers PagingError Unit
  writeVolatile64 : Nat → UInt64 → Registers → Registers

structure VtdRegisterWindow (Registers : Type) where
  mapping : Mapping Registers

namespace VtdRegisterWindow

variable {Registers : Type}

def read32 (window : VtdRegisterWindow Registers) (offset : Nat) : Effect Registers Error UInt32 :=
  (window.mapping.readVo32 offset).mapError .pageTable

def write32 (window : VtdRegisterWindow Registers) (offset : Nat) (value : UInt32) :
    Effect Registers Error Unit :=
  (window.mapping.writeVo32 offset value).mapError .pageTable

def read64 (window : VtdRegisterWindow Registers) (offset : Nat) : Effect Registers Error UInt64 :=
  (window.mapping.readVo64 offset).mapError .pageTable

def write64 (window : VtdRegisterWindow Registers) (offset : Nat) (value : UInt64) :
    Effect Registers Error Unit :=
  (window.mapping.writeVo64 offset value).mapError .pageTable

def write64Shared (window : VtdRegisterWindow Registers) (offset : Nat) (value : UInt64) :
    Effect Registers Error Unit :=
  match checkedAdd offset 8 with
  | none => .fail .addressOverflow
  | some endOffset =>
      if window.mapping.range.size < endOffset then .fail .invalidRange
      else
        match checkedAdd window.mapping.range.start offset with
        | none => .fail .addressOverflow
        | some address => .modify (window.mapping.writeVolatile64 address value)

def globalStatus (window : VtdRegisterWindow Registers) : Effect Registers Error UInt32 :=
  window.read32 REG_GSTS

def globalCommand (window : VtdRegisterWindow Registers) (command : UInt32) :
    Effect Registers Error Unit :=
  window.write32 REG_GCMD command

def faultStatus (window : VtdRegisterWindow Registers) : Effect Registers Error UInt32 :=
  window.read32 REG_FSTS

def invalidateQueueHead (window : VtdRegisterWindow Registers) : Effect Registers Error Nat := do
  let head ← window.read64 REG_IQH
  pure head.toNat

def writeInvalidateQueueTail (window : VtdRegisterWindow Registers) (tail : Nat) :
    Effect Registers Error Unit :=
  window.write64 REG_IQT (UInt64.ofNat tail)

def writeInvalidateQueueTailShared (window : VtdRegisterWindow Registers) (tail : Nat) :
    Effect Registers Error Unit :=
  window.write64Shared REG_IQT (UInt64.ofNat tail)

def waitGlobalStatus (window : VtdRegisterWindow Registers) (mask expected : UInt32) :
    Effect Registers Error Unit :=
  .poll VtdError.registerTransitionTimeout.toError
    (do
      let status ← window.globalStatus
      pure (status &&& mask == expected &&& mask))
    REGISTER_TRANSITION_POLL_LIMIT

def queuedInvalidationTableAddress (backing : CommandQueueBacking) : Except Error UInt64 :=
  if backing.entryBytes ≠ QI_ENTRY_BYTES then .error .invalidGranule
  else if backing.entryCount < QI_MIN_ENTRIES ∨ ¬backing.entryCount.isPowerOfTwo then
    .error .invalidRange
  else if backing.phys.start % PageSize.size4K.bytes ≠ 0 then .error .invalidAddress
  else
    let encoded := trailingZeros (backing.entryCount / QI_MIN_ENTRIES)
    if IQA_SIZE_MASK < encoded then .error .invalidRange
    else .ok (UInt64.ofNat backing.phys.start &&& PAGE_ADDR_MASK ||| UInt64.ofNat encoded)

def setQueuedInvalidationTable (window : VtdRegisterWindow Registers)
    (backing : CommandQueueBacking) : Effect Registers Error Unit := do
  let iqa ← .ofExcept (queuedInvalidationTableAddress backing)
  window.write64 REG_IQA iqa
  window.write64 REG_IQT 0

def setQueuedInvalidationEnabled (window : VtdRegisterWindow Registers) (enabled : Bool) :
    Effect Registers Error Unit := do
  let status ← window.globalStatus
  window.globalCommand (if enabled then status ||| GCMD_QIE else status &&& ~~~GCMD_QIE)
  window.waitGlobalStatus GSTS_QIES (if enabled then GSTS_QIES else 0)

/-- Registers that only keep the tail; the head always equals it, so no descriptor waits, and the
status always shows the queue enabled. -/
def prompt : VtdRegisterWindow UInt64 where
  mapping := {
    range := .fromStartSize 0xfed90000 0x1000 registerPage_bounded
    readVo32 := fun _ => pure GSTS_QIES
    readVo64 := fun _ => .get id
    writeVo32 := fun _ _ => pure ()
    writeVo64 := fun _ value => .modify fun _ => value
    writeVolatile64 := fun _ value _ => value
  }

end VtdRegisterWindow

section Submission

variable {QN : Nat} {Registers : Type}

def VtdQueuedInvalidationDescriptor.submitTo {Env : Type} (mmu : Translation)
    (hooks : QueueHooks Env) (descriptor : VtdQueuedInvalidationDescriptor) :
    Effect (QueueWorld QN Env) Error Unit :=
  CommandQueue.submit mmu hooks descriptor.bytes

/-- The closures of a submission; the captured `tail_result` travels beside the registers. -/
def invalidationHooks (window : VtdRegisterWindow Registers)
    (writeTail : Nat → Effect Registers Error Unit) :
    QueueHooks (Registers × Except Error Unit) where
  readHead := .within Prod.fst (fun env registers => (registers, env.2)) window.invalidateQueueHead
  writeTail tail env := let (result, registers) := writeTail tail env.1; (registers, result)
  checkError := .within Prod.fst (fun env registers => (registers, env.2)) do
    let _ ← window.faultStatus
    pure ()

def QueueWorld.withEnv {Env Other : Type} (world : QueueWorld QN Env) (env : Other) :
    QueueWorld QN Other :=
  ⟨world.queue, world.memory, env, world.events⟩

def QueueWorld.withTailResult (world : QueueWorld QN Registers) :
    QueueWorld QN (Registers × Except Error Unit) :=
  world.withEnv (world.env, .ok ())

def submitWithTail (mmu : Translation) (window : VtdRegisterWindow Registers)
    (writeTail : Nat → Effect Registers Error Unit) (descriptor : VtdQueuedInvalidationDescriptor) :
    Effect (QueueWorld QN Registers) Error Unit :=
  .within QueueWorld.withTailResult (fun _ after => after.withEnv after.env.1) do
    descriptor.submitTo mmu (invalidationHooks window writeTail)
    let tailResult ← .get fun world => world.env.2
    .ofExcept tailResult

def VtdRegisterWindow.submitQueuedInvalidation (mmu : Translation)
    (window : VtdRegisterWindow Registers) (descriptor : VtdQueuedInvalidationDescriptor) :
    Effect (QueueWorld QN Registers) Error Unit :=
  submitWithTail mmu window window.writeInvalidateQueueTail descriptor

variable {mmu : Translation} {window : VtdRegisterWindow Registers}
  {writeTail : Nat → Effect Registers Error Unit} {descriptor : VtdQueuedInvalidationDescriptor}

theorem submitWithTail_apply (world : QueueWorld QN Registers) :
    submitWithTail mmu window writeTail descriptor world =
      let ran := CommandQueue.submit mmu (invalidationHooks window writeTail) descriptor.bytes
        world.withTailResult
      (match ran.1 with
        | .ok () => ran.2.env.2
        | .error error => .error error, ran.2.withEnv ran.2.env.1) := by
  rw [submitWithTail, Effect.within_apply, Effect.bind_apply,
    VtdQueuedInvalidationDescriptor.submitTo]
  rcases CommandQueue.submit mmu (invalidationHooks window writeTail) descriptor.bytes
    world.withTailResult with ⟨outcome, after⟩
  cases outcome with
  | error error => rfl
  | ok value => rfl

theorem submitWithTail_returned {world : QueueWorld QN Registers}
    (returned : (CommandQueue.submit mmu (invalidationHooks window writeTail) descriptor.bytes
      world.withTailResult).1 = .ok ()) :
    submitWithTail mmu window writeTail descriptor world =
      let after := (CommandQueue.submit mmu (invalidationHooks window writeTail) descriptor.bytes
        world.withTailResult).2
      (after.env.2, after.withEnv after.env.1) := by
  rw [submitWithTail_apply]
  dsimp only
  rw [returned]

theorem submitWithTail_ringOnly {world : QueueWorld QN Registers} (mapped : world.RingMapped mmu) :
    world.RingOnly (submitWithTail mmu window writeTail descriptor world).2 := by
  have opened : world.withTailResult.RingMapped mmu := mapped
  have frame := CommandQueue.submit_ringOnly (invalidationHooks window writeTail) descriptor.bytes
    opened
  rw [submitWithTail_apply]
  exact ⟨frame.ring, frame.memory⟩

/-- A submission hands the hardware its own descriptor or nothing; when it returns `Ok` it has done so. -/
theorem submitWithTail_events {world : QueueWorld QN Registers} (mapped : world.RingMapped mmu) :
    ∃ handed, (submitWithTail mmu window writeTail descriptor world).2.events = world.events ++ handed ∧
      (Invalidation.ofEvents handed = [descriptor.reads] ∨
        handed = [] ∧ (submitWithTail mmu window writeTail descriptor world).1 ≠ .ok ()) := by
  have opened : world.withTailResult.RingMapped mmu := mapped
  rw [submitWithTail_apply]
  rcases CommandQueue.submit_events (invalidationHooks window writeTail) descriptor.bytes opened with
    ⟨tail, padding, events⟩ | ⟨events, failed⟩
  · refine ⟨_, events, Or.inl ?_⟩
    simp [Invalidation.ofEvents, VtdQueuedInvalidationDescriptor.ofEntry_bytes]
  · refine ⟨[], events.trans (List.append_nil _).symm, Or.inr ⟨rfl, ?_⟩⟩
    dsimp only
    cases outcome : (CommandQueue.submit mmu (invalidationHooks window writeTail) descriptor.bytes
      world.withTailResult).1 with
    | ok value => exact absurd outcome failed
    | error error => simp

theorem submitWithTail_ok_events {world after : QueueWorld QN Registers}
    (mapped : world.RingMapped mmu)
    (ran : submitWithTail mmu window writeTail descriptor world = (.ok (), after)) :
    ∃ handed, after.events = world.events ++ handed ∧
      Invalidation.ofEvents handed = [descriptor.reads] := by
  obtain ⟨handed, events, reads | ⟨_, failed⟩⟩ := submitWithTail_events mapped
  · rw [ran] at events
    exact ⟨handed, events, reads⟩
  · rw [ran] at failed
    exact absurd rfl failed

end Submission

end Iommu
