import Iommu.Vtd.Unit
import Iommu.Queue.SubmitRecovery

/-!
Hardware that consumes each descriptor as soon as its tail is written: every submission to a ring
nobody waits on succeeds, whatever unit it goes through.
-/

namespace Iommu

open MachineWord Memory CommandQueue

def TakesTail (writeTail : Nat → Effect UInt64 Error Unit) : Prop :=
  ∀ tail head, writeTail tail head = (.ok (), UInt64.ofNat tail)

theorem takesTail_exclusive : TakesTail VtdRegisterWindow.prompt.writeInvalidateQueueTail :=
  fun _ _ => rfl

theorem takesTail_shared : TakesTail VtdRegisterWindow.prompt.writeInvalidateQueueTailShared :=
  fun _ _ => rfl

section Prompt

variable {writeTail : Nat → Effect UInt64 Error Unit} {ticket : Nat} {world : QueueWorld 2 UInt64}

theorem prompt_serve (takes : TakesTail writeTail) {slot : Nat} (inside : slot < 2)
    (env : UInt64 × Except Error Unit) :
    serve (invalidationHooks .prompt writeTail) descriptorRing slot env =
      (.ok (), (UInt64.ofNat (tailAfter descriptorRing slot), .ok ())) := by
  have written : (invalidationHooks .prompt writeTail).writeTail (tailAfter descriptorRing slot) env =
      (UInt64.ofNat (tailAfter descriptorRing slot), .ok ()) := by
    simp only [invalidationHooks, takes _ env.1]
  have left : headLeft (invalidationHooks .prompt writeTail) slot descriptorRing.entryBytes
      (UInt64.ofNat (tailAfter descriptorRing slot), .ok ()) =
        (.ok true, (UInt64.ofNat (tailAfter descriptorRing slot), .ok ())) := by
    have cases : slot = 0 ∨ slot = 1 := by omega
    rcases cases with rfl | rfl
    · rfl
    · rfl
  rw [serve, Effect.bind_of_ok (Effect.modify_apply _ _), written,
    Effect.bind_of_ok (Effect.poll_of_first pollLimit_pos left)]
  rfl

def invalidationSubmission (writeTail : Nat → Effect UInt64 Error Unit)
    (descriptor : VtdQueuedInvalidationDescriptor) : Submission (UInt64 × Except Error Unit) :=
  ⟨descriptor.bytes, invalidationHooks .prompt writeTail⟩

theorem submitWithTail_prompt (takes : TakesTail writeTail)
    (descriptor : VtdQueuedInvalidationDescriptor) (clean : Clean descriptorRing ticket world)
    (small : ticket + 1 < limit) :
    ∃ after, submitWithTail id .prompt writeTail descriptor world = (.ok (), after) ∧
      Clean descriptorRing (ticket + 1) after := by
  let ran := submit id (invalidationHooks .prompt writeTail) descriptor.bytes world.withTailResult
  have opened : Clean descriptorRing ticket world.withTailResult :=
    ⟨clean.active, clean.claim, clean.committed, clean.retired, clean.slots⟩
  have served := prompt_serve takes (ticketSlot_lt descriptorRing ticket) world.withTailResult.env
  have power : descriptor.bytes.length.isPowerOfTwo := ⟨4, descriptor.bytes_length⟩
  have fits : WidthFits descriptorRing (invalidationSubmission writeTail descriptor).bytes :=
    ⟨power, Nat.le_of_eq descriptor.bytes_length⟩
  obtain ⟨returned, next, env⟩ := opened.submit_served id fits small (congrArg Prod.fst served)
  have kept : ran.2.env = (serve (invalidationHooks .prompt writeTail) descriptorRing
      (ticketSlot descriptorRing ticket) world.withTailResult.env).2 := env
  have applied : submitWithTail id .prompt writeTail descriptor world =
      (ran.2.env.2, ran.2.withEnv ran.2.env.1) := submitWithTail_returned returned
  refine ⟨ran.2.withEnv ran.2.env.1, ?_, next.active, next.claim, next.committed, next.retired,
    next.slots⟩
  rw [applied, kept, served]

theorem VtdUnit.submit_prompt {unit : VtdUnit UInt64} (prompt : unit.registers = .prompt)
    (descriptor : VtdQueuedInvalidationDescriptor) (clean : Clean descriptorRing ticket world)
    (small : ticket + 1 < limit) :
    ∃ after, unit.submitQueuedInvalidation id descriptor world = (.ok (), after) ∧
      Clean descriptorRing (ticket + 1) after := by
  rw [submitQueuedInvalidation, prompt]
  exact submitWithTail_prompt takesTail_shared descriptor clean small

theorem sampleWorld_clean : Clean descriptorRing 0 VtdUnit.sampleWorld :=
  ⟨rfl, rfl, rfl, rfl, fun _ _ => rfl⟩

end Prompt

end Iommu
