import Iommu.Queue.CommandQueueCore
import Iommu.Library.Transition

/-!
Concurrent `submit` calls on one initialised queue, against the hardware that
drains the ring. Each transition is one atomic access of one call, one move of
the hardware head, or the start of a call; any interleaving of them is a run.
-/

namespace Iommu

open MachineWord Memory CommandQueue

/-- The next atomic access of a call. Poll loops carry the polls they have left. -/
inductive SubmitPhase
  | waitForCapacity (polls : Nat)
  | waitForEmpty (polls : Nat)
  | storeWriting
  | writeSlot (vaddr offset : Nat)
  | storeReady
  | waitToPublish (polls : Nat)
  | writeTail
  | storePublished
  | storeCommitted
  | waitForConsumed (polls : Nat)
  | checkError
  | storeEmpty
  | loadRetired
  | exchangeRetired (current : Nat)
  | returned (outcome : Except Error Unit)
  deriving DecidableEq

/-- `holdsSlot` records that the call has passed `wait_for_empty` and has not yet
stored EMPTY; the code keeps no such flag and never reads it. -/
structure SubmitCall where
  ticket : Nat
  bytes : List UInt8
  phase : SubmitPhase
  holdsSlot : Bool
  deriving DecidableEq

structure TailWrite where
  ticket : Nat
  value : Nat
  entry : List UInt8
  deriving DecidableEq

structure RingState (N : Nat) where
  queue : CommandQueue N
  memory : Memory
  tail : Nat
  consumed : Nat
  calls : List SubmitCall
  tailWrites : List TailWrite

inductive SubmitAction
  | submit (bytes : List UInt8)
  | access (call : Nat) (fault : Option Error) (spurious : Bool)
  | consume

namespace RingState

variable {N : Nat}

def initial (queue : CommandQueue N) (memory : Memory) : RingState N :=
  ⟨queue, memory, 0, 0, [], []⟩

def head (backing : CommandQueueBacking) (state : RingState N) : Nat :=
  (state.consumed % backing.entryCount) * backing.entryBytes

def storeSlotState (slot : Nat) (value : SlotState) (state : RingState N) : RingState N :=
  { state with queue := { state.queue with
      slotState := Function.update state.queue.slotState slot value } }

def storeCommitted (next : Nat) (state : RingState N) : RingState N :=
  { state with queue := { state.queue with committed := next } }

def storeRetired (next : Nat) (state : RingState N) : RingState N :=
  { state with queue := { state.queue with retired := next } }

def writeTail (backing : CommandQueueBacking) (ticket : Nat) (state : RingState N) : RingState N :=
  let value := tailAfter backing (ticketSlot backing ticket)
  { state with
    tail := value
    tailWrites := state.tailWrites ++
      [⟨ticket, value, backing.slotBytes state.memory (ticketSlot backing ticket)⟩] }

end RingState

namespace SubmitCall

variable {N : Nat}

def moveTo (phase : SubmitPhase) (call : SubmitCall) : SubmitCall := { call with phase }

def giveUp (error : Error) (call : SubmitCall) : SubmitCall :=
  call.moveTo (.returned (.error error))

/-- One atomic access of a call: the shared state after it and the call after it. `fault` is the
error a closure returns, if any; `spurious` makes the weak exchange fail although it need not. -/
def access (mmu : Translation) (backing : CommandQueueBacking) (state : RingState N)
    (call : SubmitCall) (fault : Option Error) (spurious : Bool) : RingState N × SubmitCall :=
  let slot := ticketSlot backing call.ticket
  match call.phase with
  | .waitForCapacity 0 => (state, call.giveUp .controllerUnavailable)
  | .waitForCapacity (polls + 1) =>
      if wrappingSub call.ticket state.queue.retired < backing.entryCount then
        (state, call.moveTo (.waitForEmpty COMMAND_QUEUE_POLL_LIMIT))
      else (state, call.moveTo (.waitForCapacity polls))
  | .waitForEmpty 0 => (state, call.giveUp .controllerUnavailable)
  | .waitForEmpty (polls + 1) =>
      if state.queue.slotState slot = .empty then
        (state, { call with phase := .storeWriting, holdsSlot := true })
      else (state, call.moveTo (.waitForEmpty polls))
  | .storeWriting =>
      match backing.entryVaddr slot with
      | .error error => (state.storeSlotState slot .writing, call.giveUp error)
      | .ok vaddr => (state.storeSlotState slot .writing, call.moveTo (.writeSlot vaddr 0))
  | .writeSlot vaddr offset =>
      ({ state with
          memory := storeByte mmu state.memory (vaddr + offset) (call.bytes.getD offset 0) },
        call.moveTo (if offset + 1 < backing.entryBytes then .writeSlot vaddr (offset + 1)
          else .storeReady))
  | .storeReady =>
      (state.storeSlotState slot .ready, call.moveTo (.waitToPublish COMMAND_QUEUE_POLL_LIMIT))
  | .waitToPublish 0 => (state, call.giveUp .controllerUnavailable)
  | .waitToPublish (polls + 1) =>
      if state.queue.committed = call.ticket then (state, call.moveTo .writeTail)
      else (state, call.moveTo (.waitToPublish polls))
  | .writeTail => (state.writeTail backing call.ticket, call.moveTo .storePublished)
  | .storePublished => (state.storeSlotState slot .published, call.moveTo .storeCommitted)
  | .storeCommitted =>
      (state.storeCommitted (wrappingAdd call.ticket 1),
        call.moveTo (.waitForConsumed COMMAND_QUEUE_POLL_LIMIT))
  | .waitForConsumed 0 => (state, call.giveUp .controllerUnavailable)
  | .waitForConsumed (polls + 1) =>
      match fault with
      | some error => (state, call.giveUp error)
      | none =>
          if state.head backing / backing.entryBytes ≠ slot then (state, call.moveTo .checkError)
          else (state, call.moveTo (.waitForConsumed polls))
  | .checkError =>
      match fault with
      | some error => (state, call.giveUp error)
      | none => (state, call.moveTo .storeEmpty)
  | .storeEmpty =>
      (state.storeSlotState slot .empty, { call with phase := .loadRetired, holdsSlot := false })
  | .loadRetired => (state, call.moveTo (.exchangeRetired state.queue.retired))
  | .exchangeRetired current =>
      if current < wrappingAdd call.ticket 1 then
        if spurious = false ∧ state.queue.retired = current then
          (state.storeRetired (wrappingAdd call.ticket 1), call.moveTo (.returned (.ok ())))
        else (state, call.moveTo (.exchangeRetired state.queue.retired))
      else (state, call.moveTo (.returned (.ok ())))
  | .returned _ => (state, call)

end SubmitCall

namespace RingState

variable {N : Nat}

def setCall (id : Nat) (outcome : RingState N × SubmitCall) : RingState N :=
  { outcome.1 with calls := outcome.1.calls.set id outcome.2 }

/-- One transition. The hardware head moves only while it differs from the written tail. -/
def step (mmu : Translation) (backing : CommandQueueBacking) (state : RingState N) :
    SubmitAction → Option (RingState N)
  | .submit bytes =>
      if WidthFits backing bytes then
        some { state with
          queue := { state.queue with claim := wrappingAdd state.queue.claim 1 }
          calls := state.calls ++
            [⟨state.queue.claim, bytes, .waitForCapacity COMMAND_QUEUE_POLL_LIMIT, false⟩] }
      else some state
  | .access id fault spurious =>
      (state.calls[id]?).map fun call =>
        setCall id (call.access mmu backing state fault spurious)
  | .consume =>
      if state.head backing ≠ state.tail then some { state with consumed := state.consumed + 1 }
      else none

end RingState

end Iommu
