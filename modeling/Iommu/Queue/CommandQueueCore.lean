import Iommu.Backing
import Iommu.Library.Effect

/-!
The lock-free command queue as one caller executes it. Every function is the
source's, with the queue, the memory behind the ring and the state of the
caller's closures passed explicitly.
-/

namespace Iommu

open MachineWord Memory

def COMMAND_QUEUE_POLL_LIMIT : Nat := 1000000

inductive SlotState
  | empty
  | writing
  | ready
  | published
  deriving DecidableEq, Repr

/-- What the processor makes visible to hardware, in the order it happens: a store
into a descriptor table, or a tail write together with the ring entry it hands over. -/
inductive Event
  | store (vaddr : Nat) (word : UInt64)
  | publish (tail : Nat) (entry : List UInt8)
  deriving DecidableEq

/-- `N` is the software slot capacity; the hardware depth comes from the backing. -/
structure CommandQueue (N : Nat) where
  backing : Option CommandQueueBacking
  claim : Nat
  committed : Nat
  retired : Nat
  slotState : Nat → SlotState

namespace CommandQueue

variable {N : Nat} {Env : Type}

def new : CommandQueue N := ⟨none, 0, 0, 0, fun _ => .empty⟩

def init (queue : CommandQueue N) (backing : CommandQueueBacking) : Except Error (CommandQueue N) :=
  if N = 0 ∨ N < backing.entryCount then .error .invalidRange
  else .ok {
    backing := some backing
    claim := 0
    committed := 0
    retired := 0
    slotState := fun slot => if slot < backing.entryCount then .empty else queue.slotState slot
  }

def ready (backing : CommandQueueBacking) : CommandQueue N := ⟨some backing, 0, 0, 0, fun _ => .empty⟩

theorem init_new {backing : CommandQueueBacking} (capacity : backing.entryCount ≤ N) :
    (new : CommandQueue N).init backing = .ok (ready backing) := by
  have positive := backing.entryCount_pos
  rw [init, if_neg (by omega)]
  simp [ready, new]

def isActive (queue : CommandQueue N) : Bool := queue.backing.isSome

end CommandQueue

structure QueueHooks (Env : Type) where
  readHead : Effect Env Error Nat
  writeTail : Nat → Env → Env
  checkError : Effect Env Error Unit

structure QueueWorld (N : Nat) (Env : Type) where
  queue : CommandQueue N
  memory : Memory
  env : Env
  events : List Event

namespace QueueWorld

variable {N : Nat} {Env : Type}

def storeSlotState (slot : Nat) (value : SlotState) (world : QueueWorld N Env) : QueueWorld N Env :=
  { world with queue := { world.queue with
      slotState := Function.update world.queue.slotState slot value } }

def storeCommitted (next : Nat) (world : QueueWorld N Env) : QueueWorld N Env :=
  { world with queue := { world.queue with committed := next } }

end QueueWorld

def paddedEntry (entryBytes : Nat) (bytes : List UInt8) : List UInt8 :=
  (List.range entryBytes).map fun offset => bytes.getD offset 0

theorem paddedEntry_eq {entryBytes : Nat} {bytes : List UInt8} (fits : bytes.length ≤ entryBytes) :
    paddedEntry entryBytes bytes = bytes ++ List.replicate (entryBytes - bytes.length) 0 := by
  apply List.ext_getElem
  · simp [paddedEntry, Nat.add_sub_cancel' fits]
  · intro index below _
    rw [List.getElem_append]
    split
    · rename_i inside
      simp [paddedEntry, inside]
    · rename_i outside
      simp [paddedEntry, Nat.le_of_not_lt outside]

namespace CommandQueue

variable {N : Nat} {Env : Type}

def claimTicket : Effect (QueueWorld N Env) Error Nat := fun world =>
  (.ok world.queue.claim,
    { world with queue := { world.queue with claim := wrappingAdd world.queue.claim 1 } })

def waitForCapacity (ticket entryCount polls : Nat) : Effect (QueueWorld N Env) Error Unit :=
  .poll .controllerUnavailable
    (.get fun world => wrappingSub ticket world.queue.retired < entryCount) polls

def waitForEmpty (slot polls : Nat) : Effect (QueueWorld N Env) Error Unit :=
  .poll .controllerUnavailable (.get fun world => world.queue.slotState slot = .empty) polls

def waitToPublish (ticket polls : Nat) : Effect (QueueWorld N Env) Error Unit :=
  .poll .controllerUnavailable (.get fun world => world.queue.committed = ticket) polls

def callHook {Value : Type} (hook : Effect Env Error Value) :
    Effect (QueueWorld N Env) Error Value :=
  .within (fun world => world.env) (fun world env => { world with env }) hook

def headLeft (hooks : QueueHooks Env) (slot entryBytes : Nat) : Effect Env Error Bool := do
  let head ← hooks.readHead
  pure (head / entryBytes ≠ slot)

def waitForConsumed (hooks : QueueHooks Env) (slot entryBytes polls : Nat) :
    Effect (QueueWorld N Env) Error Unit :=
  .poll .controllerUnavailable (callHook (headLeft hooks slot entryBytes)) polls

/-- With a single caller the exchange loop ends after at most one successful exchange. -/
def advanceRetired (next : Nat) : Effect (QueueWorld N Env) Error Unit :=
  .modify fun world =>
    if world.queue.retired < next then
      { world with queue := { world.queue with retired := next } }
    else world

def writeSlot (mmu : Translation) (backing : CommandQueueBacking) (slot : Nat)
    (bytes : List UInt8) : Effect (QueueWorld N Env) Error Unit := do
  let vaddr ← .ofExcept (backing.entryVaddr slot)
  .modify fun world => { world with
    memory := storeBytes mmu world.memory vaddr (paddedEntry backing.entryBytes bytes) }

def ticketSlot (backing : CommandQueueBacking) (ticket : Nat) : Nat :=
  ticket &&& (backing.entryCount - 1)

def tailAfter (backing : CommandQueueBacking) (slot : Nat) : Nat :=
  ((slot + 1) &&& (backing.entryCount - 1)) * backing.entryBytes

def writeTail (hooks : QueueHooks Env) (backing : CommandQueueBacking) (slot : Nat) :
    Effect (QueueWorld N Env) Error Unit :=
  .modify fun world => { world with
    env := hooks.writeTail (tailAfter backing slot) world.env
    events := world.events ++
      [.publish (tailAfter backing slot) (backing.slotBytes world.memory slot)] }

def publishTicket (hooks : QueueHooks Env) (backing : CommandQueueBacking) (ticket : Nat) :
    Effect (QueueWorld N Env) Error Unit := do
  waitToPublish ticket COMMAND_QUEUE_POLL_LIMIT
  writeTail hooks backing (ticketSlot backing ticket)
  .modify (QueueWorld.storeSlotState (ticketSlot backing ticket) .published)
  .modify (QueueWorld.storeCommitted (wrappingAdd ticket 1))
  waitForConsumed hooks (ticketSlot backing ticket) backing.entryBytes COMMAND_QUEUE_POLL_LIMIT
  callHook hooks.checkError
  .modify (QueueWorld.storeSlotState (ticketSlot backing ticket) .empty)
  advanceRetired (wrappingAdd ticket 1)

def submitTicket (mmu : Translation) (hooks : QueueHooks Env) (backing : CommandQueueBacking)
    (bytes : List UInt8) (ticket : Nat) : Effect (QueueWorld N Env) Error Unit := do
  waitForCapacity ticket backing.entryCount COMMAND_QUEUE_POLL_LIMIT
  waitForEmpty (ticketSlot backing ticket) COMMAND_QUEUE_POLL_LIMIT
  .modify (QueueWorld.storeSlotState (ticketSlot backing ticket) .writing)
  writeSlot mmu backing (ticketSlot backing ticket) bytes
  .modify (QueueWorld.storeSlotState (ticketSlot backing ticket) .ready)
  publishTicket hooks backing ticket

def WidthFits (backing : CommandQueueBacking) (bytes : List UInt8) : Prop :=
  bytes.length.isPowerOfTwo ∧ bytes.length ≤ backing.entryBytes

instance (backing : CommandQueueBacking) (bytes : List UInt8) :
    Decidable (WidthFits backing bytes) :=
  inferInstanceAs (Decidable (_ ∧ _))

def submit (mmu : Translation) (hooks : QueueHooks Env) (bytes : List UInt8) :
    Effect (QueueWorld N Env) Error Unit := do
  let backing ← .get fun world => world.queue.backing
  match backing with
  | none => .fail .controllerUnavailable
  | some backing =>
      if WidthFits backing bytes then do
        let ticket ← claimTicket
        submitTicket mmu hooks backing bytes ticket
      else .fail .invalidGranule

theorem ticketSlot_eq (backing : CommandQueueBacking) (ticket : Nat) :
    ticketSlot backing ticket = ticket % backing.entryCount :=
  and_pred_of_isPowerOfTwo backing.countPower

theorem ticketSlot_lt (backing : CommandQueueBacking) (ticket : Nat) :
    ticketSlot backing ticket < backing.entryCount := by
  rw [ticketSlot_eq]
  exact Nat.mod_lt _ backing.entryCount_pos

theorem tailAfter_ticketSlot (backing : CommandQueueBacking) (ticket : Nat) :
    tailAfter backing (ticketSlot backing ticket) =
      ((ticket + 1) % backing.entryCount) * backing.entryBytes := by
  rw [tailAfter, and_pred_of_isPowerOfTwo backing.countPower, ticketSlot_eq, Nat.mod_add_mod]

end CommandQueue

end Iommu
