import Iommu.Vtd.Machine
import Iommu.Vtd.Submitting

/-!
The states a unit can get into: every call its owner can make, failing or not, and
everything that can happen in between. Only `init` sets the ring, so the safety
contract of an installed ring holds in all of them.
-/

namespace Iommu

open MachineWord Memory

variable {QN : Nat} {Registers : Type} {mmu : Translation}

/-- Everything that can happen between the construction of a unit and a later call. -/
inductive VtdCall (QN : Nat) (Registers : Type)
  | route (call : RouteCall)
  | installQueuedInvalidation (backing : CommandQueueBacking)
  | installInterruptRemapTable (table : VtdInterruptRemapTableBacking)
  | invalidate (controller : VtdDomainController) (request : Invalidate)
  | invalidateRange (domain : VtdIoDomain) (start : UInt64) (pageSize : PageSize) (countPages : Nat)
  | composeInterruptRemap (table : VtdInterruptRemapTableBacking) (entry : VtdInterruptEntry)
      (subhandle : UInt16) (remap : VtdInterruptRemapEntry)
  -- the hardware, the other threads, the other register operations, direct table writes:
  -- nothing but `init` ever sets the ring
  | elsewhere (change : QueueWorld QN Registers → QueueWorld QN Registers)

namespace VtdCall

def after (mmu : Translation) (machine : VtdMachine QN Registers) :
    VtdCall QN Registers → VtdMachine QN Registers
  | route call => (call.perform mmu machine).2
  | installQueuedInvalidation backing =>
      ⟨machine.unit, (machine.unit.installQueuedInvalidation backing machine.world).2⟩
  | installInterruptRemapTable table =>
      ⟨machine.unit.installInterruptRemapTable table, machine.world⟩
  | invalidate controller request =>
      ⟨machine.unit, (controller.invalidate mmu machine.unit request machine.world).2⟩
  | invalidateRange domain start pageSize countPages =>
      ⟨machine.unit,
        (machine.unit.invalidateIotlbRange mmu domain start pageSize countPages machine.world).2⟩
  | composeInterruptRemap table entry subhandle remap =>
      ⟨machine.unit, (machine.unit.registers.composeInterruptRemap mmu table entry subhandle remap
        machine.world).2⟩
  | elsewhere change =>
      let world := change machine.world
      ⟨machine.unit,
        { world with queue := { world.queue with backing := machine.world.queue.backing } }⟩

def step (mmu : Translation) (machine : VtdMachine QN Registers) (call : VtdCall QN Registers) :
    Option (VtdMachine QN Registers) :=
  some (call.after mmu machine)

/-- The safety contract of the constructor of a ring that is installed. -/
def Contract (mmu : Translation) : VtdCall QN Registers → Prop
  | installQueuedInvalidation backing => backing.Mapped mmu
  | _ => True

end VtdCall

/-- Whatever the outcome, a ring within its safety contract stays within it. -/
def KeepsRing {Value : Type} (mmu : Translation)
    (effect : Effect (QueueWorld QN Registers) Error Value) : Prop :=
  effect.Respects fun before after => before.RingMapped mmu → after.RingMapped mmu

namespace KeepsRing

variable {Value Result : Type}

theorem pure (value : Value) :
    KeepsRing mmu (Pure.pure value : Effect (QueueWorld QN Registers) Error Value) :=
  Effect.Respects.pure (fun _ mapped => mapped) value

theorem fail (error : Error) :
    KeepsRing mmu (Effect.fail error : Effect (QueueWorld QN Registers) Error Value) :=
  Effect.Respects.fail (fun _ mapped => mapped) error

theorem ofExcept (outcome : Except Error Value) :
    KeepsRing mmu (Effect.ofExcept outcome : Effect (QueueWorld QN Registers) Error Value) :=
  Effect.Respects.ofExcept (fun _ mapped => mapped) outcome

theorem bind {first : Effect (QueueWorld QN Registers) Error Value}
    {next : Value → Effect (QueueWorld QN Registers) Error Result}
    (before : KeepsRing mmu first) (after : ∀ value, KeepsRing mmu (next value)) :
    KeepsRing mmu (first >>= next) :=
  Effect.Respects.bind (fun _ _ _ early late mapped => late (early mapped)) before after

theorem write128 (vaddr : Nat) (low high : UInt64) :
    KeepsRing mmu (write128 mmu vaddr low high : Effect (QueueWorld QN Registers) Error Unit) := by
  intro world mapped
  rw [write128_apply]
  exact mapped

theorem submitWithTail (window : VtdRegisterWindow Registers)
    (writeTail : Nat → Effect Registers Error Unit) (descriptor : VtdQueuedInvalidationDescriptor) :
    KeepsRing mmu (submitWithTail mmu window writeTail descriptor :
      Effect (QueueWorld QN Registers) Error Unit) := by
  intro world mapped
  exact mapped.congr (submitWithTail_ringOnly mapped).ring

theorem onRegisters (effect : Effect Registers Error Value) :
    KeepsRing mmu (VtdUnit.onRegisters effect : Effect (QueueWorld QN Registers) Error Value) :=
  fun _ mapped => mapped

variable {unit : VtdUnit Registers}

theorem of_submitting {effect : Effect (QueueWorld QN Registers) Error Value}
    (made : Submitting mmu unit effect) : KeepsRing mmu effect :=
  made.respects (fun _ mapped => mapped) (fun _ _ _ early late mapped => late (early mapped))
    fun _ => submitWithTail _ _ _

theorem composeInterruptRemap (window : VtdRegisterWindow Registers)
    (table : VtdInterruptRemapTableBacking) (entry : VtdInterruptEntry) (subhandle : UInt16)
    (remap : VtdInterruptRemapEntry) :
    KeepsRing mmu (window.composeInterruptRemap mmu table entry subhandle remap :
      Effect (QueueWorld QN Registers) Error VtdRemappedMsi) := by
  apply bind (bind (ofExcept _) fun vaddr => write128 vaddr _ _)
  intro _
  exact bind (submitWithTail _ _ _) fun _ => pure _

theorem installQueuedInvalidation {backing : CommandQueueBacking} (contract : backing.Mapped mmu) :
    KeepsRing mmu (unit.installQueuedInvalidation backing :
      Effect (QueueWorld QN Registers) Error Unit) := by
  apply bind (ofExcept _)
  intro _ world mapped
  rw [Effect.bind_of_ok (Effect.get_apply _ world)]
  cases installed : world.queue.init backing with
  | error error => exact mapped
  | ok queue =>
      have ring : queue.backing = some backing := by
        rw [CommandQueue.init] at installed
        split at installed
        · contradiction
        · rw [← Except.ok.inj installed]
      have ready : QueueWorld.RingMapped mmu { world with queue } := by
        intro found active
        obtain rfl := Option.some.inj (ring.symm.trans active)
        exact contract
      exact bind (onRegisters _) (fun _ => onRegisters _) _ ready

theorem installContextTable (unit : VtdUnit Registers) (bus : UInt8) (table : VtdContextTableBacking) :
    KeepsRing mmu (unit.installContextTable mmu bus table :
      Effect (QueueWorld QN Registers) Error (VtdUnit Registers)) := by
  apply bind (ofExcept _)
  intro entry
  apply bind (bind (ofExcept _) fun vaddr => write128 vaddr _ _)
  intro _
  exact pure _

theorem replaceAfter (domain : VtdDomain) (client : PciDevice)
    (prepared : Except Error (VtdContextTableBacking × VtdContextEntry)) :
    KeepsRing mmu (unit.replaceAfter mmu domain client prepared :
      Effect (QueueWorld QN Registers) Error Unit) := by
  cases prepared with
  | error error => exact fail error
  | ok replacement =>
      intro world mapped
      have written : (world.writeEntry mmu (replacement.1.clientVaddr client) replacement.2.low
        replacement.2.high).RingMapped mmu := mapped
      exact written.congr (VtdUnit.replaceContext_ringOnly mapped).ring

end KeepsRing

theorem RouteCall.perform_ringMapped (call : RouteCall) {machine : VtdMachine QN Registers}
    (mapped : machine.world.RingMapped mmu) :
    (call.perform mmu machine).2.world.RingMapped mmu := by
  cases call with
  | installContextTable bus table =>
      have kept := KeepsRing.installContextTable machine.unit bus table machine.world mapped
      simp only [RouteCall.perform]
      rcases ran : machine.unit.installContextTable mmu bus table machine.world with
        ⟨outcome, world⟩
      rw [ran] at kept
      cases outcome with
      | error error => exact kept
      | ok unit => exact kept
  | bindContext activeDomain binding =>
      rw [perform_eq rfl rfl]
      exact KeepsRing.replaceAfter _ _ _ _ mapped
  | unbindContext domain client selector =>
      rw [perform_eq rfl rfl]
      exact KeepsRing.replaceAfter _ _ _ _ mapped

theorem VtdCall.after_ringMapped {machine : VtdMachine QN Registers} {call : VtdCall QN Registers}
    (contract : call.Contract mmu) (mapped : machine.world.RingMapped mmu) :
    (call.after mmu machine).world.RingMapped mmu := by
  cases call with
  | route call => exact call.perform_ringMapped mapped
  | installQueuedInvalidation backing => exact KeepsRing.installQueuedInvalidation contract _ mapped
  | installInterruptRemapTable table => exact mapped
  | invalidate controller request => exact KeepsRing.of_submitting (.invalidate controller request) _ mapped
  | invalidateRange domain start pageSize countPages =>
      exact KeepsRing.of_submitting (.invalidateIotlbRange domain start pageSize countPages) _ mapped
  | composeInterruptRemap table entry subhandle remap =>
      exact KeepsRing.composeInterruptRemap _ table entry subhandle remap _ mapped
  | elsewhere change => exact mapped

def VtdMachine.new (info : VtdInfo) (registers : VtdRegisterWindow Registers)
    (rootTable : VtdRootTableBacking) (memory : Memory) (env : Registers) :
    VtdMachine QN Registers :=
  ⟨.new info registers rootTable, ⟨.new, memory, env, []⟩⟩

/-- The states a new unit gets into, over any memory and registers. -/
def VtdMachine.Reachable (mmu : Translation) (machine : VtdMachine QN Registers) : Prop :=
  ∃ info registers rootTable memory env history,
    (∀ call ∈ history, VtdCall.Contract mmu call) ∧
      Transition.run (VtdCall.step mmu) (.new info registers rootTable memory env) history =
        some machine

theorem VtdMachine.Reachable.ringMapped {machine : VtdMachine QN Registers}
    (reachable : machine.Reachable mmu) : machine.world.RingMapped mmu := by
  obtain ⟨info, registers, rootTable, memory, env, history, contracts, reached⟩ := reachable
  apply Transition.invariant_of_meets (fun machine => machine.world.RingMapped mmu) _ _
    (Transition.meets_of_forall (fun call member _ => contracts call member) _) reached
  · intro state call next mapped contract stepped
    rw [← Option.some.inj stepped]
    exact call.after_ringMapped contract mapped
  · intro backing active
    contradiction

end Iommu
