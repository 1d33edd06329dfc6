import Iommu.Vtd.ContextUpdate
import Iommu.Library.Transition

/-!
A remapping unit with the world it works in, and the calls that change what its
tables say about a requester.
-/

namespace Iommu

open MachineWord Memory

structure VtdMachine (QN : Nat) (Registers : Type) where
  unit : VtdUnit Registers
  world : QueueWorld QN Registers

inductive RouteCall
  | installContextTable (bus : UInt8) (table : VtdContextTableBacking)
  | bindContext (activeDomain : VtdDomain) (binding : Binding PciDevice VtdDomain)
  | unbindContext (domain : VtdDomain) (client : PciDevice) (selector : BindingSelector)

namespace RouteCall

variable {QN : Nat} {Registers : Type}

def client : RouteCall → Option PciDevice
  | installContextTable _ _ => none
  | bindContext _ binding => some binding.client
  | unbindContext _ client _ => some client

def controllerDomain : RouteCall → Option VtdDomain
  | installContextTable _ _ => none
  | bindContext activeDomain _ => some activeDomain
  | unbindContext domain _ _ => some domain

def perform (mmu : Translation) : RouteCall → Effect (VtdMachine QN Registers) Error Unit
  | installContextTable bus table => fun machine =>
      match machine.unit.installContextTable mmu bus table machine.world with
      | (.ok unit, world) => (.ok (), ⟨unit, world⟩)
      | (.error error, world) => (.error error, ⟨machine.unit, world⟩)
  | bindContext activeDomain binding => fun machine =>
      let (outcome, world) := machine.unit.bindContext mmu activeDomain binding machine.world
      (outcome, ⟨machine.unit, world⟩)
  | unbindContext domain client selector => fun machine =>
      let (outcome, world) := machine.unit.unbindContext mmu domain client selector machine.world
      (outcome, ⟨machine.unit, world⟩)

/-- A call as a step of a run in which every call returns `Ok`. -/
def step (mmu : Translation) (machine : VtdMachine QN Registers) (call : RouteCall) :
    Option (VtdMachine QN Registers) :=
  match call.perform mmu machine with
  | (.ok (), after) => some after
  | (.error _, _) => none

/-- The checks of a call for a requester, and the slot and entry they lead to. -/
def prepare (unit : VtdUnit Registers) :
    RouteCall → Except Error (VtdContextTableBacking × VtdContextEntry)
  | installContextTable _ _ => .error .unsupported
  | bindContext activeDomain binding => unit.prepareBinding activeDomain binding
  | unbindContext _ client selector => unit.prepareUnbinding client selector

theorem perform_eq {mmu : Translation} {call : RouteCall} {client : PciDevice} {domain : VtdDomain}
    (requester : call.client = some client) (controller : call.controllerDomain = some domain)
    (machine : VtdMachine QN Registers) :
    call.perform mmu machine =
      ((machine.unit.replaceAfter mmu domain client (call.prepare machine.unit) machine.world).1,
        ⟨machine.unit,
          (machine.unit.replaceAfter mmu domain client (call.prepare machine.unit)
            machine.world).2⟩) := by
  cases call with
  | installContextTable bus table => simp [RouteCall.client] at requester
  | bindContext activeDomain binding =>
      obtain rfl := Option.some.inj requester
      obtain rfl := Option.some.inj controller
      exact congrArg (fun ran => (ran.1, (⟨machine.unit, ran.2⟩ : VtdMachine QN Registers)))
        (congrFun (VtdUnit.bindContext_eq activeDomain binding) machine.world)
  | unbindContext domain client selector =>
      obtain rfl := Option.some.inj requester
      obtain rfl := Option.some.inj controller
      exact congrArg (fun ran => (ran.1, (⟨machine.unit, ran.2⟩ : VtdMachine QN Registers)))
        (congrFun (VtdUnit.unbindContext_eq domain client selector) machine.world)

theorem controllerDomain_of_client {call : RouteCall} {client : PciDevice}
    (requester : call.client = some client) : ∃ domain, call.controllerDomain = some domain := by
  cases call with
  | installContextTable bus table => simp [RouteCall.client] at requester
  | bindContext activeDomain binding => exact ⟨activeDomain, rfl⟩
  | unbindContext domain client selector => exact ⟨domain, rfl⟩

theorem perform_of_refused {mmu : Translation} {call : RouteCall} {client : PciDevice}
    (requester : call.client = some client) {machine : VtdMachine QN Registers} {error : Error}
    (refused : call.prepare machine.unit = .error error) :
    call.perform mmu machine = (.error error, machine) := by
  obtain ⟨domain, controller⟩ := controllerDomain_of_client requester
  rw [perform_eq requester controller, refused]
  rfl

theorem perform_of_prepared {mmu : Translation} {call : RouteCall} {client : PciDevice}
    {domain : VtdDomain} (requester : call.client = some client)
    (controller : call.controllerDomain = some domain) {machine : VtdMachine QN Registers}
    {table : VtdContextTableBacking} {entry : VtdContextEntry}
    (prepared : call.prepare machine.unit = .ok (table, entry)) :
    call.perform mmu machine =
      ((machine.unit.replaceContext mmu domain client table entry machine.world).1,
        ⟨machine.unit,
          (machine.unit.replaceContext mmu domain client table entry machine.world).2⟩) := by
  rw [perform_eq requester controller, prepared, VtdUnit.replaceAfter]

theorem prepare_table {unit : VtdUnit Registers} {call : RouteCall} {client : PciDevice}
    (requester : call.client = some client) {table : VtdContextTableBacking}
    {entry : VtdContextEntry} (prepared : call.prepare unit = .ok (table, entry)) :
    unit.validateClient client = .ok () ∧ unit.contextTables client.bus = some table := by
  cases call with
  | installContextTable bus table => simp [RouteCall.client] at requester
  | bindContext activeDomain binding =>
      obtain rfl := Option.some.inj requester
      obtain ⟨_, valid, _, found, _⟩ := VtdUnit.prepareBinding_eq_ok.mp prepared
      exact ⟨valid, found⟩
  | unbindContext domain client selector =>
      obtain rfl := Option.some.inj requester
      obtain ⟨_, valid, found, _⟩ := VtdUnit.prepareUnbinding_eq_ok.mp prepared
      exact ⟨valid, found⟩

theorem perform_install_ok {mmu : Translation} {bus : UInt8} {table : VtdContextTableBacking}
    {machine after : VtdMachine QN Registers}
    (performed : (installContextTable bus table).perform mmu machine = (.ok (), after)) :
    machine.unit.installContextTable mmu bus table machine.world =
      (.ok after.unit, after.world) := by
  simp only [perform] at performed
  rcases ran : machine.unit.installContextTable mmu bus table machine.world with ⟨outcome, world⟩
  rw [ran] at performed
  cases outcome with
  | error error => simp at performed
  | ok unit =>
      simp only [Prod.mk.injEq, true_and] at performed
      rw [← performed]

theorem perform_ok {mmu : Translation} {call : RouteCall} {client : PciDevice}
    (requester : call.client = some client) {machine after : VtdMachine QN Registers}
    (performed : call.perform mmu machine = (.ok (), after)) :
    ∃ domain table entry, call.controllerDomain = some domain ∧
      call.prepare machine.unit = .ok (table, entry) ∧ after.unit = machine.unit ∧
      machine.unit.replaceContext mmu domain client table entry machine.world =
        (.ok (), after.world) := by
  obtain ⟨domain, controller⟩ := controllerDomain_of_client requester
  cases checks : call.prepare machine.unit with
  | error error => simp [perform_of_refused requester checks] at performed
  | ok prepared =>
      obtain ⟨table, entry⟩ := prepared
      rw [perform_of_prepared requester controller checks] at performed
      rcases ran : machine.unit.replaceContext mmu domain client table entry machine.world with
        ⟨outcome, world⟩
      rw [ran] at performed
      cases performed
      exact ⟨domain, table, entry, controller, rfl, rfl, ran⟩

end RouteCall

end Iommu
