import Iommu.Vtd.Reachable
import Iommu.Vtd.Routing
import Iommu.Vtd.TornEntries

/-!
Replacing a present context entry: whose translations the hardware is asked to
forget, in any state a unit can get into.
-/

namespace Iommu

open MachineWord Memory

variable {QN : Nat} {Registers : Type} {mmu : Translation}

/-- The invalidation makes the hardware drop every cached translation of the domain. -/
def Invalidation.FlushesDomain (domainId : Nat) : Option Invalidation → Prop
  | some .iotlbGlobal => True
  | some (.iotlbDomain flushed) => flushed = domainId
  | some (.iotlbPages _ _ _) | some (.contextDevice _) | some (.interruptEntry _) | none => False

def VtdMachine.currentEntry (machine : VtdMachine QN Registers) (client : PciDevice) :
    Option VtdContextEntry :=
  (machine.unit.contextTables client.bus).map fun table =>
    ⟨(entryWords machine.world.memory (table.clientPaddr client)).1,
      (entryWords machine.world.memory (table.clientPaddr client)).2⟩

/-- What a call for a requester does to the event order when it returns `Ok`: the two stores of its
new entry, then an invalidation of the requester's context entry and one of the controller's domain. -/
theorem RouteCall.perform_ok_events {call : RouteCall} {client : PciDevice} {domain : VtdDomain}
    {machine after : VtdMachine QN Registers} (mapped : machine.world.RingMapped mmu)
    (requester : call.client = some client) (controller : call.controllerDomain = some domain)
    (performed : call.perform mmu machine = (.ok (), after)) :
    ∃ table low high submitted, machine.unit.contextTables client.bus = some table ∧
      after.world.events = machine.world.events ++ [.store (table.clientVaddr client) low,
        .store (table.clientVaddr client + 8) high] ++ submitted ∧
      Invalidation.ofEvents submitted =
        [some (.contextDevice client.bdf.raw.toNat), some (.iotlbDomain domain.id.id.toNat)] := by
  obtain ⟨active, table, entry, made, prepared, _, ran⟩ := perform_ok requester performed
  obtain rfl := Option.some.inj (controller.symm.trans made)
  obtain ⟨submitted, events, reads⟩ := VtdUnit.replaceContext_ok_events mapped ran
  exact ⟨table, entry.low, entry.high, submitted, (prepare_table requester prepared).2, events, reads⟩

theorem flushes_iff_same_domain {sourceId domainId flushed : Nat} :
    (∃ invalidation ∈ [some (Invalidation.contextDevice sourceId), some (.iotlbDomain flushed)],
      Invalidation.FlushesDomain domainId invalidation) ↔ flushed = domainId := by
  simp [Invalidation.FlushesDomain]

/-- The replaced domain is flushed after the table write exactly when the controller the call goes
through is of the same domain id. -/
theorem replaced_domain_flushed_iff {machine after : VtdMachine QN Registers}
    (reachable : machine.Reachable mmu) {call : RouteCall} {client : PciDevice} {domain : VtdDomain}
    (requester : call.client = some client) (controller : call.controllerDomain = some domain)
    (performed : call.perform mmu machine = (.ok (), after)) :
    ∃ table low high submitted, machine.unit.contextTables client.bus = some table ∧
      after.world.events = machine.world.events ++ [.store (table.clientVaddr client) low,
        .store (table.clientVaddr client + 8) high] ++ submitted ∧
      ∀ old root oldId width, machine.currentEntry client = some old →
        old.route = .multiLevel root oldId width →
        ((∃ invalidation ∈ Invalidation.ofEvents submitted,
          Invalidation.FlushesDomain oldId invalidation) ↔ domain.id.id.toNat = oldId) := by
  obtain ⟨table, low, high, submitted, found, events, reads⟩ :=
    RouteCall.perform_ok_events reachable.ringMapped requester controller performed
  refine ⟨table, low, high, submitted, found, events, ?_⟩
  intro old root oldId width _ _
  rw [reads]
  exact flushes_iff_same_domain

def invalidationRing : CommandQueueBacking where
  phys := .fromStartSize 0x10000 4096 (by decide)
  virt := .fromStartSize 0x10000 4096 (by decide)
  entryCount := 256
  entryBytes := 16
  countPower := ⟨8, rfl⟩
  bytesPower := descriptorBytes_power
  wideEntry := descriptorBytes_wide
  sizeBound := by decide
  physFits := by decide
  virtFits := by decide
  physAligned := rfl
  virtAligned := rfl

def boundHistory : List (VtdCall 256 UInt64) :=
  [.installQueuedInvalidation invalidationRing, .route (.installContextTable 0 .sample),
    .route (.bindContext firstDomain ⟨sampleClient, .default, .domain firstDomain⟩)]

def boundMachine : VtdMachine 256 UInt64 :=
  boundHistory.foldl (fun machine call => call.after id machine)
    (.new VtdUnit.sample.info .prompt .sample (fun _ => 0) 0)

theorem boundMachine_reachable : boundMachine.Reachable id := by
  refine ⟨VtdUnit.sample.info, .prompt, .sample, fun _ => 0, 0, boundHistory, ?_, rfl⟩
  intro call member
  simp only [boundHistory, List.mem_cons, List.not_mem_nil, or_false] at member
  rcases member with rfl | rfl | rfl
  · exact fun _ _ => rfl
  · trivial
  · trivial

theorem boundMachine_entry :
    boundMachine.currentEntry sampleClient = some ⟨0x5001, 0x102⟩ := rfl

theorem exists_performed {call : RouteCall} {machine : VtdMachine 256 UInt64}
    (accepted : (call.step id machine).isSome = true) :
    ∃ after, call.perform id machine = (.ok (), after) := by
  rw [RouteCall.step] at accepted
  rcases ran : call.perform id machine with ⟨outcome, after⟩
  rw [ran] at accepted
  cases outcome with
  | error error => contradiction
  | ok value => exact ⟨after, rfl⟩

theorem unbound_domain_flushed : ∃ after submitted,
    RouteCall.perform id (.unbindContext firstDomain sampleClient .default) boundMachine =
        (.ok (), after) ∧
      (∃ stores, after.world.events = boundMachine.world.events ++ stores ++ submitted) ∧
      ∃ invalidation ∈ Invalidation.ofEvents submitted, Invalidation.FlushesDomain 1 invalidation := by
  obtain ⟨after, performed⟩ : ∃ after, RouteCall.perform id
      (.unbindContext firstDomain sampleClient .default) boundMachine = (.ok (), after) :=
    exists_performed rfl
  obtain ⟨_, _, _, submitted, _, events, flushed⟩ :=
    replaced_domain_flushed_iff boundMachine_reachable rfl rfl performed
  exact ⟨after, submitted, performed, ⟨_, events⟩, (flushed _ _ 1 48 boundMachine_entry rfl).mpr rfl⟩

def rebinding : RouteCall :=
  .bindContext secondDomain ⟨sampleClient, .default, .domain secondDomain⟩

theorem rebinding_entry :
    (rebinding.perform id boundMachine).2.currentEntry sampleClient = some ⟨0x6001, 0x202⟩ := rfl

/-- A client rebound to a second domain: nothing flushes the first one. -/
theorem rebound_domain_not_flushed : ∃ after table low high submitted,
    boundMachine.Reachable id ∧
    boundMachine.currentEntry sampleClient = some ⟨0x5001, 0x102⟩ ∧
    VtdContextEntry.route ⟨0x5001, 0x102⟩ = .multiLevel 0x5000 1 48 ∧
    rebinding.perform id boundMachine = (.ok (), after) ∧
    after.currentEntry sampleClient = some ⟨0x6001, 0x202⟩ ∧
    boundMachine.unit.contextTables sampleClient.bus = some table ∧
    after.world.events = boundMachine.world.events ++ [.store (table.clientVaddr sampleClient) low,
      .store (table.clientVaddr sampleClient + 8) high] ++ submitted ∧
    ¬∃ invalidation ∈ Invalidation.ofEvents submitted, Invalidation.FlushesDomain 1 invalidation := by
  obtain ⟨after, performed⟩ : ∃ after, rebinding.perform id boundMachine = (.ok (), after) :=
    exists_performed rfl
  have entry := rebinding_entry
  rw [performed] at entry
  obtain ⟨table, low, high, submitted, found, events, reads⟩ :=
    RouteCall.perform_ok_events boundMachine_reachable.ringMapped rfl rfl performed
  refine ⟨after, table, low, high, submitted, boundMachine_reachable, boundMachine_entry, rfl,
    performed, entry, found, events, ?_⟩
  rw [reads, flushes_iff_same_domain]
  decide

end Iommu
