import Iommu.Vtd.HardwareCaches
import Iommu.Vtd.Routing

/-!
The context cache: what the hardware may remember of a requester while context entries are
replaced under it, and that an update which returned `Ok` leaves nothing stale behind.
-/

namespace Iommu

open MachineWord Memory Caching

variable {QN : Nat} {Registers : Type} {mmu : Translation} {segment : UInt16}
  {hardware : RingHardware Registers} {backing : CommandQueueBacking}

def VtdMachine.resumed (machine : VtdMachine QN Registers) (registers : Registers) :
    VtdMachine QN Registers :=
  ⟨machine.unit, machine.world.resumed registers⟩

/-- What a context cache can take in for a requester: its entry, if that is present. -/
def presentEntry (root : Nat) (memory : Memory) (requester : PciDevice) : Option VtdContextEntry :=
  (hardwareEntry memory root requester).filter VtdContextEntry.present

/-- A device-selective context-cache invalidation drops the requester it names. -/
def Invalidation.dropsContext : Invalidation → PciDevice → Bool
  | .contextDevice sourceId, requester => requester.bdf.raw.toNat = sourceId
  | _, _ => false

/-- A unit with the history of its context cache, the requesters whose last update did not come to
its end, and the routes of the updates that passed their checks. -/
structure RouteLedger (QN : Nat) (Registers : Type) where
  machine : VtdMachine QN Registers
  history : List (Moment PciDevice VtdContextEntry)
  unsettled : PciDevice → Bool
  routes : PciDevice → Route

def VtdMachine.contextView (machine : VtdMachine QN Registers) (memory : Memory) :
    PciDevice → Option VtdContextEntry :=
  presentEntry machine.unit.rootTable.backing.phys.start memory

def RouteCall.moments (mmu : Translation) (hardware : RingHardware Registers)
    (backing : CommandQueueBacking) (machine : VtdMachine QN Registers) (call : RouteCall) :
    List (Moment PciDevice VtdContextEntry) :=
  let after := (call.perform mmu machine).2.world
  callMoments mmu machine.contextView Invalidation.dropsContext (hardware.pending backing after.env)
    machine.world after

def RouteCall.noted {Fact : Type} (unit : VtdUnit Registers) (call : RouteCall) (fact : Fact)
    (facts : PciDevice → Fact) : PciDevice → Fact :=
  match call.client, call.prepare unit with
  | some client, .ok _ => Function.update facts client fact
  | _, _ => facts

def RouteCall.asked : RouteCall → Route
  | .installContextTable _ _ => .notPresent
  | .bindContext _ binding => targetRoute binding.target
  | .unbindContext _ _ _ => .notPresent

namespace RouteLedger

def opened (machine : VtdMachine QN Registers) : RouteLedger QN Registers :=
  ⟨machine, [], fun _ => false, fun _ => .notPresent⟩

def record (mmu : Translation) (hardware : RingHardware Registers) (backing : CommandQueueBacking)
    (ledger : RouteLedger QN Registers) (step : Timed Registers RouteCall) :
    RouteLedger QN Registers :=
  let machine := ledger.machine.resumed step.registers
  let ran := step.call.perform mmu machine
  { machine := ran.2
    history := ledger.history ++ step.call.moments mmu hardware backing machine
    unsettled := step.call.noted machine.unit (!ran.1.isOk) ledger.unsettled
    routes := step.call.noted machine.unit step.call.asked ledger.routes }

def after (mmu : Translation) (hardware : RingHardware Registers) (backing : CommandQueueBacking)
    (machine : VtdMachine QN Registers) (steps : List (Timed Registers RouteCall)) :
    RouteLedger QN Registers :=
  steps.foldl (record mmu hardware backing) (opened machine)

end RouteLedger

namespace Routed

variable {installs : List (UInt8 × VtdContextTableBacking)} {machine : VtdMachine QN Registers}
  {routes : PciDevice → Route} {remaining : List RouteCall}

/-- The walk depends on the root entry of the bus and the slot of the requester only. -/
theorem hardwareEntry_kept (routed : Routed mmu segment installs machine routes remaining)
    {memory : Memory} {requester : PciDevice}
    (bus : entryWords memory (machine.unit.rootTable.busPaddr requester.bus) =
      entryWords machine.world.memory (machine.unit.rootTable.busPaddr requester.bus))
    (slot : ∀ table, machine.unit.contextTables requester.bus = some table →
      entryWords memory (table.clientPaddr requester) =
        entryWords machine.world.memory (table.clientPaddr requester)) :
    hardwareEntry memory machine.unit.rootTable.backing.phys.start requester =
      machine.entry requester := by
  rw [routed.entry_eq, hardwareEntry]
  simp only
  rw [VtdRootTableBacking.busPaddr, DescriptorTableBacking.entryPaddr] at bus
  rw [bus]
  cases found : machine.unit.contextTables requester.bus with
  | none =>
      have zero := routed.absent requester.bus found
      rw [VtdRootTableBacking.busPaddr, DescriptorTableBacking.entryPaddr] at zero
      rw [zero]
      rfl
  | some table =>
      have root := routed.linked requester.bus table found
      rw [VtdRootTableBacking.busPaddr, DescriptorTableBacking.entryPaddr] at root
      have below : table.backing.phys.start < 2 ^ 52 :=
        routed.layout.below _ (routed.installed _ _ found)
      have address : (UInt64.ofNat table.backing.phys.start).toNat = table.backing.phys.start :=
        UInt64.toNat_ofNat_of_lt' (by simp [UInt64.size]; omega)
      have kept := slot table found
      rw [VtdContextTableBacking.clientPaddr, DescriptorTableBacking.entryPaddr] at kept
      rw [root]
      simp only [address]
      rw [kept]
      rfl

theorem contextView_kept (routed : Routed mmu segment installs machine routes remaining)
    {memory : Memory} {requester : PciDevice}
    (bus : entryWords memory (machine.unit.rootTable.busPaddr requester.bus) =
      entryWords machine.world.memory (machine.unit.rootTable.busPaddr requester.bus))
    (slot : ∀ table, machine.unit.contextTables requester.bus = some table →
      entryWords memory (table.clientPaddr requester) =
        entryWords machine.world.memory (table.clientPaddr requester)) :
    machine.contextView memory requester = machine.contextView machine.world.memory requester := by
  rw [VtdMachine.contextView, presentEntry, routed.hardwareEntry_kept bus slot]
  rfl

theorem resumed (routed : Routed mmu segment installs machine routes remaining)
    (registers : Registers) :
    Routed mmu segment installs (machine.resumed registers) routes remaining :=
  ⟨routed.layout.congr rfl rfl rfl, routed.pending, routed.distinct, routed.roots, routed.installed,
    routed.absent, routed.linked, routed.blank, routed.unbound, routed.entries⟩

theorem slots_apart (routed : Routed mmu segment installs machine routes remaining)
    {client requester : PciDevice} {table other : VtdContextTableBacking}
    (here : client.segment = segment) (found : machine.unit.contextTables client.bus = some table)
    (inside : requester.segment = segment)
    (linked : machine.unit.contextTables requester.bus = some other)
    (different : requester ≠ client) :
    other.clientPaddr requester + 16 ≤ table.clientPaddr client ∨
      table.clientPaddr client + 16 ≤ other.clientPaddr requester := by
  apply routed.layout.clients_apart (routed.installed _ _ linked) (routed.installed _ _ found)
  by_contra overlapping
  rw [not_or, not_not, not_not] at overlapping
  exact different (requester_ext (inside.trans here.symm) overlapping.1 overlapping.2)

end Routed

theorem RouteCall.perform_install (mmu : Translation) (bus : UInt8) (table : VtdContextTableBacking)
    (machine : VtdMachine QN Registers) :
    ((RouteCall.installContextTable bus table).perform mmu machine).1 = .ok () := by
  simp only [perform]
  rw [VtdUnit.installContextTable, VtdRootEntry.fromContextTable_eq,
    Effect.bind_of_ok (Effect.ofExcept_apply _ _),
    Effect.bind_of_ok (writeRootEntry_apply mmu _ _ _ _), Effect.pure_apply]

theorem RouteCall.perform_registers (mmu : Translation) (call : RouteCall)
    (machine : VtdMachine QN Registers) :
    (call.perform mmu machine).2.unit.registers = machine.unit.registers := by
  cases call with
  | installContextTable bus table =>
      simp only [perform]
      rw [VtdUnit.installContextTable, VtdRootEntry.fromContextTable_eq,
        Effect.bind_of_ok (Effect.ofExcept_apply _ _),
        Effect.bind_of_ok (writeRootEntry_apply mmu _ _ _ _), Effect.pure_apply]
  | bindContext activeDomain binding => rfl
  | unbindContext domain client selector => rfl

theorem RouteCall.moments_of_prepared {call : RouteCall} {client : PciDevice} {domain : VtdDomain}
    {table : VtdContextTableBacking} {entry : VtdContextEntry} {machine : VtdMachine QN Registers}
    (requester : call.client = some client) (controller : call.controllerDomain = some domain)
    (checks : call.prepare machine.unit = .ok (table, entry)) :
    call.moments mmu hardware backing machine =
      callMoments mmu machine.contextView Invalidation.dropsContext
        (hardware.pending backing
          (machine.unit.replaceContext mmu domain client table entry machine.world).2.env)
        machine.world (machine.unit.replaceContext mmu domain client table entry machine.world).2 := by
  rw [moments, perform_of_prepared requester controller checks]

theorem RouteCall.noted_of_prepared {Fact : Type} {unit : VtdUnit Registers} {call : RouteCall}
    {client : PciDevice} {prepared : VtdContextTableBacking × VtdContextEntry}
    (requester : call.client = some client) (checks : call.prepare unit = .ok prepared) (fact : Fact)
    (facts : PciDevice → Fact) : call.noted unit fact facts = Function.update facts client fact := by
  rw [noted, requester, checks]

theorem RouteCall.noted_of_refused {Fact : Type} {unit : VtdUnit Registers} {call : RouteCall}
    {error : Error} (refused : call.prepare unit = .error error) (fact : Fact)
    (facts : PciDevice → Fact) : call.noted unit fact facts = facts := by
  rw [noted, refused]
  split
  · contradiction
  · rfl

theorem replaceContext_caughtUp {unit : VtdUnit Registers} {world after : QueueWorld QN Registers}
    {domain : VtdDomain} {client : PciDevice} {table : VtdContextTableBacking}
    {entry : VtdContextEntry}
    (serves : hardware.Serves backing unit.registers unit.registers.writeInvalidateQueueTailShared)
    (caught : hardware.CaughtUp backing world)
    (ran : unit.replaceContext mmu domain client table entry world = (.ok (), after)) :
    hardware.CaughtUp backing after := by
  rw [VtdUnit.replaceContext_apply] at ran
  obtain ⟨_, middle, first, second⟩ := Effect.bind_eq_ok.mp ran
  have written : hardware.CaughtUp backing
      (world.writeEntry mmu (table.clientVaddr client) entry.low entry.high) := caught.congr rfl rfl
  exact (written.submitted serves first).submitted serves second

theorem replaceContext_update (unit : VtdUnit Registers) {world : QueueWorld QN Registers}
    (mapped : world.RingMapped mmu) (domain : VtdDomain) (client : PciDevice)
    (table : VtdContextTableBacking) (entry : VtdContextEntry) :
    ∃ handed, EntryUpdate (table.clientVaddr client) entry.low entry.high world
        (unit.replaceContext mmu domain client table entry world).2 handed ∧
      ((unit.replaceContext mmu domain client table entry world).1 = .ok () →
        some (.contextDevice client.bdf.raw.toNat) ∈ Invalidation.ofEvents handed) := by
  have written : (world.writeEntry mmu (table.clientVaddr client) entry.low entry.high).RingMapped
      mmu := mapped
  have published : ∃ handed, OnlyPublishes handed ∧
      (unit.replaceContext mmu domain client table entry world).2.events =
        world.events ++ [.store (table.clientVaddr client) entry.low,
          .store (table.clientVaddr client + 8) entry.high] ++ handed := by
    rw [VtdUnit.replaceContext_apply, Effect.bind_apply, VtdUnit.invalidateContextDevice]
    obtain ⟨first, device, devicePublishes⟩ := submitWithTail_publishes unit.registers
      unit.registers.writeInvalidateQueueTailShared written (.contextDevice client)
    have frame := unit.submitQueuedInvalidation_ringOnly written (.contextDevice client)
    rw [VtdUnit.submitQueuedInvalidation] at frame ⊢
    rcases ran : submitWithTail mmu unit.registers unit.registers.writeInvalidateQueueTailShared
      (.contextDevice client)
      (world.writeEntry mmu (table.clientVaddr client) entry.low entry.high) with ⟨outcome, middle⟩
    rw [ran] at device frame
    cases outcome with
    | error error => exact ⟨first, devicePublishes, device⟩
    | ok value =>
        obtain ⟨second, flushed, flushedPublishes⟩ := submitWithTail_publishes unit.registers
          unit.registers.writeInvalidateQueueTailShared (written.congr frame.ring)
          (.iotlbDomain domain.id unit.info.cap)
        refine ⟨first ++ second, devicePublishes.append flushedPublishes, ?_⟩
        rw [← List.append_assoc]
        exact flushed.trans (congrArg (· ++ second) device)
  obtain ⟨handed, publishes, events⟩ := published
  refine ⟨handed, ⟨events, publishes⟩, fun returned => ?_⟩
  obtain ⟨submitted, logged, reads⟩ :=
    VtdUnit.replaceContext_ok_events mapped (Prod.ext returned rfl)
  rw [List.append_cancel_left (events.symm.trans logged), reads]
  exact List.mem_cons_self

namespace Routed

variable {installs : List (UInt8 × VtdContextTableBacking)} {machine : VtdMachine QN Registers}
  {routes : PciDevice → Route} {remaining : List RouteCall}

theorem performed (routed : Routed mmu segment installs machine routes remaining) {call : RouteCall}
    {client : PciDevice} {table : VtdContextTableBacking} {entry : VtdContextEntry}
    (requester : call.client = some client) (below : call.RootsBelow)
    (checks : call.prepare machine.unit = .ok (table, entry)) :
    Routed mmu segment installs (call.perform mmu machine).2
      (Function.update routes client call.asked) remaining := by
  obtain ⟨domain, controller⟩ := RouteCall.controllerDomain_of_client requester
  obtain ⟨valid, found⟩ := RouteCall.prepare_table requester checks
  have inside := (VtdUnit.validateClient_eq_ok.mp valid segment routed.layout.segment).symm
  have replaced := routed.replace inside found domain entry
  have encoded : entry.route = call.asked := by
    cases call with
    | installContextTable bus table => simp [RouteCall.client] at requester
    | bindContext activeDomain binding =>
        obtain ⟨_, _, _, _, built⟩ := VtdUnit.prepareBinding_eq_ok.mp checks
        exact targetRoute_of_fromBinding (fun bound => below activeDomain binding bound rfl) built
    | unbindContext active owner selector =>
        obtain ⟨_, _, _, rfl⟩ := VtdUnit.prepareUnbinding_eq_ok.mp checks
        exact (by decide : VtdContextEntry.disabled.route = .notPresent)
  rw [encoded] at replaced
  rw [RouteCall.perform_of_prepared requester controller checks]
  exact replaced

section Update

variable {call : RouteCall} {client requester : PciDevice} {table : VtdContextTableBacking}
  {entry : VtdContextEntry} {clean : Prop}

theorem settles_other (routed : Routed mmu segment installs machine routes remaining)
    (made : call.client = some client)
    (checks : call.prepare machine.unit = .ok (table, entry)) (here : requester.segment = segment)
    (different : requester ≠ client) (holds : clean) :
    Settles requester (machine.contextView machine.world.memory) clean
      (call.moments mmu hardware backing machine) := by
  obtain ⟨domain, controller⟩ := RouteCall.controllerDomain_of_client made
  obtain ⟨valid, found⟩ := RouteCall.prepare_table made checks
  have inside := (VtdUnit.validateClient_eq_ok.mp valid segment routed.layout.segment).symm
  have member := routed.installed _ _ found
  have mapped : table.backing.Mapped mmu := routed.layout.tablesMapped (client.bus, table) member
  have contiguous := client_contiguous mapped client
  have bus : machine.unit.rootTable.busPaddr requester.bus + 16 ≤ table.clientPaddr client ∨
      table.clientPaddr client + 16 ≤ machine.unit.rootTable.busPaddr requester.bus :=
    routed.layout.bus_apart_client requester.bus member client
  have slot : ∀ other, machine.unit.contextTables requester.bus = some other →
      other.clientPaddr requester + 16 ≤ table.clientPaddr client ∨
        table.clientPaddr client + 16 ≤ other.clientPaddr requester :=
    fun _ linked => routed.slots_apart inside found here linked different
  obtain ⟨handed, update, _⟩ := replaceContext_update machine.unit routed.layout.ringMapped domain
    client table entry
  rw [RouteCall.moments_of_prepared made controller checks]
  refine update.settles_other ?_ ?_ ?_ _ holds
  · apply routed.contextView_kept
    · exact entryWords_store64_outside (contiguous.narrow (by omega)) _ _ (by omega)
    · intro other linked
      have apart := slot other linked
      exact entryWords_store64_outside (contiguous.narrow (by omega)) _ _ (by omega)
  · apply routed.contextView_kept
    · exact entryWords_store128_outside contiguous _ _ _ bus
    · exact fun other linked => entryWords_store128_outside contiguous _ _ _ (slot other linked)
  · apply routed.contextView_kept
    · exact VtdUnit.replaceContext_words_other routed.layout.ringMapped mapped
        (routed.layout.bus_off_ring _) bus
    · exact fun other linked => routed.words_kept inside found domain entry here linked different

/-- The requester of an update that returned `Ok`: nothing of the old entry, or of the one between
the two stores, is left. -/
theorem settles_named (routed : Routed mmu segment installs machine routes remaining)
    (made : call.client = some client)
    (checks : call.prepare machine.unit = .ok (table, entry))
    (serves : hardware.Serves backing machine.unit.registers
      machine.unit.registers.writeInvalidateQueueTailShared)
    (caught : hardware.CaughtUp backing machine.world)
    (returned : (call.perform mmu machine).1 = .ok ()) :
    Settles client (machine.contextView machine.world.memory) clean
      (call.moments mmu hardware backing machine) := by
  obtain ⟨domain, controller⟩ := RouteCall.controllerDomain_of_client made
  obtain ⟨valid, found⟩ := RouteCall.prepare_table made checks
  have inside := (VtdUnit.validateClient_eq_ok.mp valid segment routed.layout.segment).symm
  have member := routed.installed _ _ found
  have mapped : table.backing.Mapped mmu := routed.layout.tablesMapped (client.bus, table) member
  have contiguous := client_contiguous mapped client
  obtain ⟨handed, update, submitted⟩ := replaceContext_update machine.unit routed.layout.ringMapped
    domain client table entry
  rw [RouteCall.perform_of_prepared made controller checks] at returned
  have carriedOut := replaceContext_caughtUp serves caught (Prod.ext returned rfl)
  rw [RouteCall.moments_of_prepared made controller checks, carriedOut.pending_eq]
  refine update.settles_named ?_ (submitted returned) ?_
  · have replaced := routed.replace inside found domain entry
    apply Eq.symm
    apply replaced.contextView_kept
    · exact (entryWords_store128_outside contiguous _ _ _
        (routed.layout.bus_apart_client client.bus member client)).trans
        (VtdUnit.replaceContext_words_other routed.layout.ringMapped mapped
          (routed.layout.bus_off_ring _) (routed.layout.bus_apart_client _ member client)).symm
    · intro other linked
      obtain rfl : table = other := Option.some.inj (found.symm.trans linked)
      rw [entryWords_store128 contiguous]
      exact (VtdUnit.replaceContext_words routed.layout.ringMapped mapped
        (routed.layout.client_off_ring member client)).symm
  · simp [Invalidation.dropsContext]

end Update

section Install

variable {bus : UInt8} {table : VtdContextTableBacking}

theorem contextView_install {after : VtdMachine QN Registers}
    (routed : Routed mmu segment installs machine routes
      (.installContextTable bus table :: remaining))
    (ran : machine.unit.installContextTable mmu bus table machine.world =
      (.ok after.unit, after.world)) (requester : PciDevice) :
    machine.contextView after.world.memory requester =
      machine.contextView machine.world.memory requester := by
  obtain ⟨entry, built, info, root, tables, world⟩ := installContextTable_ok ran
  have contiguous := bus_contiguous routed.layout.rootMapped bus
  obtain ⟨member, vacant⟩ := routed.pending (bus, table) (by simp [RouteCall.install])
  have tableKept : ∀ install ∈ installs, ∀ client,
      entryWords after.world.memory (install.2.clientPaddr client) =
      entryWords machine.world.memory (install.2.clientPaddr client) := by
    intro install listed client
    rw [world]
    apply entryWords_store128_outside contiguous
    exact (routed.layout.bus_apart_client bus listed client).symm
  by_cases here : requester.bus = bus
  · have shown := (routed.install ran).entry_eq requester
    rw [tables, here, Function.update_self, Option.map_some,
      tableKept (bus, table) member, routed.blank (bus, table) member vacant] at shown
    have hidden := routed.entry_eq requester
    rw [here, vacant, Option.map_none] at hidden
    rw [VtdMachine.entry, root] at shown
    rw [VtdMachine.entry] at hidden
    rw [VtdMachine.contextView, VtdMachine.contextView, presentEntry, presentEntry, shown, hidden]
    decide
  · apply routed.contextView_kept
    · rw [world]
      apply entryWords_store128_outside contiguous
      apply machine.unit.rootTable.backing.entries_apart_of_ne
      exact fun equal => here (UInt8.toNat_inj.mp equal)
    · exact fun found linked =>
        tableKept (requester.bus, found) (routed.installed _ _ linked) requester

/-- Between the two stores the root entry already reads as it will: its high word is zero. -/
theorem contextView_installing {after : VtdMachine QN Registers} {entry : VtdRootEntry}
    (routed : Routed mmu segment installs machine routes
      (.installContextTable bus table :: remaining))
    (ran : machine.unit.installContextTable mmu bus table machine.world =
      (.ok after.unit, after.world)) (built : VtdRootEntry.fromContextTable table = .ok entry)
    (requester : PciDevice) :
    machine.contextView
        (store64 mmu machine.world.memory (machine.unit.rootTable.busVaddr bus) entry.low)
        requester =
      machine.contextView machine.world.memory requester := by
  obtain ⟨written, wrote, info, root, tables, world⟩ := installContextTable_ok ran
  obtain rfl := Except.ok.inj (built.symm.trans wrote)
  have contiguous := bus_contiguous routed.layout.rootMapped bus
  have installed := routed.install ran
  obtain ⟨member, vacant⟩ := routed.pending (bus, table) (by simp [RouteCall.install])
  have busKept : entryWords
      (store64 mmu machine.world.memory (machine.unit.rootTable.busVaddr bus) entry.low)
        (after.unit.rootTable.busPaddr requester.bus) =
      entryWords after.world.memory (after.unit.rootTable.busPaddr requester.bus) := by
    rw [root, world]
    by_cases here : requester.bus = bus
    · have high : entry.high = 0 := by
        rw [VtdRootEntry.fromContextTable_eq] at built
        cases built
        rfl
      rw [here, entryWords_between contiguous, routed.absent bus vacant, QueueWorld.writeEntry,
        entryWords_store128 contiguous, high]
    · have apart : machine.unit.rootTable.busPaddr requester.bus + 16 ≤
            machine.unit.rootTable.busPaddr bus ∨
          machine.unit.rootTable.busPaddr bus + 16 ≤
            machine.unit.rootTable.busPaddr requester.bus :=
        machine.unit.rootTable.backing.entries_apart_of_ne fun equal =>
          here (UInt8.toNat_inj.mp equal)
      rw [entryWords_store64_outside (contiguous.narrow (by omega)) _ _
        (apart.imp_right (Nat.le_trans (by omega)))]
      exact (entryWords_store128_outside contiguous _ _ _ apart).symm
  have slotKept : ∀ found, after.unit.contextTables requester.bus = some found →
      entryWords
          (store64 mmu machine.world.memory (machine.unit.rootTable.busVaddr bus) entry.low)
          (found.clientPaddr requester) =
        entryWords after.world.memory (found.clientPaddr requester) := by
    intro found linked
    have apart := (routed.layout.bus_apart_client bus (installed.installed _ _ linked) requester).symm
    rw [world, entryWords_store64_outside (contiguous.narrow (by omega)) _ _
      (apart.imp_right (Nat.le_trans (by omega)))]
    exact (entryWords_store128_outside contiguous _ _ _ apart).symm
  have same : after.contextView = machine.contextView := by
    funext memory
    rw [VtdMachine.contextView, VtdMachine.contextView, root]
  have finished := installed.contextView_kept busKept slotKept
  rw [same] at finished
  exact finished.trans (routed.contextView_install ran requester)

theorem settles_install (routed : Routed mmu segment installs machine routes
      (.installContextTable bus table :: remaining))
    {requester : PciDevice} {clean : Prop} (holds : clean) :
    Settles requester (machine.contextView machine.world.memory) clean
      ((RouteCall.installContextTable bus table).moments mmu hardware backing machine) := by
  generalize performed : (RouteCall.installContextTable bus table).perform mmu machine = result
  have returned := RouteCall.perform_install mmu bus table machine
  rw [performed] at returned
  obtain ⟨outcome, after⟩ := result
  obtain rfl : outcome = .ok () := returned
  have ran := RouteCall.perform_install_ok performed
  have shown := routed.contextView_install ran requester
  obtain ⟨entry, built, _, _, _, world⟩ := installContextTable_ok ran
  have update : EntryUpdate (machine.unit.rootTable.busVaddr bus) entry.low entry.high machine.world
      after.world [] := by
    constructor
    · rw [world, List.append_nil]
      rfl
    · exact fun _ member => absurd member List.not_mem_nil
  rw [RouteCall.moments, performed]
  refine update.settles_other (routed.contextView_installing ran built requester) ?_ shown _ holds
  rw [← shown, world]
  rfl

end Install

end Routed

namespace Routed

variable {installs : List (UInt8 × VtdContextTableBacking)} {machine : VtdMachine QN Registers}
  {routes : PciDevice → Route} {call : RouteCall} {remaining : List RouteCall}

theorem perform_rootTable (routed : Routed mmu segment installs machine routes (call :: remaining)) :
    (call.perform mmu machine).2.unit.rootTable = machine.unit.rootTable := by
  cases call with
  | installContextTable bus table =>
      have ran := RouteCall.perform_install_ok
        (Prod.ext (RouteCall.perform_install mmu bus table machine) rfl)
      obtain ⟨_, _, _, root, _⟩ := installContextTable_ok ran
      exact root
  | bindContext activeDomain binding => rfl
  | unbindContext domain client selector => rfl

theorem noted (routed : Routed mmu segment installs machine routes (call :: remaining)) :
    Routed mmu segment installs (call.perform mmu machine).2
      (call.noted machine.unit call.asked routes) remaining := by
  cases made : call.client with
  | none =>
      cases call with
      | installContextTable bus table =>
          exact routed.install (RouteCall.perform_install_ok
            (Prod.ext (RouteCall.perform_install mmu bus table machine) rfl))
      | bindContext activeDomain binding => contradiction
      | unbindContext domain client selector => contradiction
  | some client =>
      cases checks : call.prepare machine.unit with
      | error error =>
          rw [RouteCall.perform_of_refused made checks, RouteCall.noted_of_refused checks]
          exact routed.tail
      | ok prepared =>
          rw [RouteCall.noted_of_prepared made checks]
          exact routed.tail.performed made (routed.roots call List.mem_cons_self) checks

theorem call_settles (routed : Routed mmu segment installs machine routes (call :: remaining))
    (serves : hardware.Serves backing machine.unit.registers
      machine.unit.registers.writeInvalidateQueueTailShared)
    (caught : hardware.CaughtUp backing machine.world)
    {unsettled : PciDevice → Bool} {requester : PciDevice} {clean : Prop}
    (here : requester.segment = segment)
    (settled : call.noted machine.unit (!(call.perform mmu machine).1.isOk) unsettled requester =
      false)
    (before : unsettled requester = false → clean) :
    Settles requester (machine.contextView machine.world.memory) clean
      (call.moments mmu hardware backing machine) := by
  cases made : call.client with
  | none =>
      cases call with
      | installContextTable bus table => exact routed.settles_install (before settled)
      | bindContext activeDomain binding => contradiction
      | unbindContext domain client selector => contradiction
  | some client =>
      cases checks : call.prepare machine.unit with
      | error error =>
          rw [RouteCall.noted_of_refused checks] at settled
          rw [RouteCall.moments, RouteCall.perform_of_refused made checks]
          exact settles_unchanged _ (before settled)
      | ok prepared =>
          obtain ⟨table, entry⟩ := prepared
          rw [RouteCall.noted_of_prepared made checks] at settled
          by_cases named : requester = client
          · subst named
            rw [Function.update_self] at settled
            apply routed.settles_named made checks serves caught
            cases returned : (call.perform mmu machine).1 with
            | ok value => rfl
            | error error =>
                rw [returned] at settled
                contradiction
          · rw [Function.update_of_ne named] at settled
            exact routed.settles_other made checks here named (before settled)

end Routed

/-- What holds of a ledger and so of every cache that went through its history. -/
structure Coherently (mmu : Translation) (hardware : RingHardware Registers)
    (backing : CommandQueueBacking) (segment : UInt16)
    (installs : List (UInt8 × VtdContextTableBacking)) (start : VtdMachine QN Registers)
    (ledger : RouteLedger QN Registers) (remaining : List RouteCall) : Prop where
  routed : Routed mmu segment installs ledger.machine ledger.routes remaining
  serves : hardware.Serves backing ledger.machine.unit.registers
    ledger.machine.unit.registers.writeInvalidateQueueTailShared
  shown : lastShown (start.contextView start.world.memory) ledger.history =
    ledger.machine.contextView ledger.machine.world.memory
  settled : ∀ requester, requester.segment = segment → ledger.unsettled requester = false →
    Settles requester (start.contextView start.world.memory) True ledger.history

namespace Coherently

variable {installs : List (UInt8 × VtdContextTableBacking)} {start : VtdMachine QN Registers}
  {ledger : RouteLedger QN Registers} {step : Timed Registers RouteCall} {remaining : List RouteCall}

theorem record
    (coherently : Coherently mmu hardware backing segment installs start ledger
      (step.call :: remaining))
    (caught : hardware.CaughtUp backing (ledger.machine.world.resumed step.registers)) :
    Coherently mmu hardware backing segment installs start (ledger.record mmu hardware backing step)
      remaining := by
  obtain ⟨still, serves, shown, settled⟩ := coherently
  have routed := still.resumed step.registers
  constructor
  · exact routed.noted
  · dsimp only [RouteLedger.record]
    rw [RouteCall.perform_registers]
    exact serves
  · dsimp only [RouteLedger.record]
    rw [lastShown_append, RouteCall.moments, lastShown_callMoments, VtdMachine.contextView,
      VtdMachine.contextView, routed.perform_rootTable]
  · intro requester here quiet
    dsimp only [RouteLedger.record] at quiet ⊢
    rw [settles_append, shown]
    exact routed.call_settles serves caught here quiet (settled requester here)

end Coherently

end Iommu
