import Iommu.Vtd.EntryFields
import Iommu.Vtd.Machine
import Mathlib.Data.List.Pairwise

/-!
Requester routing: the hardware's walk through the root and context tables refines
a map from requesters to what they were last bound to.
-/

namespace Iommu

open MachineWord Memory

variable {QN : Nat} {Registers : Type} {mmu : Translation} {segment : UInt16}

/-- Where the requests of one client go. -/
inductive Route
  | notPresent
  | passThrough
  | multiLevel (root : UInt64) (domainId addressWidthBits : Nat)
  | reserved
  deriving DecidableEq, Repr

def targetRoute : BindingTarget VtdDomain → Route
  | .abort => .notPresent
  | .passThrough => .passThrough
  | .domain domain => .multiLevel domain.root domain.id.id.toNat domain.width.bits.toNat

def RouteCall.route (routes : PciDevice → Route) : RouteCall → PciDevice → Route
  | .installContextTable _ _ => routes
  | .bindContext _ binding => Function.update routes binding.client (targetRoute binding.target)
  | .unbindContext _ client _ => Function.update routes client .notPresent

def VtdContextEntry.route (entry : VtdContextEntry) : Route :=
  if entry.present then
    match entry.pageTableRoot with
    | some root => .multiLevel root entry.domainId.toNat entry.addressWidthBits.toNat
    | none =>
        if entry.translationType = CONTEXT_TRANSLATION_TYPE_PASS_THROUGH.toUInt8 then .passThrough
        else .reserved
  else .notPresent

/-- The context entry the hardware reaches for a requester, if the root entry of its bus is present. -/
def hardwareEntry (memory : Memory) (root : Nat) (requester : PciDevice) : Option VtdContextEntry :=
  let bus := entryWords memory (root + requester.bus.toNat * ROOT_ENTRY_BYTES)
  match VtdRootEntry.contextTableRoot ⟨bus.1, bus.2⟩ with
  | none => none
  | some table =>
      let slot := table.toNat + (vtdContextEntryIndex requester).toNat * CONTEXT_ENTRY_BYTES
      some ⟨(entryWords memory slot).1, (entryWords memory slot).2⟩

def hardwareRoute (memory : Memory) (root : Nat) (requester : PciDevice) : Route :=
  match hardwareEntry memory root requester with
  | none => .notPresent
  | some entry => entry.route

def VtdMachine.entry (machine : VtdMachine QN Registers) (requester : PciDevice) :
    Option VtdContextEntry :=
  hardwareEntry machine.world.memory machine.unit.rootTable.backing.phys.start requester

def VtdMachine.route (machine : VtdMachine QN Registers) (requester : PciDevice) : Route :=
  hardwareRoute machine.world.memory machine.unit.rootTable.backing.phys.start requester

theorem targetRoute_of_fromBinding {binding : Binding PciDevice VtdDomain}
    {ecap : VtdExtendedCapability} {entry : VtdContextEntry}
    (below : ∀ domain, binding.target = .domain domain → domain.root.toNat < 2 ^ 52)
    (built : VtdContextEntry.fromBinding binding ecap = .ok entry) :
    entry.route = targetRoute binding.target := by
  rw [VtdContextEntry.fromBinding] at built
  split at built
  · contradiction
  · cases target : binding.target with
    | abort =>
        simp only [target] at built
        cases built
        decide
    | passThrough =>
        simp only [target] at built
        split at built
        · cases built
          decide
        · contradiction
    | domain domain =>
        simp only [target, VtdContextEntry.fromDomain] at built
        split at built
        · contradiction
        · rename_i aligned
          have whole : domain.root.toNat % 2 ^ 12 = 0 := not_not.mp aligned
          cases built
          obtain ⟨present, _, root⟩ := VtdContextEntry.multiLevel_fields whole
            (below domain target)
            (vtdAgawBits domain.width ||| domain.id.id.toUInt64 <<< CONTEXT_DOMAIN_ID_SHIFT)
          obtain ⟨identifier, width⟩ := VtdContextEntry.routing_high_fields domain.width
            (vtdIoDomain_id_lt domain.id)
            (domain.root &&& TABLE_ADDR_MASK ||| CONTEXT_PRESENT |||
              CONTEXT_TRANSLATION_TYPE_MULTI_LEVEL <<< CONTEXT_TRANSLATION_TYPE_SHIFT)
          rw [VtdContextEntry.route, if_pos present, root]
          simp only
          rw [identifier, width]
          rfl

def RouteCall.install : RouteCall → Option (UInt8 × VtdContextTableBacking)
  | .installContextTable bus table => some (bus, table)
  | .bindContext _ _ => none
  | .unbindContext _ _ _ => none

def RouteCall.RootsBelow (call : RouteCall) : Prop :=
  ∀ activeDomain binding domain, call = .bindContext activeDomain binding →
    binding.target = .domain domain → domain.root.toNat < 2 ^ 52

/-- The memory the unit's tables live in, with the context tables that may be installed. -/
structure Layout (mmu : Translation) (segment : UInt16)
    (installs : List (UInt8 × VtdContextTableBacking)) (machine : VtdMachine QN Registers) :
    Prop where
  segment : machine.unit.info.segment = some segment
  ringMapped : machine.world.RingMapped mmu
  rootMapped : machine.unit.rootTable.backing.Mapped mmu
  tablesMapped : ∀ install ∈ installs, install.2.backing.Mapped mmu
  below : ∀ install ∈ installs, install.2.backing.phys.start < 2 ^ 52
  rootOffRing : ∀ paddr, machine.unit.rootTable.backing.Owns paddr → ¬machine.world.OwnsRing paddr
  tablesOffRing : ∀ install ∈ installs, ∀ paddr, install.2.backing.Owns paddr →
    ¬machine.world.OwnsRing paddr
  tablesOffRoot : ∀ install ∈ installs,
    install.2.backing.Disjoint machine.unit.rootTable.backing
  once : installs.Pairwise fun first second => first.1 ≠ second.1
  tablesApart : installs.Pairwise fun first second => first.2.backing.Disjoint second.2.backing

namespace Layout

variable {installs : List (UInt8 × VtdContextTableBacking)} {machine after : VtdMachine QN Registers}

theorem congr (layout : Layout mmu segment installs machine)
    (info : after.unit.info = machine.unit.info)
    (root : after.unit.rootTable = machine.unit.rootTable)
    (ring : after.world.queue.backing = machine.world.queue.backing) :
    Layout mmu segment installs after := by
  have owns := QueueWorld.ownsRing_congr ring
  constructor
  · rw [info]
    exact layout.segment
  · exact layout.ringMapped.congr ring
  · rw [root]
    exact layout.rootMapped
  · exact layout.tablesMapped
  · exact layout.below
  · intro paddr owned
    rw [owns]
    exact layout.rootOffRing paddr (root ▸ owned)
  · intro install member paddr owned
    rw [owns]
    exact layout.tablesOffRing install member paddr owned
  · intro install member
    rw [root]
    exact layout.tablesOffRoot install member
  · exact layout.once
  · exact layout.tablesApart

theorem install_eq_of_bus_eq (layout : Layout mmu segment installs machine)
    {first second : UInt8 × VtdContextTableBacking} (firstMember : first ∈ installs)
    (secondMember : second ∈ installs) (same : first.1 = second.1) : first = second := by
  have symm : Std.Symm fun left right : UInt8 × VtdContextTableBacking => left.1 ≠ right.1 :=
    ⟨fun _ _ different => different.symm⟩
  by_contra different
  exact layout.once.forall firstMember secondMember different same

theorem disjoint_of_bus_ne (layout : Layout mmu segment installs machine)
    {first second : UInt8 × VtdContextTableBacking} (firstMember : first ∈ installs)
    (secondMember : second ∈ installs) (different : first.1 ≠ second.1) :
    first.2.backing.Disjoint second.2.backing := by
  have symm : Std.Symm fun left right : UInt8 × VtdContextTableBacking =>
      left.2.backing.Disjoint right.2.backing :=
    ⟨fun _ _ apart paddr both => apart paddr both.symm⟩
  exact layout.tablesApart.forall firstMember secondMember fun same => different (same ▸ rfl)

theorem client_off_ring (layout : Layout mmu segment installs machine)
    {install : UInt8 × VtdContextTableBacking} (member : install ∈ installs) (client : PciDevice) :
    ∀ offset < 16, ¬machine.world.OwnsRing (install.2.clientPaddr client + offset) :=
  fun _ inside => layout.tablesOffRing install member _
    (install.2.backing.entry_owned (install.2.index_lt _) inside)

theorem bus_off_ring (layout : Layout mmu segment installs machine) (bus : UInt8) :
    ∀ offset < 16, ¬machine.world.OwnsRing (machine.unit.rootTable.busPaddr bus + offset) :=
  fun _ inside => layout.rootOffRing _
    (machine.unit.rootTable.backing.entry_owned (machine.unit.rootTable.bus_lt bus) inside)

theorem bus_apart_client (layout : Layout mmu segment installs machine) (bus : UInt8)
    {install : UInt8 × VtdContextTableBacking} (member : install ∈ installs) (client : PciDevice) :
    machine.unit.rootTable.busPaddr bus + 16 ≤ install.2.clientPaddr client ∨
      install.2.clientPaddr client + 16 ≤ machine.unit.rootTable.busPaddr bus :=
  (DescriptorTableBacking.entries_apart (layout.tablesOffRoot install member)
    (install.2.index_lt _) (machine.unit.rootTable.bus_lt bus)).symm

theorem clients_apart (layout : Layout mmu segment installs machine)
    {first second : UInt8 × VtdContextTableBacking} (firstMember : first ∈ installs)
    (secondMember : second ∈ installs) {left right : PciDevice}
    (different : first.1 ≠ second.1 ∨ vtdContextEntryIndex left ≠ vtdContextEntryIndex right) :
    first.2.clientPaddr left + 16 ≤ second.2.clientPaddr right ∨
      second.2.clientPaddr right + 16 ≤ first.2.clientPaddr left := by
  by_cases same : first.1 = second.1
  · obtain rfl := layout.install_eq_of_bus_eq firstMember secondMember same
    apply first.2.backing.entries_apart_of_ne
    intro equal
    exact (different.resolve_left (not_not_intro rfl)) (UInt8.toNat_inj.mp equal)
  · exact DescriptorTableBacking.entries_apart
      (layout.disjoint_of_bus_ne firstMember secondMember same) (first.2.index_lt _)
      (second.2.index_lt _)

end Layout

/-- The tables agree with the map, for the calls made so far and those still to come. -/
structure Routed (mmu : Translation) (segment : UInt16)
    (installs : List (UInt8 × VtdContextTableBacking)) (machine : VtdMachine QN Registers)
    (routes : PciDevice → Route) (remaining : List RouteCall) : Prop where
  layout : Layout mmu segment installs machine
  pending : ∀ install ∈ remaining.filterMap RouteCall.install,
    install ∈ installs ∧ machine.unit.contextTables install.1 = none
  distinct : (remaining.filterMap RouteCall.install).Pairwise fun first second =>
    first.1 ≠ second.1
  roots : ∀ call ∈ remaining, call.RootsBelow
  installed : ∀ bus table, machine.unit.contextTables bus = some table → (bus, table) ∈ installs
  absent : ∀ bus, machine.unit.contextTables bus = none →
    entryWords machine.world.memory (machine.unit.rootTable.busPaddr bus) = (0, 0)
  linked : ∀ bus table, machine.unit.contextTables bus = some table →
    VtdRootEntry.contextTableRoot
      ⟨(entryWords machine.world.memory (machine.unit.rootTable.busPaddr bus)).1,
        (entryWords machine.world.memory (machine.unit.rootTable.busPaddr bus)).2⟩ =
      some (UInt64.ofNat table.backing.phys.start)
  blank : ∀ install ∈ installs, machine.unit.contextTables install.1 = none →
    ∀ client, entryWords machine.world.memory (install.2.clientPaddr client) = (0, 0)
  unbound : ∀ client, machine.unit.contextTables client.bus = none → routes client = .notPresent
  entries : ∀ client table, client.segment = segment →
    machine.unit.contextTables client.bus = some table →
    VtdContextEntry.route ⟨(entryWords machine.world.memory (table.clientPaddr client)).1,
      (entryWords machine.world.memory (table.clientPaddr client)).2⟩ = routes client

namespace Routed

variable {installs : List (UInt8 × VtdContextTableBacking)} {machine : VtdMachine QN Registers}
  {routes : PciDevice → Route} {remaining : List RouteCall}

theorem tail {call : RouteCall} (routed : Routed mmu segment installs machine routes (call :: remaining)) :
    Routed mmu segment installs machine routes remaining := by
  have later : (remaining.filterMap RouteCall.install).Sublist
      ((call :: remaining).filterMap RouteCall.install) :=
    List.Sublist.filterMap _ (List.sublist_cons_self _ _)
  exact { routed with
    pending := fun install member => routed.pending install (later.subset member)
    distinct := routed.distinct.sublist later
    roots := fun made member => routed.roots made (List.mem_cons_of_mem _ member) }

theorem entry_eq (routed : Routed mmu segment installs machine routes remaining)
    (requester : PciDevice) :
    machine.entry requester = (machine.unit.contextTables requester.bus).map fun table =>
      ⟨(entryWords machine.world.memory (table.clientPaddr requester)).1,
        (entryWords machine.world.memory (table.clientPaddr requester)).2⟩ := by
  rw [VtdMachine.entry, hardwareEntry]
  simp only
  cases found : machine.unit.contextTables requester.bus with
  | none =>
      have zero := routed.absent requester.bus found
      rw [VtdRootTableBacking.busPaddr, DescriptorTableBacking.entryPaddr] at zero
      rw [zero]
      rfl
  | some table =>
      have root := routed.linked requester.bus table found
      rw [VtdRootTableBacking.busPaddr, DescriptorTableBacking.entryPaddr] at root
      have below : table.backing.phys.start < 2 ^ 52 :=
        routed.layout.below _ (routed.installed _ _ found)
      have address : (UInt64.ofNat table.backing.phys.start).toNat = table.backing.phys.start :=
        UInt64.toNat_ofNat_of_lt' (by simp [UInt64.size]; omega)
      rw [root]
      simp only [address]
      rfl

theorem route_eq (routed : Routed mmu segment installs machine routes remaining)
    {requester : PciDevice} (here : requester.segment = segment) :
    machine.route requester = routes requester := by
  have walked := routed.entry_eq requester
  rw [VtdMachine.entry] at walked
  rw [VtdMachine.route, hardwareRoute, walked]
  cases found : machine.unit.contextTables requester.bus with
  | none => exact (routed.unbound requester found).symm
  | some table => exact routed.entries requester table here found

theorem words_kept (routed : Routed mmu segment installs machine routes remaining)
    {client requester : PciDevice} {table other : VtdContextTableBacking}
    (here : client.segment = segment) (found : machine.unit.contextTables client.bus = some table)
    (domain : VtdDomain) (entry : VtdContextEntry) (inside : requester.segment = segment)
    (linked : machine.unit.contextTables requester.bus = some other)
    (different : requester ≠ client) :
    entryWords (machine.unit.replaceContext mmu domain client table entry machine.world).2.memory
      (other.clientPaddr requester) =
      entryWords machine.world.memory (other.clientPaddr requester) := by
  have member := routed.installed _ _ found
  have listed := routed.installed _ _ linked
  apply VtdUnit.replaceContext_words_other routed.layout.ringMapped
    (routed.layout.tablesMapped _ member) (routed.layout.client_off_ring listed requester)
  apply routed.layout.clients_apart listed member
  by_contra overlapping
  rw [not_or, not_not, not_not] at overlapping
  exact different (requester_ext (inside.trans here.symm) overlapping.1 overlapping.2)

theorem replace (routed : Routed mmu segment installs machine routes remaining)
    {client : PciDevice} {table : VtdContextTableBacking} (here : client.segment = segment)
    (found : machine.unit.contextTables client.bus = some table) (domain : VtdDomain)
    (entry : VtdContextEntry) :
    Routed mmu segment installs
      ⟨machine.unit, (machine.unit.replaceContext mmu domain client table entry machine.world).2⟩
      (Function.update routes client entry.route) remaining := by
  have layout := routed.layout
  have member := routed.installed client.bus table found
  have ring : (machine.unit.replaceContext mmu domain client table entry
      machine.world).2.queue.backing = machine.world.queue.backing :=
    (VtdUnit.replaceContext_ringOnly layout.ringMapped).ring
  have kept : ∀ query, (∀ offset < 16, ¬machine.world.OwnsRing (query + offset)) →
      query + 16 ≤ table.clientPaddr client ∨ table.clientPaddr client + 16 ≤ query →
      entryWords (machine.unit.replaceContext mmu domain client table entry machine.world).2.memory
        query = entryWords machine.world.memory query :=
    fun query offRing other => VtdUnit.replaceContext_words_other layout.ringMapped
      (layout.tablesMapped _ member) offRing other
  have rootKept : ∀ bus, entryWords
      (machine.unit.replaceContext mmu domain client table entry machine.world).2.memory
        (machine.unit.rootTable.busPaddr bus) =
      entryWords machine.world.memory (machine.unit.rootTable.busPaddr bus) :=
    fun bus => kept _ (layout.bus_off_ring bus) (layout.bus_apart_client bus member client)
  constructor
  · exact layout.congr rfl rfl ring
  · exact routed.pending
  · exact routed.distinct
  · exact routed.roots
  · exact routed.installed
  · intro bus none
    rw [rootKept]
    exact routed.absent bus none
  · intro bus other linked
    rw [rootKept]
    exact routed.linked bus other linked
  · intro install listed none query
    rw [kept _ (layout.client_off_ring listed query)]
    · exact routed.blank install listed none query
    · apply layout.clients_apart listed member
      left
      rintro same
      simp [same, found] at none
  · intro query none
    have different : query ≠ client := by
      rintro rfl
      simp [found] at none
    rw [Function.update_of_ne different]
    exact routed.unbound query none
  · intro query other inside linked
    by_cases same : query = client
    · subst same
      obtain rfl : table = other := Option.some.inj (found.symm.trans linked)
      rw [Function.update_self, VtdUnit.replaceContext_words layout.ringMapped
        (layout.tablesMapped _ member) (layout.client_off_ring member query)]
    · rw [Function.update_of_ne same,
        routed.words_kept here found domain entry inside linked same]
      exact routed.entries query other inside linked

theorem installContextTable_ok {bus : UInt8} {table : VtdContextTableBacking}
    {after : VtdMachine QN Registers}
    (ran : machine.unit.installContextTable mmu bus table machine.world =
      (.ok after.unit, after.world)) :
    ∃ entry, VtdRootEntry.fromContextTable table = .ok entry ∧
      after.unit.info = machine.unit.info ∧ after.unit.rootTable = machine.unit.rootTable ∧
      after.unit.contextTables = Function.update machine.unit.contextTables bus (some table) ∧
      after.world =
        machine.world.writeEntry mmu (machine.unit.rootTable.busVaddr bus) entry.low entry.high := by
  rw [VtdUnit.installContextTable, VtdRootEntry.fromContextTable_eq,
    Effect.bind_of_ok (Effect.ofExcept_apply _ _),
    Effect.bind_of_ok (writeRootEntry_apply mmu _ _ _ _), Effect.pure_apply] at ran
  simp only [Prod.mk.injEq, Except.ok.injEq] at ran
  rw [← ran.1, ← ran.2]
  exact ⟨_, VtdRootEntry.fromContextTable_eq table, rfl, rfl, rfl, rfl⟩

theorem install {bus : UInt8} {table : VtdContextTableBacking} {after : VtdMachine QN Registers}
    (routed : Routed mmu segment installs machine routes
      (.installContextTable bus table :: remaining))
    (ran : machine.unit.installContextTable mmu bus table machine.world =
      (.ok after.unit, after.world)) :
    Routed mmu segment installs after routes remaining := by
  obtain ⟨entry, built, info, root, tables, world⟩ := installContextTable_ok ran
  have layout := routed.layout
  obtain ⟨member, vacant⟩ := routed.pending (bus, table) (by simp [RouteCall.install])
  have contiguous := bus_contiguous layout.rootMapped bus
  have here : after.unit.contextTables bus = some table := by rw [tables, Function.update_self]
  have elsewhere : ∀ other ≠ bus,
      after.unit.contextTables other = machine.unit.contextTables other := by
    intro other different
    rw [tables, Function.update_of_ne different]
  have unset : ∀ other, after.unit.contextTables other = none →
      other ≠ bus ∧ machine.unit.contextTables other = none := by
    intro other empty
    have different : other ≠ bus := by
      rintro rfl
      simp [here] at empty
    exact ⟨different, (elsewhere other different).symm.trans empty⟩
  have rootKept : ∀ other ≠ bus,
      entryWords after.world.memory (machine.unit.rootTable.busPaddr other) =
      entryWords machine.world.memory (machine.unit.rootTable.busPaddr other) := by
    intro other different
    rw [world]
    apply entryWords_store128_outside contiguous
    apply machine.unit.rootTable.backing.entries_apart_of_ne
    exact fun equal => different (UInt8.toNat_inj.mp equal)
  have tableKept : ∀ install ∈ installs, ∀ client,
      entryWords after.world.memory (install.2.clientPaddr client) =
      entryWords machine.world.memory (install.2.clientPaddr client) := by
    intro install listed client
    rw [world]
    apply entryWords_store128_outside contiguous
    exact (layout.bus_apart_client bus listed client).symm
  constructor
  · apply layout.congr info root
    rw [world]
    rfl
  · intro install later
    have earlier := routed.distinct
    rw [List.filterMap_cons_some (show RouteCall.install _ = some (bus, table) from rfl),
      List.pairwise_cons] at earlier
    obtain ⟨listed, empty⟩ := routed.tail.pending install later
    exact ⟨listed, (elsewhere _ (earlier.1 install later).symm).trans empty⟩
  · exact routed.tail.distinct
  · exact routed.tail.roots
  · intro other found linked
    by_cases same : other = bus
    · subst same
      rw [here] at linked
      exact Option.some.inj linked ▸ member
    · exact routed.installed other found ((elsewhere other same).symm.trans linked)
  · intro other empty
    obtain ⟨different, before⟩ := unset other empty
    rw [root, rootKept other different]
    exact routed.absent other before
  · intro other found linked
    rw [root]
    by_cases same : other = bus
    · subst same
      rw [here] at linked
      obtain rfl := Option.some.inj linked
      rw [world, QueueWorld.writeEntry, entryWords_store128 contiguous]
      exact VtdRootEntry.fromContextTable_contextTableRoot (layout.below _ member) built
    · rw [rootKept other same]
      exact routed.linked other found ((elsewhere other same).symm.trans linked)
  · intro install listed empty client
    rw [tableKept install listed client]
    exact routed.blank install listed (unset _ empty).2 client
  · intro client empty
    exact routed.unbound client (unset _ empty).2
  · intro client found inside linked
    by_cases same : client.bus = bus
    · rw [same, here] at linked
      obtain rfl := Option.some.inj linked
      rw [tableKept (bus, table) member, routed.blank (bus, table) member vacant,
        routed.unbound client (same ▸ vacant)]
      decide
    · have before := (elsewhere _ same).symm.trans linked
      rw [tableKept (client.bus, found) (routed.installed _ _ before)]
      exact routed.entries client found inside before

theorem entry_kept (routed : Routed mmu segment installs machine routes remaining)
    {call : RouteCall} {client requester : PciDevice} (made : call.client = some client)
    (here : requester.segment = segment) (different : requester ≠ client) :
    (call.perform mmu machine).2.entry requester = machine.entry requester := by
  cases checks : call.prepare machine.unit with
  | error error => rw [RouteCall.perform_of_refused made checks]
  | ok prepared =>
      obtain ⟨table, entry⟩ := prepared
      obtain ⟨valid, found⟩ := RouteCall.prepare_table made checks
      have inside := (VtdUnit.validateClient_eq_ok.mp valid segment routed.layout.segment).symm
      obtain ⟨domain, controller⟩ := RouteCall.controllerDomain_of_client made
      rw [RouteCall.perform_of_prepared made controller checks,
        (routed.replace inside found domain entry).entry_eq, routed.entry_eq]
      dsimp only
      cases linked : machine.unit.contextTables requester.bus with
      | none => simp only [Option.map_none]
      | some other =>
          have kept := routed.words_kept inside found domain entry here linked different
          simp only [Option.map_some, kept]

theorem step {call : RouteCall} {next : VtdMachine QN Registers}
    (routed : Routed mmu segment installs machine routes (call :: remaining))
    (stepped : call.step mmu machine = some next) :
    Routed mmu segment installs next (RouteCall.route routes call) remaining := by
  rw [RouteCall.step] at stepped
  rcases performed : call.perform mmu machine with ⟨outcome, after⟩
  rw [performed] at stepped
  cases outcome with
  | error error => contradiction
  | ok value =>
      obtain rfl := Option.some.inj stepped
      cases call with
      | installContextTable bus table =>
          exact routed.install (RouteCall.perform_install_ok performed)
      | bindContext activeDomain binding =>
          obtain ⟨domain, table, entry, _, prepared, unit, ran⟩ :=
            RouteCall.perform_ok rfl performed
          obtain ⟨_, valid, _, found, built⟩ := VtdUnit.prepareBinding_eq_ok.mp prepared
          have inside := (VtdUnit.validateClient_eq_ok.mp valid segment routed.layout.segment).symm
          have encoded := targetRoute_of_fromBinding
            (fun bound => routed.roots _ List.mem_cons_self activeDomain binding bound rfl) built
          have replaced := routed.tail.replace inside found domain entry
          rw [ran, ← unit, encoded] at replaced
          exact replaced
      | unbindContext domain client selector =>
          obtain ⟨active, table, entry, _, prepared, unit, ran⟩ :=
            RouteCall.perform_ok rfl performed
          obtain ⟨_, valid, found, rfl⟩ := VtdUnit.prepareUnbinding_eq_ok.mp prepared
          have inside := (VtdUnit.validateClient_eq_ok.mp valid segment routed.layout.segment).symm
          have cleared : VtdContextEntry.disabled.route = .notPresent := by decide
          have replaced := routed.tail.replace inside found active .disabled
          rw [ran, ← unit, cleared] at replaced
          exact replaced

end Routed

/-- A unit fresh from its constructor, over zeroed memory laid out for the calls to come. -/
structure Prepared (mmu : Translation) (segment : UInt16) (start : VtdMachine QN Registers)
    (calls : List RouteCall) : Prop where
  layout : Layout mmu segment (calls.filterMap RouteCall.install) start
  bare : ∀ bus, start.unit.contextTables bus = none
  rootZero : ∀ paddr, start.unit.rootTable.backing.Owns paddr → start.world.memory paddr = 0
  tablesZero : ∀ install ∈ calls.filterMap RouteCall.install, ∀ paddr,
    install.2.backing.Owns paddr → start.world.memory paddr = 0
  roots : ∀ call ∈ calls, call.RootsBelow

theorem Prepared.routed {start : VtdMachine QN Registers} {calls : List RouteCall}
    (prepared : Prepared mmu segment start calls) :
    Routed mmu segment (calls.filterMap RouteCall.install) start (fun _ => .notPresent) calls := by
  constructor
  · exact prepared.layout
  · exact fun install member => ⟨member, prepared.bare install.1⟩
  · exact prepared.layout.once
  · exact prepared.roots
  · intro bus table found
    simp [prepared.bare] at found
  · intro bus _
    apply entryWords_zero
    intro offset inside
    exact prepared.rootZero _
      (start.unit.rootTable.backing.entry_owned (start.unit.rootTable.bus_lt bus) inside)
  · intro bus table found
    simp [prepared.bare] at found
  · intro install member _ client
    apply entryWords_zero
    intro offset inside
    exact prepared.tablesZero install member _
      (install.2.backing.entry_owned (install.2.index_lt _) inside)
  · exact fun _ _ => rfl
  · intro client table _ found
    simp [prepared.bare] at found

def RouteCall.Rejected (unit : VtdUnit Registers) : RouteCall → Prop
  | .installContextTable _ _ => False
  | .bindContext activeDomain binding =>
      binding.selector ≠ .default ∨
        (∃ segment, unit.info.segment = some segment ∧ segment ≠ binding.client.segment) ∨
        VtdUnit.foreignDomain activeDomain binding.target = true ∨
        unit.contextTables binding.client.bus = none
  | .unbindContext _ client selector =>
      selector ≠ .default ∨
        (∃ segment, unit.info.segment = some segment ∧ segment ≠ client.segment) ∨
        unit.contextTables client.bus = none

theorem RouteCall.perform_of_rejected {call : RouteCall} {machine : VtdMachine QN Registers}
    (rejected : call.Rejected machine.unit) :
    ∃ error, call.perform mmu machine = (.error error, machine) := by
  have refused : ∃ client error, call.client = some client ∧
      call.prepare machine.unit = .error error := by
    cases call with
    | installContextTable bus table => exact rejected.elim
    | bindContext activeDomain binding =>
        cases checks : machine.unit.prepareBinding activeDomain binding with
        | error error => exact ⟨binding.client, error, rfl, checks⟩
        | ok prepared =>
            obtain ⟨table, entry⟩ := prepared
            obtain ⟨default, valid, own, found, _⟩ := VtdUnit.prepareBinding_eq_ok.mp checks
            rcases rejected with other | ⟨segment, known, other⟩ | foreign | missing
            · exact absurd default other
            · exact absurd (VtdUnit.validateClient_eq_ok.mp valid segment known) other
            · simp [own] at foreign
            · simp [found] at missing
    | unbindContext domain client selector =>
        cases checks : machine.unit.prepareUnbinding client selector with
        | error error => exact ⟨client, error, rfl, checks⟩
        | ok prepared =>
            obtain ⟨table, entry⟩ := prepared
            obtain ⟨default, valid, found, _⟩ := VtdUnit.prepareUnbinding_eq_ok.mp checks
            rcases rejected with other | ⟨segment, known, other⟩ | missing
            · exact absurd default other
            · exact absurd (VtdUnit.validateClient_eq_ok.mp valid segment known) other
            · simp [found] at missing
  obtain ⟨client, error, made, checks⟩ := refused
  exact ⟨error, RouteCall.perform_of_refused made checks⟩

theorem routing_refines {start final : VtdMachine QN Registers} {calls : List RouteCall}
    (prepared : Prepared mmu segment start calls)
    (ran : Transition.run (RouteCall.step mmu) start calls = some final) :
    (∀ requester, requester.segment = segment →
      final.route requester = calls.foldl RouteCall.route (fun _ => .notPresent) requester) ∧
    (∀ call client requester, RouteCall.client call = some client →
      requester.segment = segment → requester ≠ client →
      (call.perform mmu final).2.entry requester = final.entry requester) ∧
    (∀ call, RouteCall.Rejected final.unit call →
      ∃ error, call.perform mmu final = (.error error, final)) := by
  have routed : Routed mmu segment (calls.filterMap RouteCall.install) final
      (calls.foldl RouteCall.route fun _ => .notPresent) [] :=
    Transition.simulation_of_run (Routed mmu segment (calls.filterMap RouteCall.install))
      (fun _ _ _ _ _ related stepped => related.step stepped) prepared.routed ran
  refine ⟨fun requester here => routed.route_eq here, ?_, fun call => RouteCall.perform_of_rejected⟩
  intro call client requester made here different
  exact routed.entry_kept made here different

def sampleClient : PciDevice := ⟨0⟩

def sampleDomain : VtdDomain := ⟨⟨7⟩, 0x5000, .bits48, .stage2⟩

def sampleCalls : List RouteCall :=
  [.installContextTable 0 VtdContextTableBacking.sample,
    .bindContext sampleDomain ⟨sampleClient, .default, .domain sampleDomain⟩]

def sampleMachine : VtdMachine 2 UInt64 := ⟨VtdUnit.sample, VtdUnit.sampleWorld⟩

theorem sampleMachine_ring {paddr : Nat} (owned : sampleMachine.world.OwnsRing paddr) :
    paddr < 32 := by
  obtain ⟨backing, active, inside⟩ := owned
  obtain rfl := Option.some.inj active
  exact inside.2

theorem sampleMachine_prepared : Prepared id 0 sampleMachine sampleCalls := by
  have installs : sampleCalls.filterMap RouteCall.install = [(0, VtdContextTableBacking.sample)] := rfl
  have rootFrom : ∀ paddr, sampleMachine.unit.rootTable.backing.Owns paddr →
      0x1000 ≤ paddr ∧ paddr < 0x2000 := fun _ owned => owned
  have tableFrom : ∀ paddr, VtdContextTableBacking.sample.backing.Owns paddr → 0x2000 ≤ paddr :=
    fun _ owned => owned.1
  constructor
  · rw [installs]
    constructor
    · rfl
    · exact VtdUnit.sampleWorld_mapped
    · exact fun _ _ => rfl
    · intro install member
      obtain rfl := List.mem_singleton.mp member
      exact fun _ _ => rfl
    · intro install member
      obtain rfl := List.mem_singleton.mp member
      decide
    · intro paddr owned ring
      have low := sampleMachine_ring ring
      have high := rootFrom paddr owned
      omega
    · intro install member paddr owned ring
      obtain rfl := List.mem_singleton.mp member
      have low := sampleMachine_ring ring
      have high := tableFrom paddr owned
      omega
    · intro install member paddr both
      obtain rfl := List.mem_singleton.mp member
      have low := rootFrom paddr both.2
      have high := tableFrom paddr both.1
      omega
    · exact List.pairwise_singleton _ _
    · exact List.pairwise_singleton _ _
  · exact fun _ => rfl
  · exact fun _ _ => rfl
  · exact fun _ _ _ _ => rfl
  · intro call member activeDomain binding domain made target
    subst made
    simp only [sampleCalls, List.mem_cons, reduceCtorEq, false_or, List.not_mem_nil, or_false,
      RouteCall.bindContext.injEq] at member
    rw [member.2] at target
    obtain rfl := BindingTarget.domain.inj target
    decide

theorem sampleMachine_routes : ∃ final,
    Transition.run (RouteCall.step id) sampleMachine sampleCalls = some final ∧
      final.route sampleClient = .multiLevel 0x5000 7 48 := by
  obtain ⟨final, ran⟩ :=
    Option.isSome_iff_exists.mp
      (rfl : (Transition.run (RouteCall.step id) sampleMachine sampleCalls).isSome = true)
  have routed := (routing_refines sampleMachine_prepared ran).1 sampleClient rfl
  exact ⟨final, ran, routed⟩

end Iommu
