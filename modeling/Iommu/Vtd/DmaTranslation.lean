import Iommu.Paging.Walk
import Iommu.Vtd.AddressWidths
import Iommu.Vtd.ContextCache

/-!
From a requester to memory: the root and context tables lead an access to the page tables of the
domain that the requester was last bound to, and these to the page that they map there, as far as
the unit has the widths and the page sizes for it.
-/

namespace Iommu

open Memory RadixTree

variable {QN : Nat} {Registers : Type} {mmu : Translation} {segment : UInt16}

def levelsOfWidth (bits : Nat) : Nat := (bits - 12) / 9

def VtdCapability.supportsBits (cap : VtdCapability) (bits : Nat) : Bool :=
  [VtdSecondLevelAddressWidth.bits39, .bits48, .bits57].any fun width =>
    width.bits.toNat = bits && cap.supportsAddressWidth width

/-- Where an access leads that the context entry sends on. The unit faults on a width that it lacks,
on any but its greatest width in an entry that is passed through, and on addresses beyond its own
limit. -/
def routeDma (info : VtdInfo) (memory : Memory) (permission : AccessFlag) (address : Nat)
    (entry : VtdContextEntry) : Option Nat :=
  match entry.route with
  | .notPresent => none
  | .passThrough =>
      if info.ecap.passThrough = true ∧
          info.cap.bestAddressWidth.any (fun width => width.bits = entry.addressWidthBits) = true ∧
          address < 2 ^ info.cap.maxGuestAddressWidth then some address
      else none
  | .multiLevel root _ bits =>
      if info.cap.supportsBits bits = true ∧ address < 2 ^ info.cap.maxGuestAddressWidth ∧
          address < 2 ^ bits then
        walkTable info.cap.supportsLeafSize memory permission root (levelsOfWidth bits) address
      else none
  | .reserved => none

def VtdMachine.dma (machine : VtdMachine QN Registers) (requester : PciDevice)
    (permission : AccessFlag) (address : Nat) : Option Nat :=
  (machine.entry requester).bind
    (routeDma machine.unit.info machine.world.memory permission address)

/-- What may happen between accesses: a call of the unit, or the owners of the page tables change
memory and say what the tables stand for now. -/
inductive DmaStep
  | call (call : RouteCall)
  | edit (memory : Memory) (pages : VtdDomain → DomainTables)

def DmaStep.routeCall : DmaStep → Option RouteCall
  | .call made => some made
  | .edit _ _ => none

structure DmaLedger (QN : Nat) (Registers : Type) where
  machine : VtdMachine QN Registers
  targets : PciDevice → BindingTarget VtdDomain
  pages : VtdDomain → DomainTables

def RouteCall.target : RouteCall → BindingTarget VtdDomain
  | .installContextTable _ _ => .abort
  | .bindContext _ binding => binding.target
  | .unbindContext _ _ _ => .abort

namespace DmaLedger

def record (mmu : Translation) (ledger : DmaLedger QN Registers) : DmaStep → DmaLedger QN Registers
  | .call call => { ledger with
      machine := (call.perform mmu ledger.machine).2
      targets := call.noted ledger.machine.unit call.target ledger.targets }
  | .edit memory pages => { ledger with
      machine := ⟨ledger.machine.unit, { ledger.machine.world with memory := memory }⟩
      pages := pages }

def opened (machine : VtdMachine QN Registers) (pages : VtdDomain → DomainTables) :
    DmaLedger QN Registers :=
  ⟨machine, fun _ => .abort, pages⟩

def after (mmu : Translation) (machine : VtdMachine QN Registers)
    (pages : VtdDomain → DomainTables) (steps : List DmaStep) : DmaLedger QN Registers :=
  steps.foldl (record mmu) (opened machine pages)

/-- Where an access should lead: to the page that the bound domain maps there, on a unit with tables
of the width of that domain. Otherwise it is to fault, also for a requester passed through: the entry
that lets it through has the narrowest width. -/
def Reaches (ledger : DmaLedger QN Registers) (requester : PciDevice) (permission : AccessFlag)
    (address paddr : Nat) : Prop :=
  let cap := ledger.machine.unit.info.cap
  ∃ domain, ledger.targets requester = .domain domain ∧
    cap.supportsAddressWidth domain.width = true ∧ address < 2 ^ cap.maxGuestAddressWidth ∧
      (ledger.pages domain).Maps cap.supportsLeafSize permission address paddr

end DmaLedger

/-- The bytes that the hardware reads for the unit: its ring, its root table, its context tables. -/
def VtdMachine.OwnsTables (installs : List (UInt8 × VtdContextTableBacking))
    (machine : VtdMachine QN Registers) (paddr : Nat) : Prop :=
  machine.world.OwnsRing paddr ∨ machine.unit.rootTable.backing.Owns paddr ∨
    ∃ install ∈ installs, install.2.backing.Owns paddr

/-- The page tables of the bound domains are in memory, where the domains say and off the unit's
own tables. -/
structure PagesReady (bound : VtdDomain → Prop) (owned : Nat → Prop) (memory : Memory)
    (pages : VtdDomain → DomainTables) : Prop where
  rooted : ∀ domain, bound domain → (pages domain).root.frame = domain.root
  levels : ∀ domain, bound domain →
    (pages domain).depth + 1 = levelsOfWidth domain.width.bits.toNat
  stored : ∀ domain, bound domain → (pages domain).Stored memory
  apart : ∀ domain, bound domain → ∀ paddr, (pages domain).Owns paddr → ¬owned paddr

def DmaStep.Allowed (installs : List (UInt8 × VtdContextTableBacking)) (bound : VtdDomain → Prop)
    (ledger : DmaLedger QN Registers) : DmaStep → Prop
  | .call _ => True
  | .edit memory pages =>
      (∀ paddr, ledger.machine.OwnsTables installs paddr →
        memory paddr = ledger.machine.world.memory paddr) ∧
      PagesReady bound (ledger.machine.OwnsTables installs) memory pages

theorem PagesReady.congr {bound : VtdDomain → Prop} {owned others : Nat → Prop}
    {first second : Memory} {pages : VtdDomain → DomainTables}
    (ready : PagesReady bound owned first pages) (same : ∀ paddr, others paddr ↔ owned paddr)
    (kept : ∀ paddr, ¬owned paddr → second paddr = first paddr) :
    PagesReady bound others second pages := by
  constructor
  · exact ready.rooted
  · exact ready.levels
  · intro domain used
    exact (ready.stored domain used).congr fun paddr below =>
      kept paddr (ready.apart domain used paddr below)
  · intro domain used paddr below
    rw [same]
    exact ready.apart domain used paddr below

theorem DescriptorTableBacking.outside_entry {entryBytes : Nat}
    (backing : DescriptorTableBacking entryBytes) {index paddr : Nat}
    (below : index < backing.entryCount) (outside : ¬backing.Owns paddr) :
    paddr < backing.entryPaddr index ∨ backing.entryPaddr index + entryBytes ≤ paddr := by
  have fits := backing.entry_fits below
  rw [Owns] at outside
  rw [entryPaddr]
  omega

theorem RouteCall.asked_eq (call : RouteCall) : call.asked = targetRoute call.target := by
  cases call <;> rfl

theorem RouteCall.noted_cases (unit : VtdUnit Registers) (call : RouteCall) :
    (∃ client, ∀ {Fact : Type} (fact : Fact) (facts : PciDevice → Fact),
      call.noted unit fact facts = Function.update facts client fact) ∨
    ∀ {Fact : Type} (fact : Fact) (facts : PciDevice → Fact), call.noted unit fact facts = facts := by
  cases made : call.client with
  | none =>
      right
      intro Fact fact facts
      rw [noted, made]
  | some client =>
      cases checks : call.prepare unit with
      | error error => exact Or.inr fun fact facts => noted_of_refused checks fact facts
      | ok prepared => exact Or.inl ⟨client, fun fact facts => noted_of_prepared made checks fact facts⟩

theorem RouteCall.noted_route (unit : VtdUnit Registers) (call : RouteCall)
    (targets : PciDevice → BindingTarget VtdDomain) (requester : PciDevice) :
    call.noted unit call.asked (fun other => targetRoute (targets other)) requester =
      targetRoute (call.noted unit call.target targets requester) := by
  rcases call.noted_cases unit with ⟨client, updates⟩ | keeps
  · rw [updates, updates, asked_eq]
    by_cases same : requester = client <;> simp [same]
  · rw [keeps, keeps]

namespace Routed

variable {installs : List (UInt8 × VtdContextTableBacking)} {machine : VtdMachine QN Registers}
  {routes : PciDevice → Route} {call : RouteCall} {remaining : List RouteCall}

theorem perform_ring (routed : Routed mmu segment installs machine routes (call :: remaining)) :
    (call.perform mmu machine).2.world.queue.backing = machine.world.queue.backing := by
  cases made : call.client with
  | none =>
      cases call with
      | installContextTable bus table =>
          obtain ⟨_, _, _, _, _, world⟩ := installContextTable_ok (RouteCall.perform_install_ok
            (Prod.ext (RouteCall.perform_install mmu bus table machine) rfl))
          rw [world]
          rfl
      | bindContext activeDomain binding => contradiction
      | unbindContext domain client selector => contradiction
  | some client =>
      cases checks : call.prepare machine.unit with
      | error error => rw [RouteCall.perform_of_refused made checks]
      | ok prepared =>
          obtain ⟨domain, controller⟩ := RouteCall.controllerDomain_of_client made
          rw [RouteCall.perform_of_prepared made controller checks]
          exact (VtdUnit.replaceContext_ringOnly routed.layout.ringMapped).ring

theorem perform_outside (routed : Routed mmu segment installs machine routes (call :: remaining))
    {paddr : Nat} (outside : ¬machine.OwnsTables installs paddr) :
    (call.perform mmu machine).2.world.memory paddr = machine.world.memory paddr := by
  rw [VtdMachine.OwnsTables, not_or, not_or] at outside
  obtain ⟨offRing, offRoot, offTables⟩ := outside
  cases made : call.client with
  | none =>
      cases call with
      | installContextTable bus table =>
          obtain ⟨_, _, _, _, _, world⟩ := installContextTable_ok (RouteCall.perform_install_ok
            (Prod.ext (RouteCall.perform_install mmu bus table machine) rfl))
          rw [world]
          apply store128_apply_outside (bus_contiguous routed.layout.rootMapped bus)
          exact machine.unit.rootTable.backing.outside_entry (machine.unit.rootTable.bus_lt bus)
            offRoot
      | bindContext activeDomain binding => contradiction
      | unbindContext domain client selector => contradiction
  | some client =>
      cases checks : call.prepare machine.unit with
      | error error => rw [RouteCall.perform_of_refused made checks]
      | ok prepared =>
          obtain ⟨table, entry⟩ := prepared
          obtain ⟨domain, controller⟩ := RouteCall.controllerDomain_of_client made
          obtain ⟨_, found⟩ := RouteCall.prepare_table made checks
          have member := routed.installed _ _ found
          have mapped : table.backing.Mapped mmu :=
            routed.layout.tablesMapped (client.bus, table) member
          rw [RouteCall.perform_of_prepared made controller checks]
          dsimp only
          rw [(VtdUnit.replaceContext_ringOnly routed.layout.ringMapped).memory paddr offRing]
          apply store128_apply_outside (client_contiguous mapped client)
          exact table.backing.outside_entry (table.index_lt _)
            fun owned => offTables ⟨(client.bus, table), member, owned⟩

theorem perform_ownsTables
    (routed : Routed mmu segment installs machine routes (call :: remaining)) (paddr : Nat) :
    (call.perform mmu machine).2.OwnsTables installs paddr ↔ machine.OwnsTables installs paddr := by
  rw [VtdMachine.OwnsTables, VtdMachine.OwnsTables, routed.perform_rootTable,
    QueueWorld.ownsRing_congr routed.perform_ring]

theorem edited (routed : Routed mmu segment installs machine routes remaining) {memory : Memory}
    (kept : ∀ paddr, machine.OwnsTables installs paddr → memory paddr = machine.world.memory paddr) :
    Routed mmu segment installs ⟨machine.unit, { machine.world with memory := memory }⟩ routes
      remaining := by
  have root : ∀ bus, entryWords memory (machine.unit.rootTable.busPaddr bus) =
      entryWords machine.world.memory (machine.unit.rootTable.busPaddr bus) := by
    intro bus
    apply entryWords_congr
    intro offset inside
    apply kept
    exact Or.inr (Or.inl (machine.unit.rootTable.backing.entry_owned
      (machine.unit.rootTable.bus_lt bus) inside))
  have slot : ∀ install ∈ installs, ∀ client,
      entryWords memory (install.2.clientPaddr client) =
        entryWords machine.world.memory (install.2.clientPaddr client) := by
    intro install member client
    apply entryWords_congr
    intro offset inside
    apply kept
    exact Or.inr (Or.inr ⟨install, member,
      install.2.backing.entry_owned (install.2.index_lt _) inside⟩)
  constructor
  · exact routed.layout.congr rfl rfl rfl
  · exact routed.pending
  · exact routed.distinct
  · exact routed.roots
  · exact routed.installed
  · intro bus vacant
    exact (root bus).trans (routed.absent bus vacant)
  · intro bus table found
    dsimp only
    rw [root]
    exact routed.linked bus table found
  · intro install member vacant client
    exact (slot install member client).trans (routed.blank install member vacant client)
  · exact routed.unbound
  · intro client table here found
    dsimp only
    rw [slot (client.bus, table) (routed.installed _ _ found)]
    exact routed.entries client table here found

end Routed

theorem VtdSecondLevelAddressWidth.bits_injective {first second : VtdSecondLevelAddressWidth}
    (same : first.bits.toNat = second.bits.toNat) : first = second := by
  cases first <;> cases second <;> first | rfl | exact absurd same (by decide)

theorem VtdCapability.supportsBits_eq (cap : VtdCapability) (width : VtdSecondLevelAddressWidth) :
    cap.supportsBits width.bits.toNat = cap.supportsAddressWidth width := by
  rw [Bool.eq_iff_iff, supportsBits, List.any_eq_true]
  simp only [Bool.and_eq_true, decide_eq_true_iff]
  constructor
  · rintro ⟨other, _, same, supported⟩
    rwa [← VtdSecondLevelAddressWidth.bits_injective same]
  · intro supported
    refine ⟨width, ?_, rfl, supported⟩
    cases width <;> simp

theorem VtdContextEntry.eq_passThrough {binding : Binding PciDevice VtdDomain}
    {ecap : VtdExtendedCapability} {entry : VtdContextEntry}
    (below : ∀ domain, binding.target = .domain domain → domain.root.toNat < 2 ^ 52)
    (built : VtdContextEntry.fromBinding binding ecap = .ok entry)
    (passed : entry.route = .passThrough) : entry = .passThrough := by
  rw [targetRoute_of_fromBinding below built] at passed
  rw [fromBinding] at built
  split at built
  · contradiction
  · cases target : binding.target with
    | abort =>
        rw [target] at passed
        contradiction
    | passThrough =>
        simp only [target] at built
        split at built
        · exact (Except.ok.inj built).symm
        · contradiction
    | domain domain =>
        rw [target] at passed
        contradiction

theorem RouteCall.prepare_passThrough {unit : VtdUnit Registers} {call : RouteCall}
    {table : VtdContextTableBacking} {entry : VtdContextEntry} (below : call.RootsBelow)
    (checks : call.prepare unit = .ok (table, entry)) (passed : entry.route = .passThrough) :
    entry = .passThrough := by
  cases call with
  | installContextTable bus table => contradiction
  | bindContext activeDomain binding =>
      obtain ⟨_, _, _, _, built⟩ := VtdUnit.prepareBinding_eq_ok.mp checks
      exact VtdContextEntry.eq_passThrough (fun bound => below activeDomain binding bound rfl) built
        passed
  | unbindContext domain client selector =>
      obtain ⟨_, _, _, rfl⟩ := VtdUnit.prepareUnbinding_eq_ok.mp checks
      contradiction

theorem VtdContextEntry.present_of_passed {entry : VtdContextEntry}
    (passed : entry.route = .passThrough) : entry.present = true := by
  rw [route] at passed
  split at passed
  · assumption
  · contradiction

def PassesNarrow (segment : UInt16) (machine : VtdMachine QN Registers) : Prop :=
  ∀ requester entry, requester.segment = segment → machine.entry requester = some entry →
    entry.route = .passThrough → entry = .passThrough

namespace Routed

variable {installs : List (UInt8 × VtdContextTableBacking)} {machine : VtdMachine QN Registers}
  {routes : PciDevice → Route} {call : RouteCall} {remaining : List RouteCall}

theorem performed_entry (routed : Routed mmu segment installs machine routes remaining)
    {client : PciDevice} {table : VtdContextTableBacking} {entry : VtdContextEntry}
    (made : call.client = some client) (checks : call.prepare machine.unit = .ok (table, entry)) :
    (call.perform mmu machine).2.entry client = some entry := by
  obtain ⟨domain, controller⟩ := RouteCall.controllerDomain_of_client made
  obtain ⟨valid, found⟩ := RouteCall.prepare_table made checks
  have inside := (VtdUnit.validateClient_eq_ok.mp valid segment routed.layout.segment).symm
  have member := routed.installed _ _ found
  have mapped : table.backing.Mapped mmu := routed.layout.tablesMapped (client.bus, table) member
  rw [RouteCall.perform_of_prepared made controller checks,
    (routed.replace inside found domain entry).entry_eq]
  dsimp only
  rw [found, Option.map_some, VtdUnit.replaceContext_words routed.layout.ringMapped mapped
    (routed.layout.client_off_ring member client)]

theorem passesNarrow (routed : Routed mmu segment installs machine routes (call :: remaining))
    (narrow : PassesNarrow segment machine) :
    PassesNarrow segment (call.perform mmu machine).2 := by
  intro requester entry here found passed
  cases made : call.client with
  | none =>
      cases call with
      | installContextTable bus table =>
          have ran := RouteCall.perform_install_ok
            (Prod.ext (RouteCall.perform_install mmu bus table machine) rfl)
          have root := routed.perform_rootTable
          have shown : machine.contextView machine.world.memory requester = some entry := by
            rw [← routed.contextView_install ran requester, VtdMachine.contextView, presentEntry,
              ← root, Option.filter_eq_some_iff]
            exact ⟨found, VtdContextEntry.present_of_passed passed⟩
          rw [VtdMachine.contextView, presentEntry, Option.filter_eq_some_iff] at shown
          exact narrow requester entry here shown.1 passed
      | bindContext activeDomain binding => contradiction
      | unbindContext domain client selector => contradiction
  | some client =>
      cases checks : call.prepare machine.unit with
      | error error =>
          rw [RouteCall.perform_of_refused made checks] at found
          exact narrow requester entry here found passed
      | ok prepared =>
          by_cases same : requester = client
          · subst same
            rw [routed.performed_entry made checks] at found
            obtain rfl := Option.some.inj found
            exact RouteCall.prepare_passThrough (routed.roots call List.mem_cons_self) checks passed
          · rw [routed.entry_kept made here same] at found
            exact narrow requester entry here found passed

theorem edited_entry (routed : Routed mmu segment installs machine routes remaining)
    {memory : Memory}
    (kept : ∀ paddr, machine.OwnsTables installs paddr → memory paddr = machine.world.memory paddr)
    (requester : PciDevice) :
    VtdMachine.entry ⟨machine.unit, { machine.world with memory := memory }⟩ requester =
      machine.entry requester := by
  apply routed.hardwareEntry_kept
  · apply entryWords_congr
    intro offset inside
    apply kept
    exact Or.inr (Or.inl (machine.unit.rootTable.backing.entry_owned
      (machine.unit.rootTable.bus_lt requester.bus) inside))
  · intro table found
    apply entryWords_congr
    intro offset inside
    apply kept
    exact Or.inr (Or.inr ⟨_, routed.installed _ _ found,
      table.backing.entry_owned (table.index_lt _) inside⟩)

end Routed

/-- The unit's tables send each requester where its target says, and the page tables of the domains
are as their owners left them. -/
structure Translates (mmu : Translation) (segment : UInt16)
    (installs : List (UInt8 × VtdContextTableBacking)) (bound : VtdDomain → Prop)
    (ledger : DmaLedger QN Registers) (remaining : List RouteCall) : Prop where
  routed : Routed mmu segment installs ledger.machine
    (fun requester => targetRoute (ledger.targets requester)) remaining
  narrow : PassesNarrow segment ledger.machine
  used : ∀ requester domain, ledger.targets requester = .domain domain → bound domain
  later : ∀ call ∈ remaining, ∀ domain, call.target = .domain domain → bound domain
  ready : PagesReady bound (ledger.machine.OwnsTables installs) ledger.machine.world.memory
    ledger.pages

theorem levelsOfWidth_eq (width : VtdSecondLevelAddressWidth) :
    12 + 9 * levelsOfWidth width.bits.toNat = width.bits.toNat ∧
      levelsOfWidth width.bits.toNat ≤ 5 := by
  cases width <;> decide

namespace Translates

variable {installs : List (UInt8 × VtdContextTableBacking)} {bound : VtdDomain → Prop}
  {ledger : DmaLedger QN Registers} {remaining : List RouteCall}

theorem call {call : RouteCall}
    (translates : Translates mmu segment installs bound ledger (call :: remaining)) :
    Translates mmu segment installs bound (ledger.record mmu (.call call)) remaining := by
  obtain ⟨routed, narrow, used, later, ready⟩ := translates
  constructor
  · have noted := routed.noted
    rw [funext (RouteCall.noted_route ledger.machine.unit call ledger.targets)] at noted
    exact noted
  · exact routed.passesNarrow narrow
  · intro requester domain target
    rw [DmaLedger.record] at target
    dsimp only at target
    rcases call.noted_cases ledger.machine.unit with ⟨client, updates⟩ | keeps
    · rw [updates] at target
      by_cases same : requester = client
      · rw [same, Function.update_self] at target
        exact later call List.mem_cons_self domain target
      · rw [Function.update_of_ne same] at target
        exact used requester domain target
    · rw [keeps] at target
      exact used requester domain target
  · exact fun next member => later next (List.mem_cons_of_mem _ member)
  · exact ready.congr routed.perform_ownsTables fun paddr outside => routed.perform_outside outside

theorem edit {memory : Memory} {pages : VtdDomain → DomainTables}
    (translates : Translates mmu segment installs bound ledger remaining)
    (allowed : DmaStep.Allowed installs bound ledger (.edit memory pages)) :
    Translates mmu segment installs bound (ledger.record mmu (.edit memory pages)) remaining := by
  obtain ⟨routed, narrow, used, later, _⟩ := translates
  refine ⟨routed.edited allowed.1, ?_, used, later, allowed.2⟩
  intro requester entry here found passed
  have before := (routed.edited_entry allowed.1 requester).symm.trans found
  exact narrow requester entry here before passed

theorem dma_iff (translates : Translates mmu segment installs bound ledger remaining)
    {requester : PciDevice} {permission : AccessFlag} (here : requester.segment = segment)
    (asked : Asked permission) (address paddr : Nat) :
    ledger.machine.dma requester permission address = some paddr ↔
      ledger.Reaches requester permission address paddr := by
  obtain ⟨routed, narrow, used, _, ready⟩ := translates
  have route := routed.route_eq here
  rw [VtdMachine.route, hardwareRoute, ← VtdMachine.entry] at route
  rw [VtdMachine.dma, DmaLedger.Reaches]
  cases found : ledger.machine.entry requester with
  | none =>
      rw [found] at route
      refine iff_of_false (by simp) ?_
      rintro ⟨domain, target, _⟩
      rw [target] at route
      contradiction
  | some entry =>
      rw [found] at route
      have encoded : entry.route = targetRoute (ledger.targets requester) := route
      rw [Option.bind_some, routeDma, encoded]
      cases target : ledger.targets requester with
      | abort => simp [targetRoute]
      | passThrough =>
          have only : entry = .passThrough :=
            narrow requester entry here found (encoded.trans (congrArg targetRoute target))
          have refused : ∀ width : VtdSecondLevelAddressWidth,
              width.bits ≠ entry.addressWidthBits := by
            intro width
            rw [only]
            exact (VtdContextEntry.passThrough_width width).2.symm
          simp [targetRoute, refused]
      | domain domain =>
          have rooted := ready.rooted domain (used requester domain target)
          have levels := ready.levels domain (used requester domain target)
          have stored := ready.stored domain (used requester domain target)
          obtain ⟨whole, few⟩ := levelsOfWidth_eq domain.width
          have width : covered ((ledger.pages domain).depth + 1) = 2 ^ domain.width.bits.toNat := by
            rw [covered, levels, whole]
          simp only [targetRoute, VtdCapability.supportsBits_eq, BindingTarget.domain.injEq,
            exists_eq_left']
          rw [← rooted, ← levels, ← width]
          by_cases inside : address < covered ((ledger.pages domain).depth + 1)
          · have walked : walkTable ledger.machine.unit.info.cap.supportsLeafSize _ _ _ _ _ =
                some paddr ↔ _ :=
              DomainTables.walkTable_eq_some_iff stored asked (by omega) inside
            simp only [inside, and_true, Option.ite_none_right_eq_some, walked, and_assoc]
          · refine iff_of_false (by simp [inside]) ?_
            rintro ⟨_, _, maps⟩
            exact inside maps.inside

end Translates

def BoundIn (steps : List DmaStep) (domain : VtdDomain) : Prop :=
  ∃ call, DmaStep.call call ∈ steps ∧ call.target = .domain domain

/-- A unit fresh from its constructor, page tables for every domain that the run binds, and edits
that keep off the unit's own tables. -/
structure Maintained (mmu : Translation) (segment : UInt16) (start : VtdMachine QN Registers)
    (pages : VtdDomain → DomainTables) (steps : List DmaStep) : Prop where
  prepared : Prepared mmu segment start (steps.filterMap DmaStep.routeCall)
  ready : PagesReady (BoundIn steps)
    (start.OwnsTables ((steps.filterMap DmaStep.routeCall).filterMap RouteCall.install))
    start.world.memory pages
  edits : Transition.Meets (fun ledger step => some (DmaLedger.record mmu ledger step))
    (DmaStep.Allowed ((steps.filterMap DmaStep.routeCall).filterMap RouteCall.install)
      (BoundIn steps))
    (.opened start pages) steps

theorem Translates.step {installs : List (UInt8 × VtdContextTableBacking)}
    {bound : VtdDomain → Prop} {ledger : DmaLedger QN Registers} {step : DmaStep}
    {remaining : List DmaStep}
    (translates : Translates mmu segment installs bound ledger
      ((step :: remaining).filterMap DmaStep.routeCall))
    (allowed : step.Allowed installs bound ledger) :
    Translates mmu segment installs bound (ledger.record mmu step)
      (remaining.filterMap DmaStep.routeCall) := by
  cases step with
  | call call => exact translates.call
  | edit memory pages => exact translates.edit allowed

theorem Prepared.passesNarrow {start : VtdMachine QN Registers} {calls : List RouteCall}
    (prepared : Prepared mmu segment start calls) : PassesNarrow segment start := by
  intro requester entry _ found _
  rw [prepared.routed.entry_eq, prepared.bare] at found
  contradiction

/-- After every run of calls, whatever they returned, and of edits of the page tables between them,
an access of a requester leads to the page that the tables of the domain it was last bound to map
there and that grants it, on a unit with the widths and page sizes for that, and else nowhere. -/
theorem dma_reaches_bound_pages {start : VtdMachine QN Registers}
    {pages : VtdDomain → DomainTables} {steps : List DmaStep} {requester : PciDevice}
    {permission : AccessFlag} (maintained : Maintained mmu segment start pages steps)
    (here : requester.segment = segment) (asked : Asked permission) (address paddr : Nat) :
    (DmaLedger.after mmu start pages steps).machine.dma requester permission address =
        some paddr ↔
      (DmaLedger.after mmu start pages steps).Reaches requester permission address paddr := by
  obtain ⟨prepared, ready, edits⟩ := maintained
  let installs := (steps.filterMap DmaStep.routeCall).filterMap RouteCall.install
  have opened : Translates mmu segment installs (BoundIn steps) (.opened start pages)
      (steps.filterMap DmaStep.routeCall) := by
    refine ⟨prepared.routed, prepared.passesNarrow, (fun _ _ target => by cases target), ?_, ready⟩
    intro call member domain target
    obtain ⟨step, listed, made⟩ := List.mem_filterMap.mp member
    cases step with
    | call other =>
        obtain rfl := Option.some.inj made
        exact ⟨other, listed, target⟩
    | edit memory pages => contradiction
  have translates := Transition.related_of_meets
    (fun ledger remaining => Translates mmu segment installs (BoundIn steps) ledger
      (remaining.filterMap DmaStep.routeCall))
    (fun _ _ _ holds allowed => holds.step allowed) opened edits
  exact translates.dma_iff here asked address paddr

def sampleFlags : VtdSecondLevelFlags := ⟨{.read, .write}, .writeback⟩

def sampleLeaf : LeafPage 2 where
  frame := 0x40000000
  flags := sampleFlags
  size := .size1G
  supported := rfl
  framed := ⟨by decide, by decide⟩
  aligned := by decide
  permitted := Or.inl (by decide)

def sampleRoot : TablePage := ⟨0x5000, by decide, by decide⟩

def sampleTable : TablePage := ⟨0x6000, by decide, by decide⟩

def blankTables : DomainTables := ⟨3, sampleRoot, fun _ => .hole⟩

def onlyFirst {depth : Nat} (tree : PageTree depth) (index : Fin 512) : PageTree depth :=
  if index = 0 then tree else .hole

def sampleTables : DomainTables where
  depth := 3
  root := sampleRoot
  entries := onlyFirst (.table sampleTable (onlyFirst (.leaf sampleLeaf)))

def sampleRootWord : UInt64 := (VtdSecondLevelPte.newTable 0x6000 4).bits

def sampleLeafWord : UInt64 := (VtdSecondLevelPte.newLeaf 0x40000000 sampleFlags .size1G).bits

def sampleMemory : Memory :=
  store64 id (store64 id (fun _ => 0) 0x5000 sampleRootWord) 0x6000 sampleLeafWord

theorem entryWord_blank (table : UInt64) (index : Nat) : entryWord (fun _ => 0) table index = 0 := by
  simp only [entryWord, load64, loadBytes]
  decide

theorem entryWord_sampleRoot (index : Fin 512) :
    entryWord sampleMemory 0x5000 index = if index = 0 then sampleRootWord else 0 := by
  have table : (0x5000 : UInt64).toNat = 0x5000 := rfl
  rw [entryWord, table, sampleMemory, load64_store64_outside _ _ (fun _ _ => rfl) (by omega)]
  by_cases first : index = 0
  · rw [if_pos first, first]
    exact load64_store64 _ _ fun _ _ => rfl
  · rw [if_neg first, load64_store64_outside _ _ (fun _ _ => rfl) (by omega)]
    exact entryWord_blank 0x5000 index

theorem entryWord_sampleTable (index : Fin 512) :
    entryWord sampleMemory 0x6000 index = if index = 0 then sampleLeafWord else 0 := by
  have table : (0x6000 : UInt64).toNat = 0x6000 := rfl
  rw [entryWord, table, sampleMemory]
  by_cases first : index = 0
  · rw [if_pos first, first]
    exact load64_store64 _ _ fun _ _ => rfl
  · rw [if_neg first, load64_store64_outside _ _ (fun _ _ => rfl) (by omega),
      load64_store64_outside _ _ (fun _ _ => rfl) (by omega)]
    exact entryWord_blank 0x6000 index

theorem onlyFirst_held {memory : Memory} {depth : Nat} {tree : PageTree depth} {table : UInt64}
    {word : UInt64} (words : ∀ index : Fin 512,
      entryWord memory table index = if index = 0 then word else 0)
    (holds : Holds memory tree word) (index : Fin 512) :
    Holds memory (onlyFirst tree index) (entryWord memory table index) := by
  rw [words, onlyFirst]
  by_cases first : index = 0
  · rw [if_pos first, if_pos first]
    exact holds
  · rw [if_neg first, if_neg first]
    rfl

theorem onlyFirst_bytes {depth paddr : Nat} {tree : PageTree depth} {index : Fin 512}
    (bytes : TableBytes (onlyFirst tree index) paddr) : TableBytes tree paddr := by
  rw [onlyFirst] at bytes
  split at bytes
  · exact bytes
  · exact bytes.elim

theorem onlyFirst_placed {found depth start : Nat} {leaf : LeafPage found} {tree : PageTree depth}
    (table : TablePage) (placed : Tree.Placed 0x1000 leaf tree start) :
    Tree.Placed 0x1000 leaf (.table table (onlyFirst tree) : PageTree (depth + 1)) start := by
  have first : Tree.Placed 0x1000 leaf (onlyFirst tree 0) start := placed
  have under : Tree.Placed 0x1000 leaf (.table table (onlyFirst tree) : PageTree (depth + 1))
      ((0 : Fin 512) * span 0x1000 512 depth + start) := .under 0 first
  rwa [Fin.val_zero, Nat.zero_mul, Nat.zero_add] at under

theorem sampleTables_stored : sampleTables.Stored sampleMemory :=
  onlyFirst_held entryWord_sampleRoot ⟨rfl, onlyFirst_held entryWord_sampleTable rfl⟩

theorem blankTables_stored : blankTables.Stored fun _ => 0 := by
  intro index
  rw [entryWord_blank]
  rfl

theorem sampleTables_owns {paddr : Nat} (owned : sampleTables.Owns paddr) : 0x5000 ≤ paddr := by
  rcases owned with inRoot | ⟨index, below⟩
  · exact inRoot.1
  · rcases onlyFirst_bytes below with inTable | ⟨lower, leaf⟩
    · exact Nat.le_trans (by decide) inTable.1
    · exact (onlyFirst_bytes leaf).elim

theorem sampleTables_maps :
    sampleTables.Maps sampleMachine.unit.info.cap.supportsLeafSize .read 0x1234 0x40001234 := by
  have placed := onlyFirst_placed sampleRoot (onlyFirst_placed sampleTable (.here : Tree.Placed 0x1000
    sampleLeaf (.leaf sampleLeaf : PageTree 2) 0))
  exact ⟨2, 0, sampleLeaf, placed, by decide, Nat.zero_le _, by decide, rfl⟩

theorem sampleMachine_owns {paddr : Nat}
    (owned : sampleMachine.OwnsTables (sampleCalls.filterMap RouteCall.install) paddr) :
    paddr < 0x5000 := by
  rcases owned with ring | root | ⟨install, member, table⟩
  · exact Nat.lt_trans (sampleMachine_ring ring) (by decide)
  · exact Nat.lt_trans root.2 (by decide)
  · obtain rfl := List.mem_singleton.mp member
    exact Nat.lt_trans table.2 (by decide)

def sampleSteps : List DmaStep :=
  .edit sampleMemory (fun _ => sampleTables) :: sampleCalls.map .call

theorem sampleSteps_bound {domain : VtdDomain} (bound : BoundIn sampleSteps domain) :
    domain = sampleDomain := by
  obtain ⟨call, member, target⟩ := bound
  simp only [sampleSteps, sampleCalls, List.map_cons, List.map_nil, List.mem_cons, reduceCtorEq,
    DmaStep.call.injEq, false_or, List.not_mem_nil, or_false] at member
  rcases member with rfl | rfl
  · cases target
  · exact (BindingTarget.domain.inj target).symm

theorem sampleSteps_maintained :
    Maintained id 0 sampleMachine (fun _ => blankTables) sampleSteps := by
  constructor
  · exact sampleMachine_prepared
  · constructor
    · intro domain bound
      rw [sampleSteps_bound bound]
      rfl
    · intro domain bound
      rw [sampleSteps_bound bound]
      rfl
    · exact fun _ _ => blankTables_stored
    · intro domain bound paddr inTables owned
      have low := sampleMachine_owns owned
      rcases inTables with root | ⟨_, none⟩
      · exact absurd low (Nat.not_lt_of_le root.1)
      · exact none.elim
  · refine ⟨⟨?_, ?_⟩, fun _ _ => Transition.meets_of_forall ?_ _⟩
    · intro paddr owned
      have low := sampleMachine_owns owned
      rw [sampleMemory, store64_apply_outside _ _ (fun _ _ => rfl) (by omega),
        store64_apply_outside _ _ (fun _ _ => rfl) (by omega)]
      rfl
    · constructor
      · intro domain bound
        rw [sampleSteps_bound bound]
        rfl
      · intro domain bound
        rw [sampleSteps_bound bound]
        rfl
      · exact fun _ _ => sampleTables_stored
      · intro domain bound paddr inTables owned
        exact absurd (sampleMachine_owns owned) (Nat.not_lt_of_le (sampleTables_owns inTables))
    · intro step member ledger
      obtain ⟨call, _, rfl⟩ := List.mem_map.mp member
      trivial

theorem sampleClient_reads : (DmaLedger.after id sampleMachine (fun _ => blankTables)
    sampleSteps).machine.dma sampleClient .read 0x1234 = some 0x40001234 := by
  apply (dma_reaches_bound_pages sampleSteps_maintained rfl (Or.inl rfl) 0x1234 0x40001234).mpr
  exact ⟨sampleDomain, rfl, by decide, by decide, sampleTables_maps⟩

end Iommu
