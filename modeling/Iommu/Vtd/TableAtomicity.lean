import Iommu.Vtd.Reachable
import Iommu.Vtd.Routing
import Iommu.Vtd.TornEntries

/-!
What a table update leaves behind when it returns `Err`: nothing when a check
failed, the new entry when an invalidation did.
-/

namespace Iommu

open MachineWord Memory

variable {QN : Nat} {Registers : Type} {mmu : Translation}

structure LeftWritten (before after : QueueWorld QN Registers) (paddr : Nat) (low high : UInt64) :
    Prop where
  entry : entryWords after.memory paddr = (low, high)
  others : ∀ query, ¬before.OwnsRing query → query < paddr ∨ paddr + 16 ≤ query →
    after.memory query = before.memory query

theorem LeftWritten.of_ringOnly {world after : QueueWorld QN Registers} {vaddr paddr : Nat}
    {low high : UInt64} (contiguous : Contiguous mmu vaddr paddr 16)
    (apart : ∀ offset < 16, ¬world.OwnsRing (paddr + offset))
    (frame : (world.writeEntry mmu vaddr low high).RingOnly after) :
    LeftWritten world after paddr low high := by
  constructor
  · rw [entryWords_of_ringOnly frame apart]
    exact entryWords_store128 contiguous _ _ _
  · intro query offRing outside
    rw [frame.memory query offRing]
    exact store128_apply_outside contiguous _ _ _ outside

structure VtdMachine.TablesSafe (mmu : Translation) (machine : VtdMachine QN Registers) : Prop where
  ringMapped : machine.world.RingMapped mmu
  tablesMapped : ∀ bus table, machine.unit.contextTables bus = some table →
    table.backing.Mapped mmu
  tablesOffRing : ∀ bus table, machine.unit.contextTables bus = some table →
    ∀ paddr, table.backing.Owns paddr → ¬machine.world.OwnsRing paddr

theorem replaceContext_leftWritten (unit : VtdUnit Registers) {world : QueueWorld QN Registers}
    {table : VtdContextTableBacking} (ringMapped : world.RingMapped mmu)
    (tableMapped : table.backing.Mapped mmu)
    (offRing : ∀ paddr, table.backing.Owns paddr → ¬world.OwnsRing paddr)
    (domain : VtdDomain) (client : PciDevice) (entry : VtdContextEntry) :
    LeftWritten world (unit.replaceContext mmu domain client table entry world).2
      (table.clientPaddr client) entry.low entry.high := by
  apply LeftWritten.of_ringOnly (client_contiguous tableMapped client)
  · intro offset below
    exact offRing _ (table.backing.entry_owned (table.index_lt _) below)
  · exact VtdUnit.replaceContext_ringOnly ringMapped

theorem VtdRegisterWindow.submitQueuedInvalidation_ringOnly (window : VtdRegisterWindow Registers)
    {world : QueueWorld QN Registers} (mapped : world.RingMapped mmu)
    (descriptor : VtdQueuedInvalidationDescriptor) :
    world.RingOnly (window.submitQueuedInvalidation mmu descriptor world).2 :=
  submitWithTail_ringOnly mapped

theorem composeInterruptRemap_of_le {window : VtdRegisterWindow Registers}
    {table : VtdInterruptRemapTableBacking} {entry : VtdInterruptEntry}
    (outside : table.backing.entryCount ≤ entry.index.toNat) (subhandle : UInt16)
    (remap : VtdInterruptRemapEntry) (world : QueueWorld QN Registers) :
    window.composeInterruptRemap mmu table entry subhandle remap world =
      (.error .invalidRange, world) := by
  rw [VtdRegisterWindow.composeInterruptRemap,
    Effect.bind_of_error (writeInterruptRemapEntry_of_le mmu outside remap world)]

theorem composeInterruptRemap_leftWritten (window : VtdRegisterWindow Registers)
    {table : VtdInterruptRemapTableBacking} {entry : VtdInterruptEntry}
    {world : QueueWorld QN Registers} (ringMapped : world.RingMapped mmu)
    (tableMapped : table.backing.Mapped mmu)
    (offRing : ∀ paddr, table.backing.Owns paddr → ¬world.OwnsRing paddr)
    (below : entry.index.toNat < table.backing.entryCount) (subhandle : UInt16)
    (remap : VtdInterruptRemapEntry) :
    LeftWritten world (window.composeInterruptRemap mmu table entry subhandle remap world).2
      (table.remapPaddr entry) remap.low remap.high := by
  apply LeftWritten.of_ringOnly (remap_contiguous tableMapped below)
  · intro offset inside
    exact offRing _ (table.backing.entry_owned below inside)
  · have written : (world.writeEntry mmu (table.remapVaddr entry) remap.low remap.high).RingMapped
        mmu := ringMapped
    have frame := window.submitQueuedInvalidation_ringOnly written (.interruptEntryCache entry)
    rw [VtdRegisterWindow.composeInterruptRemap,
      Effect.bind_of_ok (writeInterruptRemapEntry_of_lt mmu below remap world), Effect.bind_apply]
    rcases ran : window.submitQueuedInvalidation mmu (.interruptEntryCache entry)
      (world.writeEntry mmu (table.remapVaddr entry) remap.low remap.high) with ⟨outcome, after⟩
    rw [ran] at frame
    cases outcome with
    | error error => exact frame
    | ok value => exact frame

/-- An update that returns `Err` has either failed a check and changed nothing, or written its
entry and failed in an invalidation, with every other byte outside the ring unchanged. -/
theorem failed_update_leaves {machine : VtdMachine QN Registers} (safe : machine.TablesSafe mmu) :
    (∀ call client error after, RouteCall.client call = some client →
      call.perform mmu machine = (.error error, after) →
      (call.prepare machine.unit = .error error ∧ after = machine) ∨
        ∃ table entry, call.prepare machine.unit = .ok (table, entry) ∧
          machine.unit.contextTables client.bus = some table ∧ after.unit = machine.unit ∧
          LeftWritten machine.world after.world (table.clientPaddr client) entry.low entry.high) ∧
    (∀ (table : VtdInterruptRemapTableBacking) (entry : VtdInterruptEntry) (subhandle : UInt16)
      (remap : VtdInterruptRemapEntry) (error : Error) (after : QueueWorld QN Registers),
      table.backing.Mapped mmu →
      (∀ paddr, table.backing.Owns paddr → ¬machine.world.OwnsRing paddr) →
      machine.unit.registers.composeInterruptRemap mmu table entry subhandle remap machine.world =
        (.error error, after) →
      (table.backing.entryCount ≤ entry.index.toNat ∧ after = machine.world) ∨
        (entry.index.toNat < table.backing.entryCount ∧
          LeftWritten machine.world after (table.remapPaddr entry) remap.low remap.high)) := by
  constructor
  · intro call client error after requester performed
    obtain ⟨domain, controller⟩ := RouteCall.controllerDomain_of_client requester
    cases checks : call.prepare machine.unit with
    | error refused =>
        rw [RouteCall.perform_of_refused requester checks] at performed
        cases performed
        exact Or.inl ⟨rfl, rfl⟩
    | ok prepared =>
        obtain ⟨table, entry⟩ := prepared
        have found := (RouteCall.prepare_table requester checks).2
        have written := replaceContext_leftWritten machine.unit safe.ringMapped
          (safe.tablesMapped _ _ found) (safe.tablesOffRing _ _ found) domain client entry
        rw [RouteCall.perform_of_prepared requester controller checks] at performed
        obtain rfl := (Prod.mk.inj performed).2
        exact Or.inr ⟨table, entry, rfl, found, rfl, written⟩
  · intro table entry subhandle remap error after mapped offRing composed
    by_cases below : entry.index.toNat < table.backing.entryCount
    · have written := composeInterruptRemap_leftWritten machine.unit.registers
        safe.ringMapped mapped offRing below subhandle remap
      rw [composed] at written
      exact Or.inr ⟨below, written⟩
    · have outside := Nat.le_of_not_lt below
      rw [composeInterruptRemap_of_le outside] at composed
      cases composed
      exact Or.inl ⟨outside, rfl⟩

def queuelessMachine : VtdMachine 256 UInt64 :=
  VtdCall.after id (.new VtdUnit.sample.info .prompt .sample (fun _ => 0) 0)
    (.route (.installContextTable 0 .sample))

def queuelessBinding : RouteCall :=
  .bindContext firstDomain ⟨sampleClient, .default, .domain firstDomain⟩

theorem queuelessMachine_safe : queuelessMachine.TablesSafe id := by
  have noRing : queuelessMachine.world.queue.backing = none := rfl
  have onlyTable : ∀ bus table, queuelessMachine.unit.contextTables bus = some table →
      table = .sample := by
    intro bus table found
    have installed : queuelessMachine.unit.contextTables =
        Function.update (fun _ => none) 0 (some .sample) := rfl
    rw [installed] at found
    by_cases first : bus = 0
    · rw [first, Function.update_self] at found
      exact (Option.some.inj found).symm
    · rw [Function.update_of_ne first] at found
      contradiction
  constructor
  · intro backing active
    rw [noRing] at active
    contradiction
  · intro bus table found index _
    rw [onlyTable bus table found]
    rfl
  · intro bus table _ paddr _ owned
    obtain ⟨backing, active, _⟩ := owned
    rw [noRing] at active
    contradiction

theorem queuelessBinding_fails :
    (queuelessBinding.perform id queuelessMachine).1 = .error .controllerUnavailable := rfl

theorem queuelessBinding_written : LeftWritten queuelessMachine.world
    (queuelessBinding.perform id queuelessMachine).2.world
    (VtdContextTableBacking.sample.clientPaddr sampleClient) 0x5001 0x102 := by
  have failed := (failed_update_leaves queuelessMachine_safe).1 queuelessBinding sampleClient
    .controllerUnavailable _ rfl (Prod.ext queuelessBinding_fails rfl)
  rcases failed with ⟨refused, _⟩ | ⟨table, entry, prepared, found, _, written⟩
  · contradiction
  · obtain rfl := Option.some.inj found
    obtain rfl := (Prod.mk.inj (Except.ok.inj prepared)).2
    exact written

/-- Without a queue `bind_context` returns `Err` and has changed the table all the same. -/
theorem failed_binding_changes_table : ∃ error after paddr,
    queuelessMachine.Reachable id ∧
    queuelessBinding.perform id queuelessMachine = (.error error, after) ∧
    VtdContextTableBacking.sample.backing.Owns paddr ∧
    queuelessMachine.unit.contextTables sampleClient.bus = some .sample ∧
    after.world.memory paddr ≠ queuelessMachine.world.memory paddr := by
  refine ⟨.controllerUnavailable, _, 0x2000, ?_, Prod.ext queuelessBinding_fails rfl, ?_, rfl, ?_⟩
  · refine ⟨VtdUnit.sample.info, .prompt, .sample, fun _ => 0, 0,
      [.route (.installContextTable 0 .sample)], ?_, rfl⟩
    intro call member
    obtain rfl := List.mem_singleton.mp member
    trivial
  · exact ⟨by decide, by decide⟩
  · decide

end Iommu
