import Iommu.Vtd.HardwareCaches
import Iommu.Vtd.TableAtomicity

/-!
The interrupt entry cache: what the hardware may remember of an interrupt-remapping entry while
entries are composed, and rewritten without an invalidation.
-/

namespace Iommu

open MachineWord Memory Caching

variable {QN : Nat} {Registers : Type} {mmu : Translation} {hardware : RingHardware Registers}
  {backing : CommandQueueBacking}

def VtdInterruptRemapTableBacking.entryAt (table : VtdInterruptRemapTableBacking) (memory : Memory)
    (index : UInt16) : VtdInterruptRemapEntry :=
  ⟨(entryWords memory (table.remapPaddr ⟨index⟩)).1,
    (entryWords memory (table.remapPaddr ⟨index⟩)).2⟩

/-- What an interrupt entry cache can take in for an index: its entry, if that is present. -/
def presentRemap (table : VtdInterruptRemapTableBacking) (memory : Memory) (index : UInt16) :
    Option VtdInterruptRemapEntry :=
  if index.toNat < table.backing.entryCount ∧ (table.entryAt memory index).present = true then
    some (table.entryAt memory index)
  else none

/-- An index-selective invalidation of the interrupt entry cache drops the index it names. -/
def Invalidation.dropsInterrupt : Invalidation → UInt16 → Bool
  | .interruptEntry named, index => index.toNat = named
  | _, _ => false

inductive RemapCall
  | compose (entry : VtdInterruptEntry) (subhandle : UInt16) (remap : VtdInterruptRemapEntry)
  | write (entry : VtdInterruptEntry) (remap : VtdInterruptRemapEntry)

namespace RemapCall

def entry : RemapCall → VtdInterruptEntry
  | compose entry _ _ => entry
  | write entry _ => entry

def remap : RemapCall → VtdInterruptRemapEntry
  | compose _ _ remap => remap
  | write _ remap => remap

def perform (mmu : Translation) (window : VtdRegisterWindow Registers)
    (table : VtdInterruptRemapTableBacking) : RemapCall → Effect (QueueWorld QN Registers) Error Unit
  | compose entry subhandle remap => do
      let _ ← window.composeInterruptRemap mmu table entry subhandle remap
      pure ()
  | write entry remap => writeInterruptRemapEntry mmu table entry remap

/-- Whether a call that ended so has had the hardware drop its entry. -/
def announced : RemapCall → Except Error Unit → Bool
  | compose _ _ _, outcome => outcome.isOk
  | write _ _, _ => false

end RemapCall

/-- The world of a remapping table with the history of its cache, the indices written since the
hardware was last made to drop them, and what was last written to each. -/
structure RemapLedger (QN : Nat) (Registers : Type) where
  world : QueueWorld QN Registers
  history : List (Moment UInt16 VtdInterruptRemapEntry)
  unsettled : UInt16 → Bool
  entries : UInt16 → VtdInterruptRemapEntry

namespace RemapLedger

def opened (table : VtdInterruptRemapTableBacking) (world : QueueWorld QN Registers) :
    RemapLedger QN Registers :=
  ⟨world, [], fun _ => false, table.entryAt world.memory⟩

def resumed (ledger : RemapLedger QN Registers) (registers : Registers) : RemapLedger QN Registers :=
  { ledger with world := ledger.world.resumed registers }

def recordCall (mmu : Translation) (hardware : RingHardware Registers)
    (backing : CommandQueueBacking) (window : VtdRegisterWindow Registers)
    (table : VtdInterruptRemapTableBacking) (ledger : RemapLedger QN Registers) (call : RemapCall) :
    RemapLedger QN Registers :=
  let ran := call.perform mmu window table ledger.world
  let history := ledger.history ++ callMoments mmu (presentRemap table) Invalidation.dropsInterrupt
    (hardware.pending backing ran.2.env) ledger.world ran.2
  if call.entry.index.toNat < table.backing.entryCount then
    ⟨ran.2, history, Function.update ledger.unsettled call.entry.index (!call.announced ran.1),
      Function.update ledger.entries call.entry.index call.remap⟩
  else ⟨ran.2, history, ledger.unsettled, ledger.entries⟩

def record (mmu : Translation) (hardware : RingHardware Registers) (backing : CommandQueueBacking)
    (window : VtdRegisterWindow Registers) (table : VtdInterruptRemapTableBacking)
    (ledger : RemapLedger QN Registers) (step : Timed Registers RemapCall) :
    RemapLedger QN Registers :=
  (ledger.resumed step.registers).recordCall mmu hardware backing window table step.call

def after (mmu : Translation) (hardware : RingHardware Registers) (backing : CommandQueueBacking)
    (window : VtdRegisterWindow Registers) (table : VtdInterruptRemapTableBacking)
    (world : QueueWorld QN Registers) (steps : List (Timed Registers RemapCall)) :
    RemapLedger QN Registers :=
  steps.foldl (record mmu hardware backing window table) (opened table world)

def CaughtUpThroughout (mmu : Translation) (hardware : RingHardware Registers)
    (backing : CommandQueueBacking) (window : VtdRegisterWindow Registers)
    (table : VtdInterruptRemapTableBacking) (world : QueueWorld QN Registers)
    (steps : List (Timed Registers RemapCall)) : Prop :=
  Transition.Meets (fun ledger step => some (record mmu hardware backing window table ledger step))
    (fun ledger step => hardware.CaughtUp backing (ledger.world.resumed step.registers))
    (opened table world) steps

end RemapLedger

section Call

variable (window : VtdRegisterWindow Registers) {table : VtdInterruptRemapTableBacking}
  {call : RemapCall} {world : QueueWorld QN Registers}

theorem RemapCall.perform_of_le (outside : table.backing.entryCount ≤ call.entry.index.toNat) :
    call.perform mmu window table world = (.error .invalidRange, world) := by
  cases call with
  | compose entry subhandle remap =>
      simp only [RemapCall.entry] at outside
      rw [perform, Effect.bind_of_error (composeInterruptRemap_of_le outside subhandle remap world)]
  | write entry remap => exact writeInterruptRemapEntry_of_le mmu outside remap world

theorem RemapCall.perform_update (mapped : world.RingMapped mmu)
    (below : call.entry.index.toNat < table.backing.entryCount) :
    (world.writeEntry mmu (table.remapVaddr call.entry) call.remap.low call.remap.high).RingOnly
        (call.perform mmu window table world).2 ∧
      ∃ handed, EntryUpdate (table.remapVaddr call.entry) call.remap.low call.remap.high world
          (call.perform mmu window table world).2 handed ∧
        (call.announced (call.perform mmu window table world).1 = true →
          some (.interruptEntry call.entry.index.toNat) ∈ Invalidation.ofEvents handed) := by
  cases call with
  | write entry remap =>
      simp only [RemapCall.entry, RemapCall.remap] at below ⊢
      rw [perform, writeInterruptRemapEntry_of_lt mmu below]
      refine ⟨QueueWorld.RingOnly.refl _, [], ⟨(List.append_nil _).symm, ?_⟩, ?_⟩
      · exact fun _ member => absurd member List.not_mem_nil
      · exact fun announced => absurd announced Bool.false_ne_true
  | compose entry subhandle remap =>
      simp only [RemapCall.entry, RemapCall.remap] at below ⊢
      have written : (world.writeEntry mmu (table.remapVaddr entry) remap.low remap.high).RingMapped
          mmu := mapped
      have frame := window.submitQueuedInvalidation_ringOnly written (.interruptEntryCache entry)
      obtain ⟨handed, events, publishes⟩ := submitWithTail_publishes window
        window.writeInvalidateQueueTail written (.interruptEntryCache entry)
      rw [← VtdRegisterWindow.submitQueuedInvalidation] at events
      rw [perform, Effect.bind_apply, VtdRegisterWindow.composeInterruptRemap,
        Effect.bind_of_ok (writeInterruptRemapEntry_of_lt mmu below remap world), Effect.bind_apply]
      rcases ran : window.submitQueuedInvalidation mmu (.interruptEntryCache entry)
        (world.writeEntry mmu (table.remapVaddr entry) remap.low remap.high) with ⟨outcome, after⟩
      rw [ran] at frame events
      cases outcome with
      | error error =>
          refine ⟨frame, handed, ⟨events, publishes⟩, fun announced => ?_⟩
          exact absurd announced Bool.false_ne_true
      | ok value =>
          refine ⟨frame, handed, ⟨events, publishes⟩, fun _ => ?_⟩
          obtain ⟨submitted, logged, reads⟩ := submitWithTail_ok_events written ran
          rw [VtdQueuedInvalidationDescriptor.interruptEntryCache_reads] at reads
          rw [List.append_cancel_left (events.symm.trans logged), reads]
          exact List.mem_singleton_self _

theorem RemapCall.caughtUp
    (serves : hardware.Serves backing window window.writeInvalidateQueueTail)
    (caught : hardware.CaughtUp backing world)
    (below : call.entry.index.toNat < table.backing.entryCount)
    (announced : call.announced (call.perform mmu window table world).1 = true) :
    hardware.CaughtUp backing (call.perform mmu window table world).2 := by
  cases call with
  | write entry remap => contradiction
  | compose entry subhandle remap =>
      simp only [RemapCall.entry] at below
      have written : hardware.CaughtUp backing
          (world.writeEntry mmu (table.remapVaddr entry) remap.low remap.high) := caught.congr rfl rfl
      rw [perform, Effect.bind_apply, VtdRegisterWindow.composeInterruptRemap,
        Effect.bind_of_ok (writeInterruptRemapEntry_of_lt mmu below remap world),
        Effect.bind_apply] at announced ⊢
      rcases ran : window.submitQueuedInvalidation mmu (.interruptEntryCache entry)
        (world.writeEntry mmu (table.remapVaddr entry) remap.low remap.high) with ⟨outcome, after⟩
      rw [ran] at announced
      cases outcome with
      | error error => exact absurd announced Bool.false_ne_true
      | ok value => exact written.submitted serves ran

end Call

theorem remap_slots_apart (table : VtdInterruptRemapTableBacking) {first second : UInt16}
    (different : first ≠ second) :
    table.remapPaddr ⟨first⟩ + 16 ≤ table.remapPaddr ⟨second⟩ ∨
      table.remapPaddr ⟨second⟩ + 16 ≤ table.remapPaddr ⟨first⟩ :=
  table.backing.entries_apart_of_ne fun equal => different (UInt16.toNat_inj.mp equal)

theorem presentRemap_congr {table : VtdInterruptRemapTableBacking} {first second : Memory}
    {index : UInt16} (same : index.toNat < table.backing.entryCount →
      entryWords first (table.remapPaddr ⟨index⟩) = entryWords second (table.remapPaddr ⟨index⟩)) :
    presentRemap table first index = presentRemap table second index := by
  rw [presentRemap, presentRemap, VtdInterruptRemapTableBacking.entryAt,
    VtdInterruptRemapTableBacking.entryAt]
  by_cases below : index.toNat < table.backing.entryCount
  · rw [same below]
  · rw [if_neg fun both => below both.1, if_neg fun both => below both.1]

/-- What holds of a ledger and so of every cache that went through its history. -/
structure RemapsCoherently (mmu : Translation) (table : VtdInterruptRemapTableBacking)
    (start : QueueWorld QN Registers) (ledger : RemapLedger QN Registers) : Prop where
  ringMapped : ledger.world.RingMapped mmu
  offRing : ∀ paddr, table.backing.Owns paddr → ¬ledger.world.OwnsRing paddr
  entries : ∀ index, index.toNat < table.backing.entryCount →
    table.entryAt ledger.world.memory index = ledger.entries index
  shown : lastShown (presentRemap table start.memory) ledger.history =
    presentRemap table ledger.world.memory
  settled : ∀ index, ledger.unsettled index = false →
    Settles index (presentRemap table start.memory) True ledger.history

namespace RemapsCoherently

variable (window : VtdRegisterWindow Registers) {table : VtdInterruptRemapTableBacking}
  {start : QueueWorld QN Registers} {ledger : RemapLedger QN Registers} {call : RemapCall}

theorem opened (ringMapped : start.RingMapped mmu)
    (offRing : ∀ paddr, table.backing.Owns paddr → ¬start.OwnsRing paddr) :
    RemapsCoherently mmu table start (.opened table start) :=
  ⟨ringMapped, offRing, fun _ _ => rfl, rfl, fun _ _ => trivial⟩

theorem resumed (coherently : RemapsCoherently mmu table start ledger) (registers : Registers) :
    RemapsCoherently mmu table start (ledger.resumed registers) :=
  ⟨coherently.ringMapped, coherently.offRing, coherently.entries, coherently.shown,
    coherently.settled⟩

theorem words_written (coherently : RemapsCoherently mmu table start ledger)
    (below : call.entry.index.toNat < table.backing.entryCount) {index : UInt16}
    (inside : index.toNat < table.backing.entryCount) :
    entryWords (call.perform mmu window table ledger.world).2.memory (table.remapPaddr ⟨index⟩) =
      entryWords (store128 mmu ledger.world.memory (table.remapVaddr call.entry) call.remap.low
        call.remap.high) (table.remapPaddr ⟨index⟩) := by
  obtain ⟨frame, _⟩ := RemapCall.perform_update window coherently.ringMapped below
  apply entryWords_of_ringOnly frame
  intro offset small
  exact coherently.offRing _ (table.backing.entry_owned inside small)

theorem words_kept (coherently : RemapsCoherently mmu table start ledger)
    (tableMapped : table.backing.Mapped mmu)
    (below : call.entry.index.toNat < table.backing.entryCount) {index : UInt16}
    (inside : index.toNat < table.backing.entryCount) (different : index ≠ call.entry.index) :
    entryWords (call.perform mmu window table ledger.world).2.memory (table.remapPaddr ⟨index⟩) =
      entryWords ledger.world.memory (table.remapPaddr ⟨index⟩) := by
  rw [coherently.words_written window below inside]
  exact entryWords_store128_outside (remap_contiguous tableMapped below) _ _ _
    (remap_slots_apart table different)

theorem record_of_le (coherently : RemapsCoherently mmu table start ledger)
    (outside : table.backing.entryCount ≤ call.entry.index.toNat) :
    RemapsCoherently mmu table start
      (ledger.recordCall mmu hardware backing window table call) := by
  obtain ⟨ringMapped, offRing, entries, shown, settled⟩ := coherently
  rw [RemapLedger.recordCall, RemapCall.perform_of_le window outside,
    if_neg (Nat.not_lt.mpr outside)]
  refine ⟨ringMapped, offRing, entries, ?_, ?_⟩
  · rw [lastShown_append, lastShown_callMoments]
  · intro index quiet
    rw [settles_append, shown]
    exact settles_unchanged _ (settled index quiet)

theorem call_settles (coherently : RemapsCoherently mmu table start ledger)
    (tableMapped : table.backing.Mapped mmu)
    (serves : hardware.Serves backing window window.writeInvalidateQueueTail)
    (caught : hardware.CaughtUp backing ledger.world)
    (below : call.entry.index.toNat < table.backing.entryCount) {index : UInt16} {clean : Prop}
    (settled : Function.update ledger.unsettled call.entry.index
      (!call.announced (call.perform mmu window table ledger.world).1) index = false)
    (before : ledger.unsettled index = false → clean) :
    Settles index (presentRemap table ledger.world.memory) clean
      (callMoments mmu (presentRemap table) Invalidation.dropsInterrupt
        (hardware.pending backing (call.perform mmu window table ledger.world).2.env) ledger.world
        (call.perform mmu window table ledger.world).2) := by
  obtain ⟨_, handed, update, submitted⟩ :=
    RemapCall.perform_update window coherently.ringMapped below
  by_cases named : index = call.entry.index
  · subst named
    rw [Function.update_self, Bool.not_eq_false'] at settled
    rw [(RemapCall.caughtUp window serves caught below settled).pending_eq]
    refine update.settles_named ?_ (submitted settled) ?_
    · exact presentRemap_congr fun inside => coherently.words_written window below inside
    · exact decide_eq_true rfl
  · rw [Function.update_of_ne named] at settled
    have contiguous := remap_contiguous tableMapped below
    have apart := remap_slots_apart table named
    refine update.settles_other ?_ ?_ ?_ _ (before settled)
    · refine presentRemap_congr fun _ => ?_
      exact entryWords_store64_outside (contiguous.narrow (by omega)) _ _
        (apart.imp_right (Nat.le_trans (Nat.add_le_add_left (by decide) _)))
    · exact presentRemap_congr fun _ => entryWords_store128_outside contiguous _ _ _ apart
    · exact presentRemap_congr fun inside =>
        coherently.words_kept window tableMapped below inside named

theorem record_of_lt (coherently : RemapsCoherently mmu table start ledger)
    (tableMapped : table.backing.Mapped mmu)
    (serves : hardware.Serves backing window window.writeInvalidateQueueTail)
    (caught : hardware.CaughtUp backing ledger.world)
    (below : call.entry.index.toNat < table.backing.entryCount) :
    RemapsCoherently mmu table start
      (ledger.recordCall mmu hardware backing window table call) := by
  obtain ⟨frame, _⟩ := RemapCall.perform_update window coherently.ringMapped below
  have ring : (call.perform mmu window table ledger.world).2.queue.backing =
      ledger.world.queue.backing := frame.ring
  rw [RemapLedger.recordCall, if_pos below]
  constructor
  · exact coherently.ringMapped.congr ring
  · intro paddr owned
    rw [QueueWorld.ownsRing_congr ring]
    exact coherently.offRing paddr owned
  · intro index inside
    dsimp only
    by_cases named : index = call.entry.index
    · subst named
      rw [Function.update_self, VtdInterruptRemapTableBacking.entryAt,
        coherently.words_written window below inside,
        entryWords_store128 (remap_contiguous tableMapped below)]
    · rw [Function.update_of_ne named, VtdInterruptRemapTableBacking.entryAt,
        coherently.words_kept window tableMapped below inside named]
      exact coherently.entries index inside
  · rw [lastShown_append, lastShown_callMoments]
  · intro index quiet
    rw [settles_append, coherently.shown]
    exact coherently.call_settles window tableMapped serves caught below quiet
      (coherently.settled index)

theorem after {steps : List (Timed Registers RemapCall)} (ringMapped : start.RingMapped mmu)
    (tableMapped : table.backing.Mapped mmu)
    (offRing : ∀ paddr, table.backing.Owns paddr → ¬start.OwnsRing paddr)
    (serves : hardware.Serves backing window window.writeInvalidateQueueTail)
    (caught : RemapLedger.CaughtUpThroughout mmu hardware backing window table start steps) :
    RemapsCoherently mmu table start
      (RemapLedger.after mmu hardware backing window table start steps) := by
  apply Transition.related_of_meets (fun ledger _ => RemapsCoherently mmu table start ledger) _ _
    caught
  · intro ledger step rest holds here
    have resumed := holds.resumed step.registers
    by_cases below : step.call.entry.index.toNat < table.backing.entryCount
    · exact resumed.record_of_lt window tableMapped serves here below
    · exact resumed.record_of_le window (Nat.le_of_not_lt below)
  · exact RemapsCoherently.opened ringMapped offRing

end RemapsCoherently

/-- Over every run of composed and of merely written entries, whatever each call returned, on a ring
that is caught up when a call begins: what an interrupt entry cache holds of an index last written by
a composition that returned `Ok`, or never written, is the entry last written there. -/
theorem interrupt_cache_coherent (window : VtdRegisterWindow Registers)
    {table : VtdInterruptRemapTableBacking} {start : QueueWorld QN Registers}
    {steps : List (Timed Registers RemapCall)} {cached : Cached UInt16 VtdInterruptRemapEntry}
    {index : UInt16} {entry : VtdInterruptRemapEntry} (ringMapped : start.RingMapped mmu)
    (tableMapped : table.backing.Mapped mmu)
    (offRing : ∀ paddr, table.backing.Owns paddr → ¬start.OwnsRing paddr)
    (serves : hardware.Serves backing window window.writeInvalidateQueueTail)
    (caught : RemapLedger.CaughtUpThroughout mmu hardware backing window table start steps)
    (runs : Runs (.cold (presentRemap table start.memory))
      (RemapLedger.after mmu hardware backing window table start steps).history cached)
    (settled :
      (RemapLedger.after mmu hardware backing window table start steps).unsettled index = false)
    (held : cached.held index = some entry) :
    index.toNat < table.backing.entryCount ∧ entry.present = true ∧
      entry = (RemapLedger.after mmu hardware backing window table start steps).entries index := by
  have coherently := RemapsCoherently.after window ringMapped tableMapped offRing serves caught
  have coherent := runs.coherent (fun _ => Cached.cold_coherent _ index)
    (coherently.settled index settled)
  have shown := coherent entry held
  rw [runs.source_eq, Cached.cold, coherently.shown, presentRemap,
    Option.ite_none_right_eq_some] at shown
  obtain ⟨⟨inside, present⟩, found⟩ := shown
  obtain rfl := Option.some.inj found
  exact ⟨inside, present, coherently.entries index inside⟩

def sampleRemaps : List (Timed UInt64 RemapCall) :=
  [⟨0, .write ⟨3⟩ (.fromTarget ⟨0⟩ sampleTarget)⟩,
    ⟨0, .compose ⟨3⟩ 0 (.fromTarget ⟨8⟩ sampleTarget)⟩]

def sampleRemapLedger : RemapLedger 2 UInt64 :=
  .after id promptHardware descriptorRing .prompt .sample VtdUnit.sampleWorld sampleRemaps

theorem sampleRemap_offRing (paddr : Nat)
    (owned : VtdInterruptRemapTableBacking.sample.backing.Owns paddr) :
    ¬VtdUnit.sampleWorld.OwnsRing paddr := by
  intro ring
  have low : paddr < 32 := sampleMachine_ring ring
  have high : 0x3000 ≤ paddr := owned.1
  omega

theorem sampleRemaps_caughtUp : RemapLedger.CaughtUpThroughout id promptHardware descriptorRing .prompt
    .sample VtdUnit.sampleWorld sampleRemaps := by
  refine ⟨⟨rfl, rfl, rfl⟩, fun _ first => ?_⟩
  obtain rfl := Option.some.inj first
  exact ⟨⟨rfl, rfl, rfl⟩, fun _ _ => trivial⟩

theorem sampleRemaps_coherent :
    (3 : UInt16).toNat < VtdInterruptRemapTableBacking.sample.backing.entryCount ∧
      (VtdInterruptRemapEntry.fromTarget ⟨8⟩ sampleTarget).present = true ∧
      VtdInterruptRemapEntry.fromTarget ⟨8⟩ sampleTarget = sampleRemapLedger.entries 3 :=
  interrupt_cache_coherent .prompt VtdUnit.sampleWorld_mapped (fun _ _ => rfl) sampleRemap_offRing
    (promptHardware_serves takesTail_exclusive) sampleRemaps_caughtUp
    (Runs.filled_last _ sampleRemapLedger.history) rfl rfl

end Iommu
