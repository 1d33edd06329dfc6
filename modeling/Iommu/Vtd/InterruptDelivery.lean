import Iommu.Vtd.InterruptCache
import Iommu.Vtd.MsiDelivery
import Mathlib.Data.List.Induction

/-!
Interrupts over whole runs: what the hardware does with a message while entries are composed and
rewritten, its entry cache between it and the table.
-/

namespace Iommu

open MachineWord Memory Caching

variable {QN : Nat} {Registers : Type} {mmu : Translation} {hardware : RingHardware Registers}
  {backing : CommandQueueBacking}

namespace RemapLedger

variable {window : VtdRegisterWindow Registers} {table : VtdInterruptRemapTableBacking}
  {start : QueueWorld QN Registers}

theorem after_append (earlier later : List (Timed Registers RemapCall)) :
    after mmu hardware backing window table start (earlier ++ later) =
      later.foldl (record mmu hardware backing window table)
        (after mmu hardware backing window table start earlier) :=
  List.foldl_append

theorem record_other {ledger : RemapLedger QN Registers} {step : Timed Registers RemapCall}
    {index : UInt16} (other : step.call.entry.index ≠ index) :
    (ledger.record mmu hardware backing window table step).unsettled index =
        ledger.unsettled index ∧
      (ledger.record mmu hardware backing window table step).entries index =
        ledger.entries index := by
  rw [record, recordCall]
  split
  · exact ⟨Function.update_of_ne other.symm _ _, Function.update_of_ne other.symm _ _⟩
  · exact ⟨rfl, rfl⟩

theorem entries_last (steps : List (Timed Registers RemapCall)) {index : UInt16}
    (inside : index.toNat < table.backing.entryCount) :
    (∃ earlier step later, steps = earlier ++ step :: later ∧ step.call.entry.index = index ∧
        (∀ next ∈ later, next.call.entry.index ≠ index) ∧
        (after mmu hardware backing window table start steps).entries index = step.call.remap) ∨
      (after mmu hardware backing window table start steps).entries index =
        table.entryAt start.memory index := by
  induction steps using List.reverseRecOn with
  | nil => exact Or.inr rfl
  | append_singleton steps step ih =>
      have last : after mmu hardware backing window table start (steps ++ [step]) =
          (after mmu hardware backing window table start steps).record mmu hardware backing window
            table step := after_append steps [step]
      rw [last]
      by_cases named : step.call.entry.index = index
      · subst named
        refine Or.inl ⟨steps, step, [], rfl, rfl, fun next member => absurd member List.not_mem_nil, ?_⟩
        rw [record, recordCall, if_pos inside]
        exact Function.update_self _ _ _
      · rw [(record_other named).2]
        rcases ih with ⟨earlier, writer, later, rfl, written, kept, entries⟩ | untouched
        · refine Or.inl ⟨earlier, writer, later ++ [step], by simp, written, ?_, entries⟩
          intro next member
          rcases List.mem_append.mp member with before | last
          · exact kept next before
          · rwa [List.mem_singleton.mp last]
        · exact Or.inr untouched

theorem CaughtUpThroughout.earlier {earlier later : List (Timed Registers RemapCall)}
    (caught : CaughtUpThroughout mmu hardware backing window table start (earlier ++ later)) :
    CaughtUpThroughout mmu hardware backing window table start earlier :=
  Transition.meets_of_append caught

end RemapLedger

section Run

variable (window : VtdRegisterWindow Registers) {table : VtdInterruptRemapTableBacking}
  {start : QueueWorld QN Registers} {steps : List (Timed Registers RemapCall)}
  {cached : Cached UInt16 VtdInterruptRemapEntry} {index : UInt16}

theorem settled_answer (ringMapped : start.RingMapped mmu) (tableMapped : table.backing.Mapped mmu)
    (offRing : ∀ paddr, table.backing.Owns paddr → ¬start.OwnsRing paddr)
    (serves : hardware.Serves backing window window.writeInvalidateQueueTail)
    (caught : RemapLedger.CaughtUpThroughout mmu hardware backing window table start steps)
    (runs : Runs (.cold (presentRemap table start.memory))
      (RemapLedger.after mmu hardware backing window table start steps).history cached)
    (settled :
      (RemapLedger.after mmu hardware backing window table start steps).unsettled index = false) :
    let written := (RemapLedger.after mmu hardware backing window table start steps).entries index
    cached.answer index =
      if index.toNat < table.backing.entryCount ∧ written.present = true then some written
      else none := by
  intro written
  have coherently := RemapsCoherently.after window ringMapped tableMapped offRing serves caught
  have coherent := runs.coherent (fun _ => Cached.cold_coherent _ index)
    (coherently.settled index settled)
  rw [coherent.answer_eq, runs.source_eq, Cached.cold, coherently.shown, presentRemap]
  by_cases inside : index.toNat < table.backing.entryCount
  · rw [coherently.entries index inside]
  · rw [if_neg fun both => inside both.1, if_neg fun both => inside both.1]

def sampleDelivery : X86MsiDelivery := .new (.physical 0x2a) ⟨0x45, by decide⟩ .fixed

def sampleRemapped : Timed UInt64 RemapCall :=
  ⟨0, .compose ⟨3⟩ 0 (.fromX86Delivery ⟨8⟩ sampleDelivery)⟩

/-- Whatever a requester writes as an interrupt message to a unit that lets no plain message past: if
anything comes of it, the entry it names was last written for that very requester, and what comes of
it is what was asked for there, as far as the mode goes, and never an exception vector. -/
theorem interrupts_confined (ringMapped : start.RingMapped mmu)
    (tableMapped : table.backing.Mapped mmu)
    (offRing : ∀ paddr, table.backing.Owns paddr → ¬start.OwnsRing paddr)
    (serves : hardware.Serves backing window window.writeInvalidateQueueTail)
    (caught : RemapLedger.CaughtUpThroughout mmu hardware backing window table start steps)
    (blank : ∀ index, index.toNat < table.backing.entryCount →
      (table.entryAt start.memory index).present = false)
    (built : ∀ step ∈ steps, ∃ owner, RemapBuilt owner step.call.remap)
    (runs : Runs (.cold (presentRemap table start.memory))
      (RemapLedger.after mmu hardware backing window table start steps).history cached)
    {mode : RemapMode} {requester : UInt16} {message : MsiMessage} {request : InterruptRequest}
    (blocked : mode.passesPlain = false)
    (settled : (RemapLedger.after mmu hardware backing window table start steps).unsettled
      (UInt16.ofNat message.interruptIndex) = false)
    (delivered : remapped mode cached.answer requester message = some request) :
    ∃ earlier step later source target, steps = earlier ++ step :: later ∧
      step.call.entry.index.toNat = message.interruptIndex ∧
      (∀ next ∈ later, next.call.entry.index ≠ step.call.entry.index) ∧
      step.call.remap = .fromTarget source target ∧ requester = source.bdf.raw ∧
      request = target.request.through mode ∧ 32 ≤ request.vector := by
  rw [remapped, blocked] at delivered
  split at delivered
  · rw [Option.ite_none_right_eq_some] at delivered
    obtain ⟨small, delivered⟩ := delivered
    rw [settled_answer window ringMapped tableMapped offRing serves caught runs settled] at delivered
    obtain ⟨entry, found, delivered⟩ := Option.bind_eq_some_iff.mp delivered
    rw [Option.ite_none_right_eq_some] at found delivered
    obtain ⟨⟨inside, present⟩, found⟩ := found
    obtain ⟨admitted, asked⟩ := delivered
    rcases @RemapLedger.entries_last QN Registers mmu hardware backing window table start steps _
      inside with ⟨earlier, step, later, rfl, named, kept, entries⟩ | untouched
    · rw [entries] at found present
      obtain rfl := Option.some.inj found
      obtain ⟨owner, made⟩ := built step (by simp)
      cases owner with
      | none =>
          rw [RemapBuilt] at made
          rw [made] at present
          contradiction
      | some owner =>
          obtain ⟨source, target⟩ := owner
          rw [RemapBuilt] at made
          rw [made, fromTarget_admits, decide_eq_true_iff] at admitted
          rw [made, fromTarget_request] at asked
          obtain rfl := Option.some.inj asked
          refine ⟨earlier, step, later, source, target, rfl, ?_, ?_, made, admitted, rfl, ?_⟩
          · rw [named]
            exact UInt16.toNat_ofNat_of_lt' small
          · rwa [named]
          · exact UInt8.le_iff_toNat_le.mp target.vector.external
    · rw [untouched, blank _ inside] at present
      contradiction
  · simp at delivered

def sampleRemappedLedger : RemapLedger 2 UInt64 :=
  .after id promptHardware descriptorRing .prompt .sample VtdUnit.sampleWorld [sampleRemapped]

def sampleRemapCache : Cached UInt16 VtdInterruptRemapEntry :=
  let shown := lastShown (presentRemap .sample VtdUnit.sampleWorld.memory) sampleRemappedLedger.history
  ⟨shown, shown⟩

theorem sampleRemapped_confined : ∃ source target,
    sampleRemapped.call.remap = .fromTarget source target ∧ (8 : UInt16) = source.bdf.raw ∧
      target.request.through .extended = ⟨0x2a, false, false, 0, 0x45, false⟩ := by
  have built : ∀ step ∈ [sampleRemapped], ∃ owner, RemapBuilt owner step.call.remap := by
    intro step member
    obtain rfl := List.mem_singleton.mp member
    exact ⟨some (⟨8⟩, .fromX86Delivery sampleDelivery), rfl⟩
  have blank : ∀ index : UInt16,
      index.toNat < VtdInterruptRemapTableBacking.sample.backing.entryCount →
      (VtdInterruptRemapTableBacking.sample.entryAt VtdUnit.sampleWorld.memory index).present = false := by
    intro index _
    rw [VtdInterruptRemapTableBacking.entryAt, entryWords_zero fun _ _ => rfl]
    rfl
  have caught : RemapLedger.CaughtUpThroughout id promptHardware descriptorRing .prompt .sample
      VtdUnit.sampleWorld [sampleRemapped] := ⟨⟨rfl, rfl, rfl⟩, fun _ _ => trivial⟩
  have settled : sampleRemappedLedger.unsettled
      (UInt16.ofNat (remappedMsiMessage ⟨3⟩ 0).interruptIndex) = false := rfl
  have delivered : remapped .extended sampleRemapCache.answer 8 (remappedMsiMessage ⟨3⟩ 0) =
      some ⟨0x2a, false, false, 0, 0x45, false⟩ := rfl
  obtain ⟨earlier, step, later, source, target, whole, _, _, made, owner, asked, _⟩ :=
    interrupts_confined .prompt VtdUnit.sampleWorld_mapped (fun _ _ => rfl) sampleRemap_offRing
      (promptHardware_serves takesTail_exclusive) caught blank built
      (Runs.filled_last _ sampleRemappedLedger.history) rfl settled delivered
  have only : step = sampleRemapped := by
    have member : step ∈ [sampleRemapped] := by
      rw [whole]
      simp
    exact List.mem_singleton.mp member
  exact ⟨source, target, only ▸ made, owner, asked.symm⟩

end Run

end Iommu
