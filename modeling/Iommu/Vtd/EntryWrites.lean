import Iommu.Queue.SubmitOutcome
import Iommu.Vtd.Tables

/-!
Entries of rings and of descriptor tables, and the two functions that write one. What a constructor
checked keeps every entry inside both ranges of its backing, so a write stays in its own entry.
-/

namespace Iommu

open MachineWord Memory

/-- Every entry below the count is found, lies in the virtual range and as far into the physical one, and
has no byte in common with another one. -/
structure EntriesInside (phys virt : AddrRange) (entryCount entryBytes : Nat)
    (entryVaddr : Nat → Except Error Nat) : Prop where
  found : ∀ index < entryCount, entryVaddr index = .ok (virt.start + index * entryBytes)
  virtInside : ∀ index < entryCount, virt.start + index * entryBytes + entryBytes ≤ virt.endAddr
  physInside : ∀ index < entryCount, phys.start + index * entryBytes + entryBytes ≤ phys.endAddr
  apart : ∀ left right, left ≠ right → left * entryBytes + entryBytes ≤ right * entryBytes ∨
    right * entryBytes + entryBytes ≤ left * entryBytes

theorem CommandQueueBacking.entriesInside (backing : CommandQueueBacking) :
    EntriesInside backing.phys backing.virt backing.entryCount backing.entryBytes
      backing.entryVaddr := by
  constructor
  · exact fun index below => backing.entryVaddr_of_lt below
  · exact fun index below => backing.virt.entry_inside backing.virtFits below
  · exact fun index below => backing.phys.entry_inside backing.physFits below
  · exact fun left right different => entry_apart_of_ne different backing.entryBytes

theorem DescriptorTableBacking.entriesInside {entryBytes : Nat}
    (backing : DescriptorTableBacking entryBytes) :
    EntriesInside backing.phys backing.virt backing.entryCount entryBytes backing.entryVaddr := by
  constructor
  · exact fun index below => backing.entryVaddr_of_lt below
  · exact fun index below => backing.virt.entry_inside backing.virtFits below
  · exact fun index below => backing.phys.entry_inside backing.physFits below
  · exact fun left right different => entry_apart_of_ne different entryBytes

section Writes

variable {QN : Nat} {Registers Env : Type} {mmu : Translation}

theorem writeSlot_replaces {backing : CommandQueueBacking} (mapped : backing.Mapped mmu)
    {slot : Nat} (below : slot < backing.entryCount) (bytes : List UInt8)
    (world : QueueWorld QN Env) :
    ∃ memory, CommandQueue.writeSlot mmu backing slot bytes world = (.ok (), { world with memory }) ∧
      Replaced world.memory memory (backing.phys.start + slot * backing.entryBytes)
        backing.entryBytes (paddedEntry backing.entryBytes bytes) := by
  refine ⟨_, CommandQueue.writeSlot_apply mmu below bytes world, ?_⟩
  exact replaced_storeBytes world.memory (by simp [paddedEntry]) (backing.slot_contiguous mapped below)

theorem store128_eq (mmu : Translation) (memory : Memory) (vaddr : Nat) (low high : UInt64) :
    store128 mmu memory vaddr low high =
      storeBytes mmu memory vaddr (toBytesLE 8 low.toNat ++ toBytesLE 8 high.toNat) := by
  rw [storeBytes_append, toBytesLE_length, store128, store64, store64]

theorem write128_replaces {vaddr paddr : Nat} (contiguous : Contiguous mmu vaddr paddr 16)
    (low high : UInt64) (world : QueueWorld QN Registers) :
    (write128 mmu vaddr low high world).1 = .ok () ∧
      Replaced world.memory (write128 mmu vaddr low high world).2.memory paddr 16
        (toBytesLE 8 low.toNat ++ toBytesLE 8 high.toNat) := by
  rw [write128_apply]
  refine ⟨rfl, ?_⟩
  simp only [QueueWorld.writeEntry]
  rw [store128_eq]
  exact replaced_storeBytes world.memory (by simp) contiguous

end Writes

/-- Entries of an accepted backing are found inside its ranges, apart from one another, and a write
replaces the bytes of its own entry only; a table refuses every index that it does not have. -/
theorem descriptor_writes_inside (phys virt : AddrRange) (entryCount : Nat) :
    (∀ entryBytes backing, CommandQueueBacking.new phys virt entryCount entryBytes = .ok backing →
      EntriesInside phys virt entryCount entryBytes backing.entryVaddr ∧
      ∀ (mmu : Translation), backing.Mapped mmu → ∀ slot < entryCount,
        ∀ (QN : Nat) (Env : Type) (world : QueueWorld QN Env),
        (∀ bytes, ∃ memory,
          CommandQueue.writeSlot mmu backing slot bytes world = (.ok (), { world with memory }) ∧
          Replaced world.memory memory (phys.start + slot * entryBytes) entryBytes
            (paddedEntry entryBytes bytes)) ∧
        (entryBytes = 16 → ∀ low high : UInt64,
          Replaced world.memory (write128 mmu (virt.start + slot * 16) low high world).2.memory
            (phys.start + slot * 16) 16 (toBytesLE 8 low.toNat ++ toBytesLE 8 high.toNat))) ∧
    (∀ entryBytes physAlignment (backing : DescriptorTableBacking entryBytes),
      DescriptorTableBacking.newAligned phys virt entryCount physAlignment = .ok backing →
      EntriesInside phys virt entryCount entryBytes backing.entryVaddr ∧
      ∀ index, entryCount ≤ index → backing.entryVaddr index = .error .invalidRange) ∧
    ∀ physAlignment (backing : DescriptorTableBacking 16),
      DescriptorTableBacking.newAligned phys virt entryCount physAlignment = .ok backing →
      ∀ (mmu : Translation), backing.Mapped mmu → ∀ index < entryCount,
        ∀ (QN : Nat) (Registers : Type) (world : QueueWorld QN Registers) (low high : UInt64),
        Replaced world.memory (write128 mmu (virt.start + index * 16) low high world).2.memory
          (phys.start + index * 16) 16 (toBytesLE 8 low.toNat ++ toBytesLE 8 high.toNat) := by
  refine ⟨?_, ?_, ?_⟩
  · intro entryBytes backing accepted
    obtain ⟨rfl, rfl, rfl, rfl⟩ := CommandQueueBacking.new_eq_ok accepted
    refine ⟨backing.entriesInside, fun mmu mapped slot below QN Env world => ⟨?_, ?_⟩⟩
    · exact fun bytes => writeSlot_replaces mapped below bytes world
    · intro wide low high
      have contiguous := backing.slot_contiguous mapped below
      rw [wide] at contiguous
      exact (write128_replaces contiguous low high world).2
  · intro entryBytes physAlignment backing accepted
    obtain ⟨rfl, rfl, rfl, _⟩ := DescriptorTableBacking.newAligned_eq_ok accepted
    exact ⟨backing.entriesInside, fun index outside => backing.entryVaddr_of_le outside⟩
  · intro physAlignment backing accepted mmu mapped index below QN Registers world low high
    obtain ⟨rfl, rfl, rfl, _⟩ := DescriptorTableBacking.newAligned_eq_ok accepted
    exact (write128_replaces (backing.entry_contiguous mapped below) low high world).2

theorem descriptor_writes_inside_sample :
    (∃ memory, CommandQueue.writeSlot id descriptorRing 1 [1, 2]
        (⟨CommandQueue.ready descriptorRing, fun _ => 0, (), []⟩ : QueueWorld 2 Unit) =
          (.ok (), ⟨CommandQueue.ready descriptorRing, memory, (), []⟩) ∧
      Replaced (fun _ => 0) memory 16 16 (paddedEntry 16 [1, 2])) ∧
    ∃ backing : DescriptorTableBacking 16,
      DescriptorTableBacking.newAligned descriptorRing.phys descriptorRing.virt 2 16 = .ok backing ∧
      backing.entryVaddr 2 = .error .invalidRange ∧
      Replaced (fun _ => 0) (write128 id 16 7 8
        (⟨CommandQueue.ready descriptorRing, fun _ => 0, (), []⟩ : QueueWorld 2 Unit)).2.memory 16 16
        (toBytesLE 8 7 ++ toBytesLE 8 8) := by
  obtain ⟨rings, tables, entries⟩ := descriptor_writes_inside descriptorRing.phys descriptorRing.virt 2
  constructor
  · exact ((rings 16 descriptorRing rfl).2 id (fun _ _ => rfl) 1 (by decide) 2 Unit _).1 [1, 2]
  · refine ⟨_, rfl, (tables 16 16 _ rfl).2 2 (Nat.le_refl 2), ?_⟩
    exact entries 16 _ rfl id (fun _ _ => rfl) 1 (by decide) 2 Unit
      ⟨CommandQueue.ready descriptorRing, fun _ => 0, (), []⟩ 7 8

end Iommu
