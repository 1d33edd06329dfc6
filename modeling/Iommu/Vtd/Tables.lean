import Iommu.Vtd.Entries
import Iommu.Queue.SubmitFrame

/-!
The root, context and interrupt-remapping tables in memory: the two stores that
replace an entry, and what is found in the slot, and outside it, afterwards.
-/

namespace Iommu

open MachineWord Memory

variable {QN : Nat} {Registers : Type}

def storeWord (mmu : Translation) (vaddr : Nat) (word : UInt64) :
    Effect (QueueWorld QN Registers) Error Unit :=
  .modify fun world => { world with
    memory := store64 mmu world.memory vaddr word
    events := world.events ++ [.store vaddr word] }

def write128 (mmu : Translation) (vaddr : Nat) (low high : UInt64) :
    Effect (QueueWorld QN Registers) Error Unit := do
  storeWord mmu vaddr low
  storeWord mmu (vaddr + 8) high

def writeRootEntry (mmu : Translation) (table : VtdRootTableBacking) (bus : UInt8)
    (entry : VtdRootEntry) : Effect (QueueWorld QN Registers) Error Unit := do
  let vaddr ← .ofExcept (table.entryVaddr bus)
  write128 mmu vaddr entry.low entry.high

def writeContextEntry (mmu : Translation) (table : VtdContextTableBacking) (client : PciDevice)
    (entry : VtdContextEntry) : Effect (QueueWorld QN Registers) Error Unit := do
  let vaddr ← .ofExcept (table.clientEntryVaddr client)
  write128 mmu vaddr entry.low entry.high

def writeInterruptRemapEntry (mmu : Translation) (table : VtdInterruptRemapTableBacking)
    (entry : VtdInterruptEntry) (remap : VtdInterruptRemapEntry) :
    Effect (QueueWorld QN Registers) Error Unit := do
  let vaddr ← .ofExcept (table.entryVaddr entry)
  write128 mmu vaddr remap.low remap.high

/-- The two words of an entry as the hardware fetches them. -/
def entryWords (memory : Memory) (paddr : Nat) : UInt64 × UInt64 :=
  (load64 memory paddr, load64 memory (paddr + 8))

def store128 (mmu : Translation) (memory : Memory) (vaddr : Nat) (low high : UInt64) : Memory :=
  store64 mmu (store64 mmu memory vaddr low) (vaddr + 8) high

def QueueWorld.writeEntry (mmu : Translation) (vaddr : Nat) (low high : UInt64)
    (world : QueueWorld QN Registers) : QueueWorld QN Registers :=
  { world with
    memory := store128 mmu world.memory vaddr low high
    events := world.events ++ [.store vaddr low, .store (vaddr + 8) high] }

theorem write128_apply (mmu : Translation) (vaddr : Nat) (low high : UInt64)
    (world : QueueWorld QN Registers) :
    write128 mmu vaddr low high world = (.ok (), world.writeEntry mmu vaddr low high) := by
  rw [write128, storeWord, storeWord, Effect.bind_of_ok (Effect.modify_apply _ _),
    Effect.modify_apply]
  simp [QueueWorld.writeEntry, store128]

section Slot

variable {mmu : Translation} {vaddr paddr : Nat}

theorem store128_apply_outside (contiguous : Contiguous mmu vaddr paddr 16) (memory : Memory)
    (low high : UInt64) {query : Nat} (outside : query < paddr ∨ paddr + 16 ≤ query) :
    store128 mmu memory vaddr low high query = memory query := by
  rw [store128, store64_apply_outside _ _ (contiguous.shift 8 8 (by omega)) (by omega)]
  exact store64_apply_outside _ _ (contiguous.narrow (by omega)) (by omega)

theorem entryWords_store128 (contiguous : Contiguous mmu vaddr paddr 16) (memory : Memory)
    (low high : UInt64) :
    entryWords (store128 mmu memory vaddr low high) paddr = (low, high) := by
  have second := contiguous.shift 8 8 (by omega)
  rw [entryWords, store128, load64_store64 _ _ second,
    load64_store64_outside _ _ second (by omega),
    load64_store64 _ _ (contiguous.narrow (by omega))]

theorem entryWords_congr {first second : Memory} {paddr : Nat}
    (same : ∀ offset < 16, first (paddr + offset) = second (paddr + offset)) :
    entryWords first paddr = entryWords second paddr := by
  have low := load64_congr fun offset below => same offset (Nat.lt_of_lt_of_le below (by decide))
  have high : load64 first (paddr + 8) = load64 second (paddr + 8) := by
    apply load64_congr
    intro offset below
    rw [Nat.add_assoc]
    exact same (8 + offset) (by omega)
  rw [entryWords, entryWords, low, high]

theorem entryWords_zero {memory : Memory} {paddr : Nat}
    (zero : ∀ offset < 16, memory (paddr + offset) = 0) : entryWords memory paddr = (0, 0) := by
  have blank : ∀ base, load64 (fun _ => 0) base = 0 := by
    intro base
    simp only [load64, loadBytes]
    decide
  have same : entryWords memory paddr = entryWords (fun _ => 0) paddr := entryWords_congr zero
  rw [same, entryWords, blank, blank]

theorem entryWords_store128_outside (contiguous : Contiguous mmu vaddr paddr 16) (memory : Memory)
    (low high : UInt64) {query : Nat} (apart : query + 16 ≤ paddr ∨ paddr + 16 ≤ query) :
    entryWords (store128 mmu memory vaddr low high) query = entryWords memory query := by
  apply entryWords_congr
  intro offset below
  exact store128_apply_outside contiguous memory low high (by omega)

theorem entryWords_of_ringOnly {before after : QueueWorld QN Registers}
    (frame : before.RingOnly after) {query : Nat}
    (apart : ∀ offset < 16, ¬before.OwnsRing (query + offset)) :
    entryWords after.memory query = entryWords before.memory query :=
  entryWords_congr fun offset below => frame.memory _ (apart offset below)

end Slot

section Context

variable {mmu : Translation} {table : VtdContextTableBacking}

def VtdContextTableBacking.clientPaddr (table : VtdContextTableBacking) (client : PciDevice) : Nat :=
  table.backing.entryPaddr (vtdContextEntryIndex client).toNat

def VtdContextTableBacking.clientVaddr (table : VtdContextTableBacking) (client : PciDevice) : Nat :=
  table.backing.virt.start + (vtdContextEntryIndex client).toNat * CONTEXT_ENTRY_BYTES

theorem VtdContextTableBacking.index_lt (table : VtdContextTableBacking) (index : UInt8) :
    index.toNat < table.backing.entryCount := by
  rw [table.count]
  exact index.toNat_lt

theorem clientEntryVaddr_eq (table : VtdContextTableBacking) (client : PciDevice) :
    table.clientEntryVaddr client = .ok (table.clientVaddr client) :=
  table.backing.entryVaddr_of_lt (table.index_lt _)

theorem client_contiguous (mapped : table.backing.Mapped mmu) (client : PciDevice) :
    Contiguous mmu (table.clientVaddr client) (table.clientPaddr client) 16 :=
  DescriptorTableBacking.entry_contiguous mapped (table.index_lt _)

theorem writeContextEntry_apply (mmu : Translation) (table : VtdContextTableBacking)
    (client : PciDevice) (entry : VtdContextEntry) (world : QueueWorld QN Registers) :
    writeContextEntry mmu table client entry world =
      (.ok (), world.writeEntry mmu (table.clientVaddr client) entry.low entry.high) := by
  rw [writeContextEntry, clientEntryVaddr_eq, Effect.bind_of_ok (Effect.ofExcept_apply _ _),
    write128_apply]

end Context

section Root

variable {mmu : Translation} {table : VtdRootTableBacking}

def VtdRootTableBacking.busPaddr (table : VtdRootTableBacking) (bus : UInt8) : Nat :=
  table.backing.entryPaddr bus.toNat

def VtdRootTableBacking.busVaddr (table : VtdRootTableBacking) (bus : UInt8) : Nat :=
  table.backing.virt.start + bus.toNat * ROOT_ENTRY_BYTES

theorem VtdRootTableBacking.bus_lt (table : VtdRootTableBacking) (bus : UInt8) :
    bus.toNat < table.backing.entryCount := by
  rw [table.count]
  exact bus.toNat_lt

theorem bus_contiguous (mapped : table.backing.Mapped mmu) (bus : UInt8) :
    Contiguous mmu (table.busVaddr bus) (table.busPaddr bus) 16 :=
  DescriptorTableBacking.entry_contiguous mapped (table.bus_lt bus)

theorem writeRootEntry_apply (mmu : Translation) (table : VtdRootTableBacking) (bus : UInt8)
    (entry : VtdRootEntry) (world : QueueWorld QN Registers) :
    writeRootEntry mmu table bus entry world =
      (.ok (), world.writeEntry mmu (table.busVaddr bus) entry.low entry.high) := by
  have found : table.entryVaddr bus = .ok (table.busVaddr bus) :=
    table.backing.entryVaddr_of_lt (table.bus_lt bus)
  rw [writeRootEntry, found, Effect.bind_of_ok (Effect.ofExcept_apply _ _), write128_apply]

end Root

section InterruptRemap

variable {mmu : Translation} {table : VtdInterruptRemapTableBacking}

def VtdInterruptRemapTableBacking.remapPaddr (table : VtdInterruptRemapTableBacking)
    (entry : VtdInterruptEntry) : Nat :=
  table.backing.entryPaddr entry.index.toNat

def VtdInterruptRemapTableBacking.remapVaddr (table : VtdInterruptRemapTableBacking)
    (entry : VtdInterruptEntry) : Nat :=
  table.backing.virt.start + entry.index.toNat * INTERRUPT_REMAP_ENTRY_BYTES

theorem remap_contiguous (mapped : table.backing.Mapped mmu) {entry : VtdInterruptEntry}
    (below : entry.index.toNat < table.backing.entryCount) :
    Contiguous mmu (table.remapVaddr entry) (table.remapPaddr entry) 16 :=
  DescriptorTableBacking.entry_contiguous mapped below

theorem writeInterruptRemapEntry_of_lt (mmu : Translation) {entry : VtdInterruptEntry}
    (below : entry.index.toNat < table.backing.entryCount) (remap : VtdInterruptRemapEntry)
    (world : QueueWorld QN Registers) :
    writeInterruptRemapEntry mmu table entry remap world =
      (.ok (), world.writeEntry mmu (table.remapVaddr entry) remap.low remap.high) := by
  have found : table.entryVaddr entry = .ok (table.remapVaddr entry) :=
    table.backing.entryVaddr_of_lt below
  rw [writeInterruptRemapEntry, found, Effect.bind_of_ok (Effect.ofExcept_apply _ _),
    write128_apply]

theorem writeInterruptRemapEntry_of_le (mmu : Translation) {entry : VtdInterruptEntry}
    (outside : table.backing.entryCount ≤ entry.index.toNat) (remap : VtdInterruptRemapEntry)
    (world : QueueWorld QN Registers) :
    writeInterruptRemapEntry mmu table entry remap world = (.error .invalidRange, world) := by
  have refused : table.entryVaddr entry = .error .invalidRange :=
    table.backing.entryVaddr_of_le outside
  rw [writeInterruptRemapEntry, refused, Effect.bind_of_error (Effect.ofExcept_apply _ _)]

end InterruptRemap

end Iommu
