import Iommu.Vtd.PromptHardware
import Iommu.Vtd.RangeInvalidation

/-!
Remapped interrupts: the entry an interrupt message names to the hardware, beside the entry that
was written for it and the one that was dropped from the cache.
-/

namespace Iommu

open MachineWord Memory CommandQueue

/-- The index the hardware computes from a message in the remapped format: the handle, and the
subhandle added to it where the address says it is valid. -/
def MsiMessage.interruptIndex (message : MsiMessage) : Nat :=
  let handle := message.address.toNat / 2 ^ 5 % 2 ^ 15 + message.address.toNat / 2 ^ 2 % 2 * 2 ^ 15
  if message.address.toNat / 2 ^ 3 % 2 = 1 then handle + message.data.toNat % 2 ^ 16 else handle

def VtdInterruptRemapTableBacking.slotVaddr (table : VtdInterruptRemapTableBacking) (index : Nat) : Nat :=
  table.backing.virt.start + index * INTERRUPT_REMAP_ENTRY_BYTES

/-- When an interrupt is composed, the entry its message names is the one that was written and the one
that was dropped from the hardware's cache, and it is in the table. -/
def ComposedReaches (table : VtdInterruptRemapTableBacking) (entry : VtdInterruptEntry)
    (subhandle : UInt16) (remap : VtdInterruptRemapEntry) : Prop :=
  ∀ (QN : Nat) (Registers : Type) (mmu : Translation) (window : VtdRegisterWindow Registers)
    (world after : QueueWorld QN Registers) (msi : VtdRemappedMsi), world.RingMapped mmu →
    window.composeInterruptRemap mmu table entry subhandle remap world = (.ok msi, after) →
    let index := msi.message.interruptIndex
    index < table.backing.entryCount ∧ ∃ submitted,
      after.events = world.events ++ [.store (table.slotVaddr index) remap.low,
        .store (table.slotVaddr index + 8) remap.high] ++ submitted ∧
      Invalidation.ofEvents submitted = [some (.interruptEntry index)]

theorem remappedMsiMessage_address (entry : VtdInterruptEntry) (subhandle : UInt16) :
    (remappedMsiMessage entry subhandle).address.toNat =
      0xfee00018 ||| entry.index.toNat / 2 ^ 15 * 2 ^ 2 ||| entry.index.toNat % 2 ^ 15 * 2 ^ 5 := by
  have bounded := entry.index.toNat_lt
  have fixed : (0xfee00000 : UInt64) ||| REMAPPED_MSI_SUBHANDLE_VALID ||| REMAPPED_MSI_INTERRUPT_FORMAT =
      0xfee00018 := by decide
  have high : ((entry.index.toUInt64 >>> 15 &&& 0x1) * REMAPPED_MSI_INDEX_HIGH_BIT).toNat =
      entry.index.toNat / 2 ^ 15 * 2 ^ 2 := by
    have field : (entry.index.toUInt64 >>> 15 &&& 0x1).toNat =
        entry.index.toUInt64.toNat / 2 ^ 15 % 2 ^ 1 := toNat_fieldAt (by decide) (by decide)
    have bit : REMAPPED_MSI_INDEX_HIGH_BIT.toNat = 2 ^ 2 := by decide
    rw [UInt64.toNat_mul, field, bit, UInt16.toNat_toUInt64]
    omega
  have low : ((entry.index &&& REMAPPED_MSI_INDEX_LOW_MASK).toUInt64 <<<
      REMAPPED_MSI_INDEX_SHIFT).toNat = entry.index.toNat % 2 ^ 15 * 2 ^ 5 := by
    have mask : REMAPPED_MSI_INDEX_LOW_MASK.toNat = 2 ^ 15 - 1 := by decide
    have shift : REMAPPED_MSI_INDEX_SHIFT.toNat = 5 := by decide
    have field : (entry.index &&& REMAPPED_MSI_INDEX_LOW_MASK).toUInt64.toNat =
        entry.index.toNat % 2 ^ 15 := by
      rw [UInt16.toNat_toUInt64, UInt16.toNat_and, mask, Nat.and_two_pow_sub_one_eq_mod]
    rw [toNat_shifted, field, shift]
    · rw [shift]
      decide
    · rw [field, shift, limit]
      omega
  rw [remappedMsiMessage]
  simp only [fixed]
  rw [UInt64.toNat_or, UInt64.toNat_or, high, low]
  rfl

theorem address_fields {index : Nat} (bounded : index < 2 ^ 16) :
    let address := 0xfee00018 ||| index / 2 ^ 15 * 2 ^ 2 ||| index % 2 ^ 15 * 2 ^ 5
    address / 2 ^ 5 % 2 ^ 15 = index % 2 ^ 15 ∧ address / 2 ^ 2 % 2 ^ 1 = index / 2 ^ 15 ∧
      address / 2 ^ 3 % 2 ^ 1 = 1 := by
  intro address
  refine ⟨?_, ?_, ?_⟩
  · have high : index / 2 ^ 15 * 2 ^ 2 / 2 ^ 5 % 2 ^ 15 = 0 := by omega
    have low : index % 2 ^ 15 * 2 ^ 5 / 2 ^ 5 % 2 ^ 15 = index % 2 ^ 15 := by omega
    rw [or_field, or_field, high, low]
    simp
  · have high : index / 2 ^ 15 * 2 ^ 2 / 2 ^ 2 % 2 ^ 1 = index / 2 ^ 15 := by omega
    have low : index % 2 ^ 15 * 2 ^ 5 / 2 ^ 2 % 2 ^ 1 = 0 := by omega
    rw [or_field, or_field, high, low]
    simp
  · have high : index / 2 ^ 15 * 2 ^ 2 / 2 ^ 3 % 2 ^ 1 = 0 := by omega
    have low : index % 2 ^ 15 * 2 ^ 5 / 2 ^ 3 % 2 ^ 1 = 0 := by omega
    rw [or_field, or_field, high, low]
    simp

theorem remappedMsiMessage_index (entry : VtdInterruptEntry) (subhandle : UInt16) :
    (remappedMsiMessage entry subhandle).interruptIndex = entry.index.toNat + subhandle.toNat := by
  obtain ⟨handle, high, valid⟩ := address_fields entry.index.toNat_lt
  have small := subhandle.toNat_lt
  have data : (remappedMsiMessage entry subhandle).data.toNat = subhandle.toNat :=
    UInt16.toNat_toUInt32 subhandle
  rw [Nat.pow_one] at high valid
  rw [MsiMessage.interruptIndex, data, remappedMsiMessage_address, handle, high, if_pos valid]
  omega

section Composing

variable {QN : Nat} {Registers : Type} {mmu : Translation} {window : VtdRegisterWindow Registers}
  {table : VtdInterruptRemapTableBacking} {entry : VtdInterruptEntry} {subhandle : UInt16}
  {remap : VtdInterruptRemapEntry} {world after : QueueWorld QN Registers}

theorem entryVaddr_of_inside (inside : entry.index.toNat < table.backing.entryCount) :
    table.entryVaddr entry = .ok (table.slotVaddr entry.index.toNat) :=
  table.backing.entryVaddr_of_lt inside

theorem composeInterruptRemap_outside (outside : table.backing.entryCount ≤ entry.index.toNat) :
    window.composeInterruptRemap mmu table entry subhandle remap world =
      (.error .invalidRange, world) := by
  have refused : table.entryVaddr entry = .error .invalidRange :=
    table.backing.entryVaddr_of_le outside
  rw [VtdRegisterWindow.composeInterruptRemap, writeInterruptRemapEntry, refused]
  rfl

theorem composeInterruptRemap_inside (inside : entry.index.toNat < table.backing.entryCount) :
    window.composeInterruptRemap mmu table entry subhandle remap world =
      (window.submitQueuedInvalidation mmu (.interruptEntryCache entry) >>= fun _ =>
        pure (.new entry subhandle) : Effect (QueueWorld QN Registers) Error VtdRemappedMsi)
      (world.writeEntry mmu (table.slotVaddr entry.index.toNat) remap.low remap.high) := by
  have written : writeInterruptRemapEntry mmu table entry remap world =
      (.ok (), world.writeEntry mmu (table.slotVaddr entry.index.toNat) remap.low remap.high) := by
    rw [writeInterruptRemapEntry, entryVaddr_of_inside inside,
      Effect.bind_of_ok (Effect.ofExcept_apply _ _), write128_apply]
  rw [VtdRegisterWindow.composeInterruptRemap, Effect.bind_of_ok written]

theorem composeInterruptRemap_ok {msi : VtdRemappedMsi} (mapped : world.RingMapped mmu)
    (ran : window.composeInterruptRemap mmu table entry subhandle remap world = (.ok msi, after)) :
    entry.index.toNat < table.backing.entryCount ∧ msi = .new entry subhandle ∧ ∃ submitted,
      after.events = world.events ++ [.store (table.slotVaddr entry.index.toNat) remap.low,
        .store (table.slotVaddr entry.index.toNat + 8) remap.high] ++ submitted ∧
      Invalidation.ofEvents submitted = [some (.interruptEntry entry.index.toNat)] := by
  by_cases inside : entry.index.toNat < table.backing.entryCount
  · rw [composeInterruptRemap_inside inside] at ran
    obtain ⟨_, middle, submitted, finished⟩ := Effect.bind_eq_ok.mp ran
    rw [Effect.pure_apply] at finished
    cases finished
    have written : (world.writeEntry mmu (table.slotVaddr entry.index.toNat) remap.low
        remap.high).RingMapped mmu := mapped
    obtain ⟨handed, events, reads⟩ := submitWithTail_ok_events written submitted
    rw [VtdQueuedInvalidationDescriptor.interruptEntryCache_reads] at reads
    exact ⟨inside, rfl, handed, events, reads⟩
  · rw [composeInterruptRemap_outside (Nat.le_of_not_lt inside)] at ran
    cases ran

end Composing

theorem exists_composed {table : VtdInterruptRemapTableBacking} {entry : VtdInterruptEntry}
    (subhandle : UInt16) (remap : VtdInterruptRemapEntry)
    (inside : entry.index.toNat < table.backing.entryCount) :
    ∃ after, VtdRegisterWindow.prompt.composeInterruptRemap id table entry subhandle remap
      VtdUnit.sampleWorld = (.ok (.new entry subhandle), after) := by
  let written := VtdUnit.sampleWorld.writeEntry id (table.slotVaddr entry.index.toNat) remap.low remap.high
  have clean : Clean descriptorRing 0 written := ⟨rfl, rfl, rfl, rfl, fun _ _ => rfl⟩
  obtain ⟨after, submitted, _⟩ := submitWithTail_prompt takesTail_exclusive
    (.interruptEntryCache entry) clean (by decide)
  refine ⟨after, ?_⟩
  rw [composeInterruptRemap_inside inside]
  exact Effect.bind_of_ok submitted

/-- A composed interrupt reaches its entry exactly when its subhandle is zero: the entry that is written
is the handle alone, while the hardware adds the subhandle. -/
theorem composed_reaches_iff (table : VtdInterruptRemapTableBacking) (entry : VtdInterruptEntry)
    (subhandle : UInt16) (remap : VtdInterruptRemapEntry) :
    ComposedReaches table entry subhandle remap ↔
      subhandle = 0 ∨ table.backing.entryCount ≤ entry.index.toNat := by
  have index : (VtdRemappedMsi.new entry subhandle).message.interruptIndex =
      entry.index.toNat + subhandle.toNat := remappedMsiMessage_index entry subhandle
  constructor
  · intro reaches
    by_cases inside : entry.index.toNat < table.backing.entryCount
    · left
      obtain ⟨after, ran⟩ := exists_composed subhandle remap inside
      obtain ⟨_, _, handed, written, _⟩ := composeInterruptRemap_ok VtdUnit.sampleWorld_mapped ran
      obtain ⟨_, submitted, claimed, _⟩ := reaches _ _ _ _ _ _ _ VtdUnit.sampleWorld_mapped ran
      rw [written, index, List.append_assoc, List.append_assoc] at claimed
      have stores := List.append_cancel_left claimed
      simp only [List.cons_append, List.cons.injEq, Event.store.injEq,
        VtdInterruptRemapTableBacking.slotVaddr, INTERRUPT_REMAP_ENTRY_BYTES] at stores
      apply UInt16.toNat_inj.mp
      rw [UInt16.toNat_zero]
      omega
    · exact Or.inr (Nat.le_of_not_lt inside)
  · intro plain QN Registers mmu window world after msi mapped ran
    obtain ⟨inside, rfl, composed⟩ := composeInterruptRemap_ok mapped ran
    have zero : subhandle = 0 := plain.resolve_right (Nat.not_le_of_lt inside)
    rw [index, zero, UInt16.toNat_zero, Nat.add_zero]
    exact ⟨inside, composed⟩

/-- The second message of a block of interrupts at entry 4 names entry 5, which nobody has written. -/
theorem subhandle_reaches_other : ∃ after,
    VtdRegisterWindow.prompt.composeInterruptRemap id .sample ⟨4⟩ 1 ⟨1, 0⟩ VtdUnit.sampleWorld =
        (.ok (.new ⟨4⟩ 1), after) ∧
      (VtdRemappedMsi.new ⟨4⟩ 1).message.interruptIndex = 5 ∧
      after.events.take 2 = [.store 0x3040 1, .store 0x3048 0] ∧
      ¬ComposedReaches .sample ⟨4⟩ 1 ⟨1, 0⟩ := by
  have inside : (4 : UInt16).toNat < VtdInterruptRemapTableBacking.sample.backing.entryCount := by decide
  obtain ⟨after, ran⟩ := exists_composed 1 ⟨1, 0⟩ inside
  obtain ⟨_, _, handed, written, _⟩ := composeInterruptRemap_ok VtdUnit.sampleWorld_mapped ran
  have index : (VtdRemappedMsi.new ⟨4⟩ 1).message.interruptIndex = 5 := by decide
  have slots : after.events.take 2 = [.store 0x3040 1, .store 0x3048 0] := by
    rw [written]
    rfl
  refine ⟨after, ran, index, slots, fun reaches => ?_⟩
  obtain ⟨_, submitted, claimed, _⟩ := reaches _ _ _ _ _ _ _ VtdUnit.sampleWorld_mapped ran
  rw [claimed, index] at slots
  revert slots
  simp [VtdUnit.sampleWorld, VtdInterruptRemapTableBacking.slotVaddr,
    VtdInterruptRemapTableBacking.sample, INTERRUPT_REMAP_ENTRY_BYTES, DescriptorTableBacking.page,
    AddrRange.fromStartSize]

end Iommu
