import Iommu.Vtd.Entries

/-!
What the hardware reads out of the entries the driver builds: every encoder is
undone by the decoders of the same entry.
-/

namespace Iommu

open MachineWord

theorem vtdContextEntryIndex_toNat (client : PciDevice) :
    (vtdContextEntryIndex client).toNat = client.raw.toNat % 2 ^ 8 := by
  have device := client.device_toNat
  have function := client.function_toNat
  have shifted : (client.device <<< 3).toNat = 2 ^ 3 * client.device.toNat := by
    rw [UInt8.toNat_shiftLeft, Nat.shiftLeft_eq]
    simp only [UInt8.reduceToNat, Nat.reduceMod]
    omega
  rw [vtdContextEntryIndex, UInt8.toNat_or, shifted, ← Nat.two_pow_add_eq_or_of_lt (by omega)]
  omega

theorem requester_ext {first second : PciDevice} (segment : first.segment = second.segment)
    (bus : first.bus = second.bus)
    (index : vtdContextEntryIndex first = vtdContextEntryIndex second) : first = second := by
  have segments := congrArg UInt16.toNat segment
  have buses := congrArg UInt8.toNat bus
  have indices := congrArg UInt8.toNat index
  rw [PciDevice.segment_toNat, PciDevice.segment_toNat] at segments
  rw [PciDevice.bus_toNat, PciDevice.bus_toNat] at buses
  rw [vtdContextEntryIndex_toNat, vtdContextEntryIndex_toNat] at indices
  have raw : first.raw = second.raw := by
    apply UInt32.toNat_inj.mp
    omega
  cases first
  cases second
  exact congrArg PciDevice.mk raw

theorem tableAddress_of_aligned {root flags : UInt64} (small : flags.toNat < 2 ^ 12)
    (aligned : root.toNat % 2 ^ 12 = 0) (below : root.toNat < 2 ^ 52) :
    (root &&& TABLE_ADDR_MASK ||| flags).toNat = root.toNat + flags.toNat ∧
      (root &&& TABLE_ADDR_MASK ||| flags) &&& TABLE_ADDR_MASK = root := by
  have placed : (root &&& TABLE_ADDR_MASK ||| flags).toNat =
      root.toNat / 2 ^ 12 % 2 ^ 40 * 2 ^ 12 + flags.toNat :=
    toNat_masked_or_flags root 12 40 (by decide) small
  have masked : ((root &&& TABLE_ADDR_MASK ||| flags) &&& TABLE_ADDR_MASK).toNat =
      (root &&& TABLE_ADDR_MASK ||| flags).toNat / 2 ^ 12 % 2 ^ 40 * 2 ^ 12 :=
    toNat_and_fieldMask _ 12 40 (by decide)
  constructor
  · rw [placed]
    omega
  · apply UInt64.toNat_inj.mp
    rw [masked, placed]
    omega

namespace VtdRootEntry

theorem present_iff (entry : VtdRootEntry) : entry.present = true ↔ entry.low.toNat % 2 = 1 := by
  rw [present, decide_eq_true_iff]
  exact and_one_ne_zero_iff

theorem fromContextTable_eq (table : VtdContextTableBacking) :
    fromContextTable table =
      .ok ⟨UInt64.ofNat table.backing.phys.start &&& TABLE_ADDR_MASK ||| ROOT_ENTRY_PRESENT, 0⟩ := by
  rw [fromContextTable, if_neg]
  exact not_not_intro table.aligned

theorem fromContextTable_contextTableRoot {table : VtdContextTableBacking} {entry : VtdRootEntry}
    (below : table.backing.phys.start < 2 ^ 52) (built : fromContextTable table = .ok entry) :
    entry.contextTableRoot = some (UInt64.ofNat table.backing.phys.start) := by
  have aligned : table.backing.phys.start % 4096 = 0 := table.aligned
  have address : (UInt64.ofNat table.backing.phys.start).toNat = table.backing.phys.start :=
    UInt64.toNat_ofNat_of_lt' (by simp [UInt64.size]; omega)
  rw [fromContextTable_eq] at built
  cases built
  have flag : ROOT_ENTRY_PRESENT.toNat = 1 := by decide
  obtain ⟨placed, masked⟩ := tableAddress_of_aligned (flag ▸ (by decide) :
    ROOT_ENTRY_PRESENT.toNat < 2 ^ 12) (by omega) (address ▸ below)
  rw [contextTableRoot, if_pos, masked]
  rw [present_iff, placed, address, flag]
  omega

end VtdRootEntry

namespace VtdContextEntry

theorem present_iff (entry : VtdContextEntry) :
    entry.present = true ↔ entry.low.toNat % 2 = 1 := by
  rw [present, decide_eq_true_iff]
  exact and_one_ne_zero_iff

theorem translationType_toNat (entry : VtdContextEntry) :
    entry.translationType.toNat = entry.low.toNat / 2 ^ 2 % 2 ^ 3 := by
  have field : (entry.low >>> CONTEXT_TRANSLATION_TYPE_SHIFT &&& 0x7).toNat =
      entry.low.toNat / 2 ^ 2 % 2 ^ 3 := toNat_fieldAt (by decide) (by decide)
  rw [translationType, UInt64.toNat_toUInt8, field]
  omega

theorem domainId_toNat (entry : VtdContextEntry) :
    entry.domainId.toNat = entry.high.toNat / 2 ^ 8 % 2 ^ 16 := by
  have field : (entry.high >>> CONTEXT_DOMAIN_ID_SHIFT &&& 0xffff).toNat =
      entry.high.toNat / 2 ^ 8 % 2 ^ 16 := toNat_fieldAt (by decide) (by decide)
  rw [domainId, UInt64.toNat_toUInt16, field]
  omega

theorem multiLevel_fields {root : UInt64} (aligned : root.toNat % 2 ^ 12 = 0)
    (below : root.toNat < 2 ^ 52) (high : UInt64) :
    let entry : VtdContextEntry := ⟨root &&& TABLE_ADDR_MASK ||| CONTEXT_PRESENT |||
      CONTEXT_TRANSLATION_TYPE_MULTI_LEVEL <<< CONTEXT_TRANSLATION_TYPE_SHIFT, high⟩
    entry.present = true ∧ entry.translationType = 0 ∧ entry.pageTableRoot = some root := by
  intro entry
  have flags : CONTEXT_PRESENT |||
      CONTEXT_TRANSLATION_TYPE_MULTI_LEVEL <<< CONTEXT_TRANSLATION_TYPE_SHIFT = 1 := by decide
  have low : entry.low = root &&& TABLE_ADDR_MASK ||| 1 := by
    rw [← flags, ← UInt64.or_assoc]
  obtain ⟨placed, masked⟩ :=
    tableAddress_of_aligned (by decide : (1 : UInt64).toNat < 2 ^ 12) aligned below
  rw [← low] at placed masked
  have one : (1 : UInt64).toNat = 1 := by decide
  rw [one] at placed
  have here : entry.present = true := by
    rw [present_iff]
    omega
  have type : entry.translationType = 0 := by
    apply UInt8.toNat_inj.mp
    rw [translationType_toNat]
    simp only [UInt8.toNat_zero]
    omega
  refine ⟨here, type, ?_⟩
  rw [pageTableRoot, if_pos, masked]
  exact ⟨here, type⟩

theorem routing_high_fields (width : VtdSecondLevelAddressWidth) {identifier : UInt32}
    (small : identifier.toNat < 2 ^ 16) (low : UInt64) :
    let entry : VtdContextEntry :=
      ⟨low, vtdAgawBits width ||| identifier.toUInt64 <<< CONTEXT_DOMAIN_ID_SHIFT⟩
    entry.domainId.toNat = identifier.toNat ∧ entry.addressWidthBits = width.bits := by
  intro entry
  have agaw : (vtdAgawBits width).toNat < 2 ^ 3 := by
    cases width <;> decide
  have placed : entry.high.toNat = (vtdAgawBits width).toNat + identifier.toNat * 2 ^ 8 := by
    have shift : CONTEXT_DOMAIN_ID_SHIFT.toNat = 8 := by decide
    rw [toNat_or_shifted, shift, UInt32.toNat_toUInt64]
    · decide
    · rw [shift, UInt32.toNat_toUInt64, limit]
      omega
    · rw [shift]
      omega
  constructor
  · rw [domainId_toNat, placed]
    omega
  · have field : entry.high &&& CONTEXT_ADDRESS_WIDTH_MASK = vtdAgawBits width := by
      apply UInt64.toNat_inj.mp
      have masked : (entry.high &&& CONTEXT_ADDRESS_WIDTH_MASK).toNat =
          entry.high.toNat / 2 ^ 0 % 2 ^ 3 * 2 ^ 0 := toNat_and_fieldMask _ 0 3 (by decide)
      rw [masked, placed]
      omega
    rw [addressWidthBits, field]
    cases width <;> decide

end VtdContextEntry

end Iommu
