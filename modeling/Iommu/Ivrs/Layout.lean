import Iommu.Ivrs.Totality

/-!
The layout of an IVRS table as it is specified, and what a parse of a table laid out so
is to report. A device id is in the two bytes behind the type, the data setting next.
-/

namespace Iommu

open MachineWord

namespace Bdf

def lowByte (bdf : Bdf) : UInt8 := .ofNat (bdf.raw.toNat % 256)

def highByte (bdf : Bdf) : UInt8 := .ofNat (bdf.raw.toNat / 256)

def ofBytes (low high : UInt8) : Bdf := ⟨.ofNat (low.toNat + 256 * high.toNat)⟩

theorem lowByte_toNat (bdf : Bdf) : bdf.lowByte.toNat = bdf.raw.toNat % 256 :=
  UInt8.toNat_ofNat_of_lt' (Nat.mod_lt _ (by decide))

theorem highByte_toNat (bdf : Bdf) : bdf.highByte.toNat = bdf.raw.toNat / 256 := by
  have small := bdf.raw.toNat_lt
  have bound : bdf.raw.toNat / 256 < 2 ^ 8 := by omega
  exact UInt8.toNat_ofNat_of_lt' bound

theorem ofBytes_toNat (low high : UInt8) :
    (ofBytes low high).raw.toNat = low.toNat + 256 * high.toNat := by
  have lowSmall := low.toNat_lt
  have highSmall := high.toNat_lt
  have bound : low.toNat + 256 * high.toNat < 2 ^ 16 := by omega
  exact UInt16.toNat_ofNat_of_lt' bound

theorem ext_toNat {first second : Bdf} (same : first.raw.toNat = second.raw.toNat) :
    first = second := by
  cases first
  cases second
  exact congrArg Bdf.mk (UInt16.toNat_inj.mp same)

theorem ofBytes_eq_iff (low high : UInt8) (bdf : Bdf) :
    ofBytes low high = bdf ↔ bdf.lowByte = low ∧ bdf.highByte = high := by
  have lowSmall := low.toNat_lt
  have highSmall := high.toNat_lt
  rw [← UInt8.toNat_inj, ← UInt8.toNat_inj, lowByte_toNat, highByte_toNat]
  constructor
  · rintro rfl
    rw [ofBytes_toNat]
    omega
  · rintro ⟨lowSame, highSame⟩
    apply ext_toNat
    rw [ofBytes_toNat]
    omega

theorem ofBytes_bytes (bdf : Bdf) : ofBytes bdf.lowByte bdf.highByte = bdf :=
  (ofBytes_eq_iff _ _ _).mpr ⟨rfl, rfl⟩

theorem ofBytes_high_zero_iff (bdf : Bdf) : ofBytes bdf.highByte 0 = bdf ↔ bdf.raw = 0 := by
  rw [ofBytes_eq_iff, ← UInt8.toNat_inj, ← UInt8.toNat_inj, lowByte_toNat, highByte_toNat,
    UInt8.toNat_zero, ← UInt16.toNat_inj, UInt16.toNat_zero]
  omega

end Bdf

/-- A device entry as it is meant; a range is one. -/
inductive AmdDeviceEntry
  | pad
  | all (dataSetting : UInt8)
  | select (deviceId : Bdf) (dataSetting : UInt8)
  | range (start last : Bdf) (dataSetting : UInt8)
  | aliasSelect (deviceId source : Bdf) (dataSetting : UInt8)
  | aliasRange (start last source : Bdf) (dataSetting : UInt8)
  | extendedSelect (deviceId : Bdf) (dataSetting : UInt8) (extendedDataSetting : UInt32)
  | extendedRange (start last : Bdf) (dataSetting : UInt8) (extendedDataSetting : UInt32)
  | special (handle : UInt8) (source : Bdf) (dataSetting variety : UInt8)
  | acpiNamed (deviceId : Bdf) (dataSetting : UInt8) (hardwareId compatibleId : UInt64)
      (uidFormat : UInt8) (uid : { uid : List UInt8 // uid.length < 256 })

namespace AmdDeviceEntry

def rangeEnd (last : Bdf) : List UInt8 := [DEVENTRY_RANGE_END, last.lowByte, last.highByte, 0]

def bytes : AmdDeviceEntry → List UInt8
  | pad => [DEVENTRY_PAD, 0, 0, 0]
  | all dataSetting => [DEVENTRY_ALL, 0, 0, dataSetting]
  | select deviceId dataSetting =>
      [DEVENTRY_SELECT, deviceId.lowByte, deviceId.highByte, dataSetting]
  | range start last dataSetting =>
      [DEVENTRY_RANGE_START, start.lowByte, start.highByte, dataSetting] ++ rangeEnd last
  | aliasSelect deviceId source dataSetting =>
      [DEVENTRY_ALIAS_SELECT, deviceId.lowByte, deviceId.highByte, dataSetting,
        0, source.lowByte, source.highByte, 0]
  | aliasRange start last source dataSetting =>
      [DEVENTRY_ALIAS_RANGE_START, start.lowByte, start.highByte, dataSetting,
        0, source.lowByte, source.highByte, 0] ++ rangeEnd last
  | extendedSelect deviceId dataSetting extendedDataSetting =>
      DEVENTRY_EXTENDED_SELECT :: deviceId.lowByte :: deviceId.highByte :: dataSetting ::
        Memory.toBytesLE 4 extendedDataSetting.toNat
  | extendedRange start last dataSetting extendedDataSetting =>
      DEVENTRY_EXTENDED_RANGE_START :: start.lowByte :: start.highByte :: dataSetting ::
        Memory.toBytesLE 4 extendedDataSetting.toNat ++ rangeEnd last
  | special handle source dataSetting variety =>
      [DEVENTRY_SPECIAL, 0, 0, dataSetting, handle, source.lowByte, source.highByte, variety]
  | acpiNamed deviceId dataSetting hardwareId compatibleId uidFormat uid =>
      DEVENTRY_ACPI_NAMED :: deviceId.lowByte :: deviceId.highByte :: dataSetting ::
        (Memory.toBytesLE 8 hardwareId.toNat ++ (Memory.toBytesLE 8 compatibleId.toNat ++
          ([uidFormat, .ofNat uid.1.length] ++ uid.1)))

def reported : AmdDeviceEntry → IvhdDeviceEntry
  | pad => .pad
  | all dataSetting => .all dataSetting
  | select deviceId dataSetting => .select deviceId dataSetting
  | range start last dataSetting => .range start last dataSetting
  | aliasSelect deviceId source dataSetting => .aliasSelect deviceId source dataSetting
  | aliasRange start last source dataSetting => .aliasRange start last source dataSetting
  | extendedSelect deviceId dataSetting extendedDataSetting =>
      .extendedSelect deviceId dataSetting extendedDataSetting
  | extendedRange start last dataSetting extendedDataSetting =>
      .extendedRange start last dataSetting extendedDataSetting
  | special _ source _ variety => .special source variety
  | acpiNamed deviceId dataSetting hardwareId compatibleId uidFormat uid =>
      .acpiNamed deviceId dataSetting hardwareId compatibleId uidFormat uid.1

/-- The fields of the entry are such that reading them from where they are not makes no difference. -/
def Survives : AmdDeviceEntry → Prop
  | pad => True
  | all dataSetting => dataSetting = 0
  | select deviceId dataSetting => deviceId.lowByte = dataSetting ∧ deviceId.highByte = dataSetting
  | range start last dataSetting => start.raw = 0 ∧ last.raw = 0 ∧ dataSetting = 0
  | aliasSelect deviceId source dataSetting =>
      deviceId.lowByte = dataSetting ∧ deviceId.highByte = dataSetting ∧ source.raw = 0
  | aliasRange start last source dataSetting =>
      start.raw = 0 ∧ last.raw = 0 ∧ source.raw = 0 ∧ dataSetting = 0
  | extendedSelect deviceId dataSetting _ =>
      deviceId.lowByte = dataSetting ∧ deviceId.highByte = dataSetting
  | extendedRange start last dataSetting _ => start.raw = 0 ∧ last.raw = 0 ∧ dataSetting = 0
  | special _ source _ variety => source.raw = 0 ∧ variety = 0
  | acpiNamed .. => True

def listBytes (entries : List AmdDeviceEntry) : List UInt8 := entries.flatMap bytes

end AmdDeviceEntry

/-- A remapping unit: its register window fits the address space, its block the length field. -/
structure AmdIvhd where
  blockType : UInt8
  flags : UInt8
  deviceId : Bdf
  capabilityOffset : UInt16
  base : UInt64
  segment : UInt16
  info : UInt16
  feature : UInt32
  efr : UInt64
  secondEfr : UInt64
  entries : List AmdDeviceEntry
  known : blockType = IVHD_TYPE_10H ∨ blockType = IVHD_TYPE_11H ∨ blockType = IVHD_TYPE_40H
  mapped : base.toNat + AMD_VI_REGISTER_WINDOW_SIZE < limit
  short : deviceEntriesOffset blockType + (AmdDeviceEntry.listBytes entries).length < 2 ^ 16

/-- A region of memory that the devices need, inside the address space. -/
structure AmdIvmd where
  ivmdType : UInt8
  flags : UInt8
  deviceId : Bdf
  auxDeviceId : Bdf
  start : UInt64
  length : UInt64
  known : ivmdType = IVMD_TYPE_ALL ∨ ivmdType = IVMD_TYPE_SPECIFIED ∨ ivmdType = IVMD_TYPE_RANGE
  mapped : start.toNat + length.toNat < limit

namespace AmdIvhd

def length (unit : AmdIvhd) : Nat :=
  deviceEntriesOffset unit.blockType + (AmdDeviceEntry.listBytes unit.entries).length

def extension (unit : AmdIvhd) : List UInt8 :=
  if unit.blockType = IVHD_TYPE_11H ∨ unit.blockType = IVHD_TYPE_40H then
    Memory.toBytesLE 8 unit.efr.toNat ++ Memory.toBytesLE 8 unit.secondEfr.toNat
  else []

def fixed (unit : AmdIvhd) : List UInt8 :=
  [unit.blockType, unit.flags] ++ Memory.toBytesLE 2 unit.length ++
    [unit.deviceId.lowByte, unit.deviceId.highByte] ++
    Memory.toBytesLE 2 unit.capabilityOffset.toNat ++ Memory.toBytesLE 8 unit.base.toNat ++
    Memory.toBytesLE 2 unit.segment.toNat ++ Memory.toBytesLE 2 unit.info.toNat ++
    Memory.toBytesLE 4 unit.feature.toNat ++ unit.extension

def bytes (unit : AmdIvhd) : List UInt8 := unit.fixed ++ AmdDeviceEntry.listBytes unit.entries

end AmdIvhd

namespace AmdIvmd

def bytes (memory : AmdIvmd) : List UInt8 :=
  [memory.ivmdType, memory.flags] ++ Memory.toBytesLE 2 32 ++
    [memory.deviceId.lowByte, memory.deviceId.highByte] ++
    [memory.auxDeviceId.lowByte, memory.auxDeviceId.highByte] ++ List.replicate 8 0 ++
    Memory.toBytesLE 8 memory.start.toNat ++ Memory.toBytesLE 8 memory.length.toNat

def reported (memory : AmdIvmd) : Ivmd where
  ivmdType := memory.ivmdType
  flags := memory.flags
  deviceId := memory.deviceId
  auxDeviceId := memory.auxDeviceId
  memory := .fromStartSize memory.start.toNat memory.length.toNat memory.mapped

end AmdIvmd

inductive AmdBlock
  | ivhd (unit : AmdIvhd)
  | ivmd (memory : AmdIvmd)

namespace AmdBlock

def bytes : AmdBlock → List UInt8
  | ivhd unit => unit.bytes
  | ivmd memory => memory.bytes

def Yields (table : IvrsTable) : AmdBlock → Except IvrsError IvrsBlock → Prop
  | ivhd unit, outcome => ∃ parsed, outcome = .ok (.ivhd parsed) ∧
      table.entriesOf parsed = (unit.entries.map AmdDeviceEntry.reported, .ok ())
  | ivmd memory, outcome => outcome = .ok (.ivmd memory.reported)

def Survives : AmdBlock → Prop
  | ivhd unit => ∀ entry ∈ unit.entries, entry.Survives
  | ivmd _ => False

end AmdBlock

/-- A table: what its header has behind the length, and the blocks. -/
structure AmdTable where
  header : List UInt8
  blocks : List AmdBlock
  whole : header.length = 40
  short : 48 + (blocks.flatMap AmdBlock.bytes).length < 2 ^ 32

def AmdTable.bytes (image : AmdTable) : List UInt8 :=
  IVRS.signature ++ Memory.toBytesLE 4 (48 + (image.blocks.flatMap AmdBlock.bytes).length) ++
    image.header ++ image.blocks.flatMap AmdBlock.bytes

/-- The blocks of the table parse to what they are meant to be, one for one. -/
def IvrsTable.RoundTrips (table : IvrsTable) (blocks : List AmdBlock) : Prop :=
  ∃ items, table.blocks = .ok items ∧ List.Forall₂ (AmdBlock.Yields table) blocks items

end Iommu
