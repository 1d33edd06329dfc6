import Iommu.Firmware.Framing

/-!
The device entries of an IVHD block: of four or eight bytes by type, or of a length of
their own. A range is two entries, of which the walk keeps the first pending.
-/

namespace Iommu

open MachineWord

def IVRS_BLOCKS_OFFSET : Nat := 48

def DEVENTRY_PAD : UInt8 := 0x00
def DEVENTRY_ALL : UInt8 := 0x01
def DEVENTRY_SELECT : UInt8 := 0x02
def DEVENTRY_RANGE_START : UInt8 := 0x03
def DEVENTRY_RANGE_END : UInt8 := 0x04
def DEVENTRY_ALIAS_SELECT : UInt8 := 0x42
def DEVENTRY_ALIAS_RANGE_START : UInt8 := 0x43
def DEVENTRY_EXTENDED_SELECT : UInt8 := 0x46
def DEVENTRY_EXTENDED_RANGE_START : UInt8 := 0x47
def DEVENTRY_SPECIAL : UInt8 := 0x48
def DEVENTRY_ACPI_NAMED : UInt8 := 0xf0
def DEVENTRY_ACPI_NAMED_MIN_LENGTH : Nat := 22

def IVRS : TableFormat where
  signature := [0x49, 0x56, 0x52, 0x53]
  fixed := IVRS_BLOCKS_OFFSET
  shortHeader := "IVRS table shorter than SDT header"
  shortTable := "IVRS table length is invalid"
  shortFixed := "IVRS table shorter than fixed header"
  readOverflow := "IVRS read offset overflow"
  readOutside := "IVRS table read is out of bounds"

abbrev IvrsTable := FirmwareTable IVRS

inductive PendingIvhdRangeKind
  | plain
  | aliased (source : Bdf)
  | extended (extendedDataSetting : UInt32)
  deriving DecidableEq

structure PendingIvhdRange where
  start : Bdf
  kind : PendingIvhdRangeKind
  dataSetting : UInt8
  deriving DecidableEq

inductive IvhdDeviceEntry
  | pad
  | all (dataSetting : UInt8)
  | select (deviceId : Bdf) (dataSetting : UInt8)
  | range (start last : Bdf) (dataSetting : UInt8)
  | aliasSelect (deviceId source : Bdf) (dataSetting : UInt8)
  | aliasRange (start last source : Bdf) (dataSetting : UInt8)
  | extendedSelect (deviceId : Bdf) (dataSetting : UInt8) (extendedDataSetting : UInt32)
  | extendedRange (start last : Bdf) (dataSetting : UInt8) (extendedDataSetting : UInt32)
  | special (deviceId : Bdf) (variety : UInt8)
  | acpiNamed (deviceId : Bdf) (dataSetting : UInt8) (hardwareId compatibleId : UInt64)
      (uidFormat : UInt8) (uid : List UInt8)
  deriving DecidableEq

def PendingIvhdRange.ending (pending : PendingIvhdRange) (last : Bdf) : IvhdDeviceEntry :=
  match pending.kind with
  | .plain => .range pending.start last pending.dataSetting
  | .aliased source => .aliasRange pending.start last source pending.dataSetting
  | .extended extendedDataSetting =>
      .extendedRange pending.start last pending.dataSetting extendedDataSetting

structure EntryWalk where
  offset : Nat
  pendingRangeStart : Option PendingIvhdRange
  deriving DecidableEq

namespace IvrsTable

variable (table : IvrsTable)

/-- The size of the entry, or none for a type that ends the walk. -/
def entrySize (blockLength offset entryOffset : Nat) (entryType : UInt8) :
    Parse IvrsError (Option Nat) :=
  if entryType ≤ 0x04 then .ok (some 4)
  else if entryType ∈ [0x42, 0x43, 0x46, 0x47, 0x48] then .ok (some 8)
  else if entryType = DEVENTRY_ACPI_NAMED then do
    let least ← .sum offset DEVENTRY_ACPI_NAMED_MIN_LENGTH
    if blockLength < least then
      malformed "IVHD ACPI named device entry truncated before UID length"
    else do
      let uidLength ← table.readU8 entryOffset 21
      pure (some (DEVENTRY_ACPI_NAMED_MIN_LENGTH + uidLength.toNat))
  else if 0xf1 ≤ entryType then .ok none
  else .ok (some 4)

/-- The device id and the data setting, which an entry with an ACPI name has elsewhere. -/
def entryHeader (entryOffset : Nat) (entryType : UInt8) : Parse IvrsError (Bdf × UInt8) :=
  if entryType = DEVENTRY_ACPI_NAMED then do
    let deviceId ← table.readU16 entryOffset 1
    let dataSetting ← table.readU8 entryOffset 3
    pure (⟨deviceId⟩, dataSetting)
  else do
    let deviceId ← table.readU16 entryOffset 2
    let dataSetting ← table.readU8 entryOffset 1
    pure (⟨deviceId⟩, dataSetting)

/-- What the walk reports for an entry, and the range that is pending after it. -/
def readEntry (entryOffset entrySize : Nat) (entryType : UInt8) (deviceId : Bdf)
    (dataSetting : UInt8) (pending : Option PendingIvhdRange) :
    Parse IvrsError (Option IvhdDeviceEntry × Option PendingIvhdRange) :=
  if entryType = DEVENTRY_PAD then pure (some .pad, pending)
  else if entryType = DEVENTRY_ALL then pure (some (.all dataSetting), pending)
  else if entryType = DEVENTRY_SELECT then pure (some (.select deviceId dataSetting), pending)
  else if entryType = DEVENTRY_RANGE_START then pure (none, some ⟨deviceId, .plain, dataSetting⟩)
  else if entryType = DEVENTRY_ALIAS_RANGE_START then do
    let source ← table.readU16 entryOffset 6
    pure (none, some ⟨deviceId, .aliased ⟨source⟩, dataSetting⟩)
  else if entryType = DEVENTRY_EXTENDED_RANGE_START then do
    let extendedDataSetting ← table.readU32 entryOffset 4
    pure (none, some ⟨deviceId, .extended extendedDataSetting, dataSetting⟩)
  else if entryType = DEVENTRY_RANGE_END then
    match pending with
    | none => pure (none, none)
    | some start =>
        if deviceId.raw < start.start.raw then malformed "IVHD device range is reversed"
        else pure (some (start.ending deviceId), none)
  else if entryType = DEVENTRY_ALIAS_SELECT then do
    let source ← table.readU16 entryOffset 6
    pure (some (.aliasSelect deviceId ⟨source⟩ dataSetting), pending)
  else if entryType = DEVENTRY_EXTENDED_SELECT then do
    let extendedDataSetting ← table.readU32 entryOffset 4
    pure (some (.extendedSelect deviceId dataSetting extendedDataSetting), pending)
  else if entryType = DEVENTRY_SPECIAL then do
    let source ← table.readU16 entryOffset 6
    pure (some (.special ⟨source⟩ dataSetting), pending)
  else if entryType = DEVENTRY_ACPI_NAMED then do
    let hardwareId ← table.readU64 entryOffset 4
    let compatibleId ← table.readU64 entryOffset 12
    let uidFormat ← table.readU8 entryOffset 20
    let uidStart ← .sum entryOffset DEVENTRY_ACPI_NAMED_MIN_LENGTH
    let uidEnd ← .sum entryOffset entrySize
    let uid ← sliceOf table.sdt uidStart uidEnd
    pure (some (.acpiNamed deviceId dataSetting hardwareId compatibleId uidFormat uid), pending)
  else pure (none, pending)

def entryRound (blockOffset blockLength : Nat) (state : EntryWalk) :
    Parse IvrsError (Round IvrsError IvhdDeviceEntry EntryWalk) :=
  if blockLength ≤ state.offset then .ok .done
  else do
    let entryOffset ← .sum blockOffset state.offset
    let entryType ← table.readU8 entryOffset 0
    match ← table.entrySize blockLength state.offset entryOffset entryType with
    | none => pure .done
    | some size => do
        let stop ← .sum state.offset size
        if blockLength < stop then malformed "IVHD device entry extends past block"
        else do
          let (deviceId, dataSetting) ← table.entryHeader entryOffset entryType
          let (entry, pending) ← table.readEntry entryOffset size entryType deviceId dataSetting
            state.pendingRangeStart
          pure (.next entry (do
            let offset ← .sum state.offset size
            pure ⟨offset, pending⟩))

def deviceEntries (blockOffset entriesOffset blockLength : Nat) :
    List IvhdDeviceEntry × Parse IvrsError Unit :=
  transcript (table.entryRound blockOffset blockLength) (blockLength + 1) ⟨entriesOffset, none⟩

def walkDeviceEntries {World : Type} (blockOffset entriesOffset blockLength : Nat)
    (visit : IvhdDeviceEntry → Effect World (Stop IvrsError) Unit) :
    Effect World (Stop IvrsError) Unit :=
  walk (table.entryRound blockOffset blockLength) visit (blockLength + 1) ⟨entriesOffset, none⟩

theorem walkDeviceEntries_eq {World : Type} (blockOffset entriesOffset blockLength : Nat)
    (visit : IvhdDeviceEntry → Effect World (Stop IvrsError) Unit) :
    table.walkDeviceEntries blockOffset entriesOffset blockLength visit =
      visitAll visit (table.deviceEntries blockOffset entriesOffset blockLength) :=
  walk_eq_visitAll _ _ _ _

end IvrsTable

end Iommu
