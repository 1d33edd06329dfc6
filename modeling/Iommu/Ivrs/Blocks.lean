import Iommu.Ivrs.DeviceEntries

/-!
The blocks of an IVRS table: remapping units, reserved memory, and what is of neither
kind.
-/

namespace Iommu

open MachineWord FirmwareTable

def IVHD_TYPE_10H : UInt8 := 0x10
def IVHD_TYPE_11H : UInt8 := 0x11
def IVHD_TYPE_40H : UInt8 := 0x40

def IVMD_TYPE_ALL : UInt8 := 0x20
def IVMD_TYPE_SPECIFIED : UInt8 := 0x21
def IVMD_TYPE_RANGE : UInt8 := 0x22

def IVHD_FLAGS_OFFSET : Nat := 1
def IVHD_DEVICE_ID_OFFSET : Nat := 4
def IVHD_CAP_OFFSET : Nat := 6
def IVHD_BASE_ADDR_OFFSET : Nat := 8
def IVHD_SEGMENT_OFFSET : Nat := 16
def IVHD_INFO_OFFSET : Nat := 18
def IVHD_10H_FEATURE_OFFSET : Nat := 20
def IVHD_10H_DEVICE_ENTRIES_OFFSET : Nat := 24
def IVHD_11H_EFR_OFFSET : Nat := 24
def IVHD_11H_DEVICE_ENTRIES_OFFSET : Nat := 40
def IVHD_10H_MIN_LENGTH : Nat := 24
def IVHD_11H_MIN_LENGTH : Nat := 40

def IVMD_MIN_LENGTH : Nat := 24
def IVMD_FLAGS_OFFSET : Nat := 1
def IVMD_DEVICE_ID_OFFSET : Nat := 4
def IVMD_AUX_OFFSET : Nat := 6
def IVMD_START_ADDR_OFFSET : Nat := 8
def IVMD_MEM_LENGTH_OFFSET : Nat := 16

def AMD_VI_REGISTER_WINDOW_SIZE : Nat := 0x4000

structure Ivhd where
  blockType : UInt8
  flags : UInt8
  registers : AddrRange
  device : PciDevice
  capabilityOffset : UInt16
  iommuInfo : UInt16
  featureInfo : Option UInt32
  efr : Option UInt64
  includeAll : Bool
  hasDeviceScopes : Bool
  blockOffset : Nat
  length : Nat
  deriving DecidableEq

structure Ivmd where
  ivmdType : UInt8
  flags : UInt8
  deviceId : Bdf
  auxDeviceId : Bdf
  memory : AddrRange
  deriving DecidableEq

structure IvrsUnknown where
  kind : UInt8
  offset : Nat
  length : Nat
  deriving DecidableEq

inductive IvrsBlock
  | ivhd (unit : Ivhd)
  | ivmd (memory : Ivmd)
  | unknown (raw : IvrsUnknown)
  deriving DecidableEq

def deviceEntriesOffset (blockType : UInt8) : Nat :=
  if blockType = IVHD_TYPE_11H ∨ blockType = IVHD_TYPE_40H then IVHD_11H_DEVICE_ENTRIES_OFFSET
  else IVHD_10H_DEVICE_ENTRIES_OFFSET

def ivhdMinLength (blockType : UInt8) : Parse IvrsError Nat :=
  if blockType = IVHD_TYPE_10H then pure IVHD_10H_MIN_LENGTH
  else if blockType = IVHD_TYPE_11H ∨ blockType = IVHD_TYPE_40H then pure IVHD_11H_MIN_LENGTH
  else malformed "unsupported IVHD block type"

def physRangeFromStartSize (start size : UInt64) (addrError rangeError : String) :
    Parse IvrsError AddrRange :=
  match usizeTryFrom start with
  | none => malformed addrError
  | some start =>
      match usizeTryFrom size with
      | none => malformed addrError
      | some size =>
          if size = 0 then malformed rangeError
          else
            match AddrRange.tryFromStartSize start size with
            | none => malformed rangeError
            | some range => .ok range

structure EntryFlags where
  includeAll : Bool
  hasDeviceScopes : Bool
  deriving DecidableEq

def EntryFlags.visitEntry : IvhdDeviceEntry → Effect EntryFlags (Stop IvrsError) Unit
  | .all _ => .modify fun flags => { flags with includeAll := true }
  | .pad => pure ()
  | _ => .modify fun flags => { flags with hasDeviceScopes := true }

namespace IvrsTable

def parse (validate : SdtValidation) (bytes : List UInt8) : Except IvrsError IvrsTable :=
  FirmwareTable.parse validate bytes

variable (table : IvrsTable)

def entryFlags (offset length : Nat) (blockType : UInt8) : Parse IvrsError EntryFlags :=
  if length ≤ deviceEntriesOffset blockType then .ok ⟨false, false⟩
  else
    match table.walkDeviceEntries offset (deviceEntriesOffset blockType) length
        EntryFlags.visitEntry ⟨false, false⟩ with
    | (.error stop, _) => .error stop
    | (.ok (), flags) => .ok flags

def parseIvhd (offset length : Nat) (blockType : UInt8) : Parse IvrsError Ivhd := do
  let minLength ← ivhdMinLength blockType
  if length < minLength then malformed "IVHD block shorter than minimum for its type"
  else do
    let entries ← table.entryFlags offset length blockType
    let flags ← table.readU8 offset IVHD_FLAGS_OFFSET
    let capabilityOffset ← table.readU16 offset IVHD_CAP_OFFSET
    let base ← table.readU64 offset IVHD_BASE_ADDR_OFFSET
    let registers ← mmioRegisterWindow base AMD_VI_REGISTER_WINDOW_SIZE
      "IVHD base address cannot fit in usize" "IVHD register window overflows"
    let segment ← table.readU16 offset IVHD_SEGMENT_OFFSET
    let deviceId ← table.readU16 offset IVHD_DEVICE_ID_OFFSET
    let iommuInfo ← table.readU16 offset IVHD_INFO_OFFSET
    let featureInfo ← readWhen (blockType = IVHD_TYPE_10H)
      (table.readU32 offset IVHD_10H_FEATURE_OFFSET)
    let efr ← readWhen (blockType = IVHD_TYPE_11H ∨ blockType = IVHD_TYPE_40H)
      (table.readU64 offset IVHD_11H_EFR_OFFSET)
    pure {
      blockType, flags, capabilityOffset, registers
      device := .fromSegmentBdf segment ⟨deviceId⟩
      iommuInfo, featureInfo, efr
      includeAll := entries.includeAll
      hasDeviceScopes := entries.hasDeviceScopes
      blockOffset := offset
      length
    }

def parseIvmd (offset length : Nat) (blockType : UInt8) : Parse IvrsError Ivmd :=
  if length < IVMD_MIN_LENGTH then malformed "IVMD block too short"
  else do
    let flags ← table.readU8 offset IVMD_FLAGS_OFFSET
    let deviceId ← table.readU16 offset IVMD_DEVICE_ID_OFFSET
    let auxDeviceId ← table.readU16 offset IVMD_AUX_OFFSET
    let start ← table.readU64 offset IVMD_START_ADDR_OFFSET
    let size ← table.readU64 offset IVMD_MEM_LENGTH_OFFSET
    let memory ← physRangeFromStartSize start size "IVMD memory address cannot fit in usize"
      "IVMD memory range overflows"
    pure { ivmdType := blockType, flags, deviceId := ⟨deviceId⟩, auxDeviceId := ⟨auxDeviceId⟩, memory }

def parseBlock (offset length : Nat) (kind : UInt8) : Parse IvrsError IvrsBlock :=
  if kind = IVHD_TYPE_10H ∨ kind = IVHD_TYPE_11H ∨ kind = IVHD_TYPE_40H then
    .ivhd <$> table.parseIvhd offset length kind
  else if kind = IVMD_TYPE_ALL ∨ kind = IVMD_TYPE_SPECIFIED ∨ kind = IVMD_TYPE_RANGE then
    .ivmd <$> table.parseIvmd offset length kind
  else .ok (.unknown { kind, offset, length })

def framing : Framing IVRS UInt8 IvrsBlock where
  table
  truncated := "IVRS block truncated before header"
  undersized := "IVRS block length smaller than header"
  overlong := "IVRS block extends past table length"
  kindAt offset := table.readU8 offset 0
  parse := table.parseBlock

/-- `next` of the iterator over the blocks; its state is the offset. -/
def nextBlock : Effect Nat (Stop IvrsError) (Option IvrsBlock) := table.framing.next

def rounds : Nat := table.sdt.length + 1

def blocks : Parse IvrsError (List (Except IvrsError IvrsBlock)) :=
  drain table.nextBlock table.rounds IVRS_BLOCKS_OFFSET

def entriesOf (unit : Ivhd) : List IvhdDeviceEntry × Parse IvrsError Unit :=
  table.deviceEntries unit.blockOffset (deviceEntriesOffset unit.blockType) unit.length

end IvrsTable

end Iommu
