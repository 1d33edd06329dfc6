import Iommu.Firmware.Framing

/-!
The remapping structures of a DMAR table: a header of type and length, then fields
at fixed places by type.
-/

namespace Iommu

open MachineWord

def DMAR_STRUCTURES_OFFSET : Nat := 48

def DMAR_DRHD : UInt16 := 0
def DMAR_RMRR : UInt16 := 1
def DMAR_ATSR : UInt16 := 2
def DMAR_RHSA : UInt16 := 3
def DMAR_ANDD : UInt16 := 4
def DMAR_SATC : UInt16 := 5
def DMAR_SIDP : UInt16 := 6

def DRHD_MIN_LENGTH : Nat := 16
def RMRR_MIN_LENGTH : Nat := 24
def ATSR_MIN_LENGTH : Nat := 8
def RHSA_MIN_LENGTH : Nat := 20
def ANDD_MIN_LENGTH : Nat := 8
def SATC_MIN_LENGTH : Nat := 8
def SIDP_MIN_LENGTH : Nat := 8
def VTD_REGISTER_WINDOW_SIZE : Nat := 0x1000

def DMAR : TableFormat where
  signature := [0x44, 0x4d, 0x41, 0x52]
  fixed := DMAR_STRUCTURES_OFFSET
  shortHeader := "DMAR table shorter than SDT header"
  shortTable := "DMAR table length is invalid"
  shortFixed := "DMAR table shorter than fixed header"
  readOverflow := "DMAR read offset overflow"
  readOutside := "DMAR table read is out of bounds"

abbrev DmarTable := FirmwareTable DMAR

structure DmarDrhd where
  flags : UInt8
  segment : UInt16
  registers : AddrRange
  includeAll : Bool
  hasDeviceScopes : Bool
  structureOffset : Nat
  length : Nat
  deriving DecidableEq

structure DmarRmrr where
  segment : UInt16
  memory : AddrRange
  hasDeviceScopes : Bool
  structureOffset : Nat
  length : Nat
  deriving DecidableEq

structure DmarAtsr where
  flags : UInt8
  segment : UInt16
  includeAll : Bool
  hasDeviceScopes : Bool
  structureOffset : Nat
  length : Nat
  deriving DecidableEq

structure DmarRhsa where
  registers : AddrRange
  proximityDomain : UInt32
  deriving DecidableEq

structure DmarAndd where
  acpiDeviceNumber : UInt8
  objectName : List UInt8
  deriving DecidableEq

structure DmarSatc where
  flags : UInt8
  segment : UInt16
  atcRequired : Bool
  hasDeviceScopes : Bool
  structureOffset : Nat
  length : Nat
  deriving DecidableEq

structure DmarSidp where
  segment : UInt16
  hasDeviceScopes : Bool
  structureOffset : Nat
  length : Nat
  deriving DecidableEq

structure DmarUnknown where
  kind : UInt16
  offset : Nat
  length : Nat
  deriving DecidableEq

inductive DmarStructure
  | drhd (unit : DmarDrhd)
  | rmrr (region : DmarRmrr)
  | atsr (unit : DmarAtsr)
  | rhsa (affinity : DmarRhsa)
  | andd (device : DmarAndd)
  | satc (unit : DmarSatc)
  | sidp (unit : DmarSidp)
  | unknown (raw : DmarUnknown)
  deriving DecidableEq

def inclusivePhysRange (base limit : UInt64) (addrError limitError : String) :
    Parse DmarError AddrRange :=
  match usizeTryFrom base with
  | none => malformed addrError
  | some base =>
      match checkedAdd limit.toNat 1 with
      | none => malformed limitError
      | some endAddr =>
          match usizeTryFrom (UInt64.ofNat endAddr) with
          | none => malformed addrError
          | some endAddr => AddrRange.new base endAddr

namespace DmarTable

def parse (validate : SdtValidation) (bytes : List UInt8) : Except DmarError DmarTable :=
  FirmwareTable.parse validate bytes

variable (table : DmarTable)

def parseDrhd (offset length : Nat) : Parse DmarError DmarDrhd :=
  if length < DRHD_MIN_LENGTH then malformed "DMAR DRHD structure shorter than minimum"
  else do
    let flags ← table.readU8 offset 4
    let segment ← table.readU16 offset 6
    let base ← table.readU64 offset 8
    let registers ← mmioRegisterWindow base VTD_REGISTER_WINDOW_SIZE
      "DMAR DRHD register base cannot fit in usize" "DMAR DRHD register window overflows"
    pure {
      flags, segment, registers
      includeAll := flags &&& 0x01 ≠ 0
      hasDeviceScopes := DRHD_MIN_LENGTH < length
      structureOffset := offset
      length
    }

def parseAndd (offset length : Nat) : Parse DmarError DmarAndd :=
  if length < ANDD_MIN_LENGTH then malformed "DMAR ANDD structure shorter than minimum"
  else do
    let acpiDeviceNumber ← table.readU8 offset 7
    let start ← .sum offset ANDD_MIN_LENGTH
    let stop ← .sum offset length
    let objectName ← sliceOf table.sdt start stop
    pure { acpiDeviceNumber, objectName }

def parseRmrr (offset length : Nat) : Parse DmarError DmarRmrr :=
  if length < RMRR_MIN_LENGTH then malformed "DMAR RMRR structure shorter than minimum"
  else do
    let base ← table.readU64 offset 8
    let limit ← table.readU64 offset 16
    if limit < base then malformed "DMAR RMRR limit smaller than base"
    else do
      let segment ← table.readU16 offset 6
      let memory ← inclusivePhysRange base limit "DMAR RMRR address cannot fit in usize"
        "DMAR RMRR inclusive limit overflows"
      pure {
        segment, memory
        hasDeviceScopes := RMRR_MIN_LENGTH < length
        structureOffset := offset
        length
      }

def parseAtsr (offset length : Nat) : Parse DmarError DmarAtsr :=
  if length < ATSR_MIN_LENGTH then malformed "DMAR ATSR structure shorter than minimum"
  else do
    let flags ← table.readU8 offset 4
    let segment ← table.readU16 offset 6
    pure {
      flags, segment
      includeAll := flags &&& 0x01 ≠ 0
      hasDeviceScopes := ATSR_MIN_LENGTH < length
      structureOffset := offset
      length
    }

def parseRhsa (offset length : Nat) : Parse DmarError DmarRhsa :=
  if length < RHSA_MIN_LENGTH then malformed "DMAR RHSA structure shorter than minimum"
  else do
    let base ← table.readU64 offset 8
    let registers ← mmioRegisterWindow base VTD_REGISTER_WINDOW_SIZE
      "DMAR RHSA register base cannot fit in usize" "DMAR RHSA register window overflows"
    let proximityDomain ← table.readU32 offset 16
    pure { registers, proximityDomain }

def parseSatc (offset length : Nat) : Parse DmarError DmarSatc :=
  if length < SATC_MIN_LENGTH then malformed "DMAR SATC structure shorter than minimum"
  else do
    let flags ← table.readU8 offset 4
    let segment ← table.readU16 offset 6
    pure {
      flags, segment
      atcRequired := flags &&& 0x01 ≠ 0
      hasDeviceScopes := SATC_MIN_LENGTH < length
      structureOffset := offset
      length
    }

def parseSidp (offset length : Nat) : Parse DmarError DmarSidp :=
  if length < SIDP_MIN_LENGTH then malformed "DMAR SIDP structure shorter than minimum"
  else do
    let segment ← table.readU16 offset 6
    pure {
      segment
      hasDeviceScopes := SIDP_MIN_LENGTH < length
      structureOffset := offset
      length
    }

def parseStructure (offset length : Nat) (kind : UInt16) : Parse DmarError DmarStructure :=
  if kind = DMAR_DRHD then .drhd <$> table.parseDrhd offset length
  else if kind = DMAR_RMRR then .rmrr <$> table.parseRmrr offset length
  else if kind = DMAR_ATSR then .atsr <$> table.parseAtsr offset length
  else if kind = DMAR_RHSA then .rhsa <$> table.parseRhsa offset length
  else if kind = DMAR_ANDD then .andd <$> table.parseAndd offset length
  else if kind = DMAR_SATC then .satc <$> table.parseSatc offset length
  else if kind = DMAR_SIDP then .sidp <$> table.parseSidp offset length
  else .ok (.unknown { kind, offset, length })

def framing : Framing DMAR UInt16 DmarStructure where
  table
  truncated := "DMAR structure truncated before header"
  undersized := "DMAR structure length smaller than header"
  overlong := "DMAR structure extends past table length"
  kindAt offset := table.readU16 offset 0
  parse := table.parseStructure

/-- `next` of the iterator over the structures; its state is the offset. -/
def nextStructure : Effect Nat (Stop DmarError) (Option DmarStructure) := table.framing.next

def rounds : Nat := table.sdt.length + 1

def structures : Parse DmarError (List (Except DmarError DmarStructure)) :=
  drain table.nextStructure table.rounds DMAR_STRUCTURES_OFFSET

def forEachStructure {World : Type} (visit : DmarStructure → Effect World (Stop DmarError) Unit) :
    Effect World (Stop DmarError) Unit :=
  walk (itemRound table.nextStructure) visit table.rounds DMAR_STRUCTURES_OFFSET

end DmarTable

end Iommu
