import Iommu.Firmware.Table
import Iommu.Library.Arrays

/-!
The nodes of an IORT table, and the iterator over them, which the table tells how many
there are. A node's header has its kind first and its length next.
-/

namespace Iommu

open MachineWord FirmwareTable

def IORT_NODE_COUNT_OFFSET : Nat := 36
def IORT_NODE_OFFSET_OFFSET : Nat := 40
def IORT_TABLE_MIN_LENGTH : Nat := 48

def IORT_NODE_HEADER_LENGTH : Nat := 16

def IORT_NODE_ITS_GROUP : UInt8 := 0x00
def IORT_NODE_NAMED_COMPONENT : UInt8 := 0x01
def IORT_NODE_ROOT_COMPLEX : UInt8 := 0x02
def IORT_NODE_SMMU : UInt8 := 0x03
def IORT_NODE_SMMU_V3 : UInt8 := 0x04
def IORT_NODE_PMCG : UInt8 := 0x05
def IORT_NODE_RMR : UInt8 := 0x06

def ITS_GROUP_MIN_LENGTH : Nat := IORT_NODE_HEADER_LENGTH + 4
def NAMED_COMPONENT_MIN_LENGTH : Nat := IORT_NODE_HEADER_LENGTH + 13
def ROOT_COMPLEX_MIN_LENGTH : Nat := IORT_NODE_HEADER_LENGTH + 19
def SMMU_MIN_LENGTH : Nat := IORT_NODE_HEADER_LENGTH + 44
def SMMU_V3_MIN_LENGTH : Nat := IORT_NODE_HEADER_LENGTH + 52
def PMCG_MIN_LENGTH : Nat := IORT_NODE_HEADER_LENGTH + 24
def RMR_MIN_LENGTH : Nat := IORT_NODE_HEADER_LENGTH + 12

def IORT : TableFormat where
  signature := [0x49, 0x4f, 0x52, 0x54]
  fixed := IORT_TABLE_MIN_LENGTH
  shortHeader := "IORT table shorter than SDT header"
  shortTable := "IORT table length is invalid"
  shortFixed := "IORT table shorter than fixed header"
  readOverflow := "IORT read offset overflow"
  readOutside := "IORT table read is out of bounds"

abbrev IortTable := FirmwareTable IORT

inductive IortNodeKind
  | itsGroup
  | namedComponent
  | rootComplex
  | smmu
  | smmuV3
  | pmcg
  | reservedMemory
  | unknown (kind : UInt8)
  deriving DecidableEq

def IortNodeKind.fromRaw (raw : UInt8) : IortNodeKind :=
  if raw = IORT_NODE_ITS_GROUP then .itsGroup
  else if raw = IORT_NODE_NAMED_COMPONENT then .namedComponent
  else if raw = IORT_NODE_ROOT_COMPLEX then .rootComplex
  else if raw = IORT_NODE_SMMU then .smmu
  else if raw = IORT_NODE_SMMU_V3 then .smmuV3
  else if raw = IORT_NODE_PMCG then .pmcg
  else if raw = IORT_NODE_RMR then .reservedMemory
  else .unknown raw

structure IortNodeHeader where
  kind : IortNodeKind
  revision : UInt8
  identifier : UInt32
  mappingCount : UInt32
  mappingOffset : UInt32
  offset : Nat
  length : Nat
  deriving DecidableEq

def IortNodeHeader.endOffset (header : IortNodeHeader) : Nat := header.offset + header.length

structure IortMemoryAccess where
  cacheCoherency : UInt32
  hints : UInt8
  memoryFlags : UInt8
  deriving DecidableEq

structure IortItsGroup where
  itsCount : UInt32
  header : IortNodeHeader
  deriving DecidableEq

structure IortNamedComponent where
  nodeFlags : UInt32
  memoryProperties : IortMemoryAccess
  memoryAddressLimit : UInt8
  deviceName : List UInt8
  header : IortNodeHeader
  deriving DecidableEq

structure IortRootComplex where
  memoryProperties : IortMemoryAccess
  atsAttribute : UInt32
  pciSegmentNumber : UInt32
  memoryAddressLimit : UInt8
  pasidCapabilities : UInt16
  header : IortNodeHeader
  deriving DecidableEq

structure IortSmmu where
  registers : AddrRange
  model : UInt32
  flags : UInt32
  globalInterruptOffset : UInt32
  contextInterruptCount : UInt32
  contextInterruptOffset : UInt32
  pmuInterruptCount : UInt32
  pmuInterruptOffset : UInt32
  header : IortNodeHeader
  deriving DecidableEq

structure IortSmmuV3 where
  baseAddress : Nat
  flags : UInt32
  vatosAddress : Option Nat
  model : UInt32
  eventGsiv : UInt32
  priGsiv : UInt32
  gerrGsiv : UInt32
  syncGsiv : UInt32
  pxm : UInt32
  idMappingIndex : UInt32
  header : IortNodeHeader
  deriving DecidableEq

structure IortPmcg where
  page0BaseAddress : Nat
  overflowGsiv : UInt32
  nodeReference : UInt32
  page1BaseAddress : Option Nat
  header : IortNodeHeader
  deriving DecidableEq

structure IortReservedMemory where
  flags : UInt32
  descriptorCount : UInt32
  descriptorOffset : UInt32
  header : IortNodeHeader
  deriving DecidableEq

structure IortUnknownNode where
  kind : UInt8
  header : IortNodeHeader
  deriving DecidableEq

inductive IortNode
  | itsGroup (node : IortItsGroup)
  | namedComponent (node : IortNamedComponent)
  | rootComplex (node : IortRootComplex)
  | smmu (node : IortSmmu)
  | smmuV3 (node : IortSmmuV3)
  | pmcg (node : IortPmcg)
  | reservedMemory (node : IortReservedMemory)
  | unknown (node : IortUnknownNode)
  deriving DecidableEq

def IortNode.header : IortNode → IortNodeHeader
  | itsGroup node => node.header
  | namedComponent node => node.header
  | rootComplex node => node.header
  | smmu node => node.header
  | smmuV3 node => node.header
  | pmcg node => node.header
  | reservedMemory node => node.header
  | unknown node => node.header

namespace IortTable

def parse (validate : SdtValidation) (bytes : List UInt8) : Except IortError IortTable :=
  FirmwareTable.parse validate bytes

def checkedOffset (base offset : Nat) : Parse IortError Nat :=
  match checkedAdd base offset with
  | none => malformed "IORT offset overflow"
  | some total => .ok total

def mmioAddress (base : UInt64) : Parse IortError Nat :=
  match usizeTryFrom base with
  | none => malformed "IORT MMIO address cannot fit in usize"
  | some base => .ok base

def optionalAddress (base : UInt64) : Parse IortError (Option Nat) :=
  if base = 0 then pure none else some <$> mmioAddress base

def rangeFromStartSize (start size : UInt64) (addrError sizeError emptyError rangeError : String) :
    Parse IortError AddrRange :=
  match usizeTryFrom start with
  | none => malformed addrError
  | some start =>
      match usizeTryFrom size with
      | none => malformed sizeError
      | some size =>
          if size = 0 then malformed emptyError
          else
            match AddrRange.tryFromStartSize start size with
            | none => malformed rangeError
            | some range => .ok range

def mmioRangeFromStartSize (start size : UInt64) : Parse IortError AddrRange :=
  rangeFromStartSize start size "IORT MMIO address cannot fit in usize"
    "IORT MMIO range size cannot fit in usize" "IORT MMIO range is empty"
    "IORT MMIO range overflows"

def physRangeFromStartSize (start size : UInt64) : Parse IortError AddrRange :=
  rangeFromStartSize start size "IORT physical address cannot fit in usize"
    "IORT physical range size cannot fit in usize" "IORT physical range is empty"
    "IORT physical range overflows"

variable (table : IortTable)

def readMemoryAccess (base displacement : Nat) : Parse IortError IortMemoryAccess := do
  let offset ← .sum base displacement
  let cacheCoherency ← table.readU32 offset 0
  let hints ← table.readU8 offset 4
  let memoryFlags ← table.readU8 offset 7
  pure { cacheCoherency, hints, memoryFlags }

def parseNodeHeader (offset : Nat) : Parse IortError IortNodeHeader := do
  let header ← checkedOffset offset IORT_NODE_HEADER_LENGTH
  if table.sdt.length < header then malformed "IORT node truncated before header"
  else do
    let length ← table.readU16 offset 1
    if length.toNat < IORT_NODE_HEADER_LENGTH then
      malformed "IORT node length smaller than header"
    else do
      let stop ← checkedOffset offset length.toNat
      if table.sdt.length < stop then malformed "IORT node extends past table length"
      else do
        let kind ← table.readU8 offset 0
        let revision ← table.readU8 offset 3
        let identifier ← table.readU32 offset 4
        let mappingCount ← table.readU32 offset 8
        let mappingOffset ← table.readU32 offset 12
        pure {
          kind := .fromRaw kind
          revision, identifier, mappingCount, mappingOffset, offset
          length := length.toNat
        }

def parseItsGroup (header : IortNodeHeader) : Parse IortError IortItsGroup :=
  if header.length < ITS_GROUP_MIN_LENGTH then
    malformed "IORT ITS group node shorter than minimum"
  else do
    let itsCount ← table.readU32 header.offset 16
    pure { itsCount, header }

/-- Where the name of a component ends: at its mappings, or with the node when it has none. -/
def deviceNameEnd (header : IortNodeHeader) : Parse IortError Nat :=
  if header.mappingCount = 0 then .sum header.offset header.length
  else checkedOffset header.offset header.mappingOffset.toNat

def parseNamedComponent (header : IortNodeHeader) : Parse IortError IortNamedComponent :=
  if header.length < NAMED_COMPONENT_MIN_LENGTH then
    malformed "IORT named component node shorter than minimum"
  else do
    let nameStart ← .sum header.offset NAMED_COMPONENT_MIN_LENGTH
    let nameEnd ← deviceNameEnd header
    let stop ← .sum header.offset header.length
    if nameEnd < nameStart ∨ stop < nameEnd then
      malformed "IORT named component device name bounds are invalid"
    else do
      let nodeFlags ← table.readU32 header.offset 16
      let memoryProperties ← table.readMemoryAccess header.offset 20
      let memoryAddressLimit ← table.readU8 header.offset 28
      let deviceName ← sliceOf table.sdt nameStart nameEnd
      pure { nodeFlags, memoryProperties, memoryAddressLimit, deviceName, header }

def parseRootComplex (header : IortNodeHeader) : Parse IortError IortRootComplex :=
  if header.length < ROOT_COMPLEX_MIN_LENGTH then
    malformed "IORT root complex node shorter than minimum"
  else do
    let memoryProperties ← table.readMemoryAccess header.offset 16
    let atsAttribute ← table.readU32 header.offset 24
    let pciSegmentNumber ← table.readU32 header.offset 28
    let memoryAddressLimit ← table.readU8 header.offset 32
    let pasidCapabilities ← table.readU16 header.offset 33
    pure {
      memoryProperties, atsAttribute, pciSegmentNumber, memoryAddressLimit, pasidCapabilities, header
    }

def parseSmmu (header : IortNodeHeader) : Parse IortError IortSmmu :=
  if header.length < SMMU_MIN_LENGTH then malformed "IORT SMMU node shorter than minimum"
  else do
    let start ← table.readU64 header.offset 16
    let size ← table.readU64 header.offset 24
    let registers ← mmioRangeFromStartSize start size
    let model ← table.readU32 header.offset 32
    let flags ← table.readU32 header.offset 36
    let globalInterruptOffset ← table.readU32 header.offset 40
    let contextInterruptCount ← table.readU32 header.offset 44
    let contextInterruptOffset ← table.readU32 header.offset 48
    let pmuInterruptCount ← table.readU32 header.offset 52
    let pmuInterruptOffset ← table.readU32 header.offset 56
    pure {
      registers, model, flags, globalInterruptOffset, contextInterruptCount, contextInterruptOffset
      pmuInterruptCount, pmuInterruptOffset, header
    }

def parseSmmuV3 (header : IortNodeHeader) : Parse IortError IortSmmuV3 :=
  if header.length < SMMU_V3_MIN_LENGTH then malformed "IORT SMMUv3 node shorter than minimum"
  else do
    let vatos ← table.readU64 header.offset 32
    let base ← table.readU64 header.offset 16
    let baseAddress ← mmioAddress base
    let flags ← table.readU32 header.offset 24
    let vatosAddress ← optionalAddress vatos
    let model ← table.readU32 header.offset 40
    let eventGsiv ← table.readU32 header.offset 44
    let priGsiv ← table.readU32 header.offset 48
    let gerrGsiv ← table.readU32 header.offset 52
    let syncGsiv ← table.readU32 header.offset 56
    let pxm ← table.readU32 header.offset 60
    let idMappingIndex ← table.readU32 header.offset 64
    pure {
      baseAddress, flags, vatosAddress, model, eventGsiv, priGsiv, gerrGsiv, syncGsiv, pxm
      idMappingIndex, header
    }

def parsePmcg (header : IortNodeHeader) : Parse IortError IortPmcg :=
  if header.length < PMCG_MIN_LENGTH then malformed "IORT PMCG node shorter than minimum"
  else do
    let page1 ← table.readU64 header.offset 32
    let base ← table.readU64 header.offset 16
    let page0BaseAddress ← mmioAddress base
    let overflowGsiv ← table.readU32 header.offset 24
    let nodeReference ← table.readU32 header.offset 28
    let page1BaseAddress ← optionalAddress page1
    pure { page0BaseAddress, overflowGsiv, nodeReference, page1BaseAddress, header }

def parseReservedMemory (header : IortNodeHeader) : Parse IortError IortReservedMemory :=
  if header.length < RMR_MIN_LENGTH then malformed "IORT RMR node shorter than minimum"
  else do
    let flags ← table.readU32 header.offset 16
    let descriptorCount ← table.readU32 header.offset 20
    let descriptorOffset ← table.readU32 header.offset 24
    pure { flags, descriptorCount, descriptorOffset, header }

/-- The rest of a node's parse, by the kind its header tells. -/
def parseBody (header : IortNodeHeader) : Parse IortError IortNode :=
  match header.kind with
  | .itsGroup => .itsGroup <$> table.parseItsGroup header
  | .namedComponent => .namedComponent <$> table.parseNamedComponent header
  | .rootComplex => .rootComplex <$> table.parseRootComplex header
  | .smmu => .smmu <$> table.parseSmmu header
  | .smmuV3 => .smmuV3 <$> table.parseSmmuV3 header
  | .pmcg => .pmcg <$> table.parsePmcg header
  | .reservedMemory => .reservedMemory <$> table.parseReservedMemory header
  | .unknown kind => pure (.unknown { kind, header })

def parseNode (offset : Nat) : Parse IortError IortNode := do
  let header ← table.parseNodeHeader offset
  table.parseBody header

def nodeCount : Parse IortError UInt32 := table.readU32 IORT_NODE_COUNT_OFFSET 0

def nodeOffset : Parse IortError UInt32 := table.readU32 IORT_NODE_OFFSET_OFFSET 0

/-- The iterator over the nodes; the conversion of a 32-bit offset to the machine word is exact. -/
def nodes : Parse IortError ArrayCursor := do
  let offset ← table.nodeOffset
  if offset.toNat < IORT_TABLE_MIN_LENGTH ∨ table.sdt.length < offset.toNat then
    malformed "IORT node array offset is invalid"
  else do
    let remaining ← table.nodeCount
    pure { offset := offset.toNat, remaining }

def giveUp (stop : Stop IortError) : Effect ArrayCursor (Stop IortError) (Option IortNode) := do
  .modify fun cursor => { cursor with remaining := 0 }
  .fail stop

/-- `next` of the iterator over the nodes. -/
def nextNode : Effect ArrayCursor (Stop IortError) (Option IortNode) := do
  let cursor ← .get id
  if cursor.remaining = 0 then pure none
  else if table.sdt.length ≤ cursor.offset then
    giveUp (.failed (.malformed "IORT node count exceeds table contents"))
  else
    match table.readU16 cursor.offset 1 with
    | .error stop => giveUp stop
    | .ok length =>
        if length.toNat < IORT_NODE_HEADER_LENGTH then
          giveUp (.failed (.malformed "IORT node length smaller than header"))
        else
          match checkedOffset cursor.offset length.toNat with
          | .error _ => giveUp (.failed (.malformed "IORT node offset overflows"))
          | .ok stop =>
              if table.sdt.length < stop then
                giveUp (.failed (.malformed "IORT node extends past table length"))
              else do
                let after ← .ofExcept (Parse.sum cursor.offset length.toNat)
                .modify fun _ => ⟨after, cursor.remaining - 1⟩
                let node ← .ofExcept (table.parseNode cursor.offset)
                pure (some node)

def nodeItems (cursor : ArrayCursor) : Parse IortError (List (Except IortError IortNode)) :=
  drain table.nextNode (cursor.remaining.toNat + 1) cursor

end IortTable

end Iommu
