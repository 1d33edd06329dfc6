import Iommu.Iort.Nodes

/-!
The arrays that a node declares by an offset and a count of 32 bits each. An accessor
checks that the array lies in the node before anything in it is read.
-/

namespace Iommu

open MachineWord FirmwareTable

def IORT_ID_MAPPING_LENGTH : Nat := 20
def RMR_DESCRIPTOR_LENGTH : Nat := 20

structure IortIdMapping where
  inputBase : UInt32
  idCount : UInt32
  outputBase : UInt32
  outputReference : UInt32
  flags : UInt32
  deriving DecidableEq

structure IortItsIdentifier where
  identifier : UInt32
  deriving DecidableEq

structure IortSmmuInterrupt where
  gsiv : UInt32
  flags : UInt32
  deriving DecidableEq

structure IortSmmuGlobalInterrupt where
  nsgIrpt : UInt32
  nsgIrptFlags : UInt32
  nsgCfgIrpt : UInt32
  nsgCfgIrptFlags : UInt32
  deriving DecidableEq

structure IortRmrDescriptor where
  memory : AddrRange
  reserved : UInt32
  deriving DecidableEq

namespace IortTable

variable (table : IortTable)

/-- The length of an array in bytes; the conversion of the count to the machine word is exact. -/
def arrayBytes (count : UInt32) (size : Nat) (overflow : String) : Parse IortError Nat :=
  match checkedMul count.toNat size with
  | none => malformed overflow
  | some bytes => .ok bytes

def arrayAt (header : IortNodeHeader) (offset count : UInt32) (size least : Nat)
    (overflow outside : String) : Parse IortError ArrayCursor := do
  let start ← checkedOffset header.offset offset.toNat
  let bytes ← arrayBytes count size overflow
  let stop ← checkedOffset start bytes
  let nodeStop ← .sum header.offset header.length
  if offset.toNat < least ∨ nodeStop < stop then malformed outside
  else pure { offset := start, remaining := count }

def emptyArray (header : IortNodeHeader) : Parse IortError ArrayCursor := do
  let stop ← .sum header.offset header.length
  pure { offset := stop, remaining := 0 }

def idMappingsForHeader (header : IortNodeHeader) : Parse IortError ArrayCursor :=
  if header.mappingCount = 0 then emptyArray header
  else
    arrayAt header header.mappingOffset header.mappingCount IORT_ID_MAPPING_LENGTH
      IORT_NODE_HEADER_LENGTH "IORT ID mapping array length overflows"
      "IORT ID mapping array extends past node"

def idMappings (node : IortNode) : Parse IortError ArrayCursor := idMappingsForHeader node.header

def idMappingsFor (header : IortNodeHeader) : Parse IortError ArrayCursor := idMappingsForHeader header

def itsIdentifiers (group : IortItsGroup) : Parse IortError ArrayCursor := do
  let start ← .sum group.header.offset ITS_GROUP_MIN_LENGTH
  let bytes ← arrayBytes group.itsCount 4 "IORT ITS identifier array length overflows"
  let stop ← checkedOffset start bytes
  let nodeStop ← .sum group.header.offset group.header.length
  if nodeStop < stop then malformed "IORT ITS identifier array extends past node"
  else pure { offset := start, remaining := group.itsCount }

def rmrDescriptors (memory : IortReservedMemory) : Parse IortError ArrayCursor :=
  arrayAt memory.header memory.descriptorOffset memory.descriptorCount RMR_DESCRIPTOR_LENGTH
    RMR_MIN_LENGTH "IORT RMR descriptor array length overflows"
    "IORT RMR descriptor array extends past node"

/-- The end of the array is not computed when its offset is too small. -/
def smmuInterrupts (header : IortNodeHeader) (offset count : UInt32) : Parse IortError ArrayCursor :=
  if count = 0 then emptyArray header
  else do
    let start ← checkedOffset header.offset offset.toNat
    let bytes ← arrayBytes count 8 "IORT SMMU interrupt array length overflows"
    if offset.toNat < SMMU_MIN_LENGTH then malformed "IORT SMMU interrupt array extends past node"
    else do
      let stop ← checkedOffset start bytes
      let nodeStop ← .sum header.offset header.length
      if nodeStop < stop then malformed "IORT SMMU interrupt array extends past node"
      else pure { offset := start, remaining := count }

def smmuContextInterrupts (smmu : IortSmmu) : Parse IortError ArrayCursor :=
  smmuInterrupts smmu.header smmu.contextInterruptOffset smmu.contextInterruptCount

def smmuPmuInterrupts (smmu : IortSmmu) : Parse IortError ArrayCursor :=
  smmuInterrupts smmu.header smmu.pmuInterruptOffset smmu.pmuInterruptCount

def smmuGlobalInterrupt (smmu : IortSmmu) : Parse IortError (Option IortSmmuGlobalInterrupt) :=
  if smmu.globalInterruptOffset = 0 then pure none
  else do
    let offset ← checkedOffset smmu.header.offset smmu.globalInterruptOffset.toNat
    let stop ← checkedOffset offset 16
    let nodeStop ← .sum smmu.header.offset smmu.header.length
    if nodeStop < stop then malformed "IORT SMMU global interrupt extends past node"
    else do
      let nsgIrpt ← table.readU32 offset 0
      let nsgIrptFlags ← table.readU32 offset 4
      let nsgCfgIrpt ← table.readU32 offset 8
      let nsgCfgIrptFlags ← table.readU32 offset 12
      pure (some { nsgIrpt, nsgIrptFlags, nsgCfgIrpt, nsgCfgIrptFlags })

def readIdMapping (offset : Nat) : Parse IortError IortIdMapping := do
  let inputBase ← table.readU32 offset 0
  let idCount ← table.readU32 offset 4
  let outputBase ← table.readU32 offset 8
  let outputReference ← table.readU32 offset 12
  let flags ← table.readU32 offset 16
  pure { inputBase, idCount, outputBase, outputReference, flags }

def readItsIdentifier (offset : Nat) : Parse IortError IortItsIdentifier := do
  let identifier ← table.readU32 offset 0
  pure { identifier }

def readRmrDescriptor (offset : Nat) : Parse IortError IortRmrDescriptor := do
  let base ← table.readU64 offset 0
  let length ← table.readU64 offset 8
  let memory ← physRangeFromStartSize base length
  let reserved ← table.readU32 offset 16
  pure { memory, reserved }

def readSmmuInterrupt (offset : Nat) : Parse IortError IortSmmuInterrupt := do
  let gsiv ← table.readU32 offset 0
  let flags ← table.readU32 offset 4
  pure { gsiv, flags }

def arrayItems {Item : Type} (accessor : Parse IortError ArrayCursor) (size : Nat)
    (read : Nat → Parse IortError Item) : Parse IortError (List (Except IortError Item)) := do
  let cursor ← accessor
  cursor.items size read

end IortTable

end Iommu
