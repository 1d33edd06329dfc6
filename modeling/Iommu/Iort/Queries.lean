import Iommu.Iort.Totality

/-!
What is asked of an IORT table: the node at a reference, the root complex of a segment and
its requesters, and where an ID comes out when the mappings of the nodes translate it.
-/

namespace Iommu

open MachineWord FirmwareTable

def IORT_REQUESTER_WINDOW_CAPACITY : Nat := 16

abbrev IortBdfRangeSet := BdfRangeSet IORT_REQUESTER_WINDOW_CAPACITY

inductive IortRequesterMatch
  | covered
  | notCovered
  | unresolved
  deriving DecidableEq, Repr

structure IortIdTranslation where
  node : IortNode
  id : UInt32
  deriving DecidableEq

structure IortSingleStepTranslation where
  id : UInt32
  outputReference : UInt32
  deriving DecidableEq, Repr

def IortNodeKind.singleMappingAllowed : IortNodeKind → Bool
  | .namedComponent => true
  | .rootComplex => true
  | .smmuV3 => true
  | .pmcg => true
  | _ => false

namespace IortIdMapping

def isSingleMapping (mapping : IortIdMapping) : Bool := mapping.flags &&& 1 ≠ 0

def inputBdfRange (mapping : IortIdMapping) : Parse IortError (Option BdfRange) :=
  if mapping.isSingleMapping then .ok (BdfRange.inclusive ⟨0⟩ ⟨0xffff⟩).toOption
  else
    match checkedAdd32 mapping.inputBase mapping.idCount with
    | none => .ok none
    | some last =>
        if 0xffff < mapping.inputBase ∨ 0xffff < last then .ok none
        else
          match BdfRange.inclusive ⟨mapping.inputBase.toUInt16⟩ ⟨last.toUInt16⟩ with
          | .ok range => .ok (some range)
          | .error _ => malformed "IORT requester ID range is reversed"

def translateForNodeKind (mapping : IortIdMapping) (kind : IortNodeKind) (inputId : UInt32) :
    Option UInt32 :=
  if mapping.isSingleMapping then
    if kind.singleMappingAllowed then some mapping.outputBase else none
  else do
    let last ← checkedAdd32 mapping.inputBase mapping.idCount
    if inputId < mapping.inputBase ∨ last < inputId then none
    else checkedAdd32 mapping.outputBase (← checkedSub32 inputId mapping.inputBase)

end IortIdMapping

def collectRange (range : BdfRange) (ranges : IortBdfRangeSet) : Parse IortError IortBdfRangeSet :=
  match BdfRangeSet.insert range ranges with
  | (.ok (), after) => .ok after
  | (.error error, _) => .fail (.bdfRanges error)

structure RequesterFlags where
  covered : Bool
  unresolved : Bool
  deriving DecidableEq, Repr

def RequesterFlags.result (flags : RequesterFlags) : IortRequesterMatch :=
  if flags.covered then .covered
  else if flags.unresolved then .unresolved
  else .notCovered

structure RmrQuery where
  ranges : IortBdfRangeSet
  foundMemory : Bool
  unresolved : Bool

namespace IortTable

variable (table : IortTable) {Found : Type}

def forNodes (body : IortNode → Found → Parse IortError (ForInStep Found)) (found : Found) :
    Parse IortError Found := do
  let cursor ← table.nodes
  forItems table.nextNode body (cursor.remaining.toNat + 1) cursor found

def forIdMappings (accessor : Parse IortError ArrayCursor)
    (body : IortIdMapping → Found → Parse IortError (ForInStep Found)) (found : Found) :
    Parse IortError Found := do
  let cursor ← accessor
  forItems (ArrayCursor.next IORT_ID_MAPPING_LENGTH table.readIdMapping) body
    (cursor.remaining.toNat + 1) cursor found

def forRmrDescriptors (memory : IortReservedMemory)
    (body : IortRmrDescriptor → Found → Parse IortError (ForInStep Found)) (found : Found) :
    Parse IortError Found := do
  let cursor ← rmrDescriptors memory
  forItems (ArrayCursor.next RMR_DESCRIPTOR_LENGTH table.readRmrDescriptor) body
    (cursor.remaining.toNat + 1) cursor found

def forEachNode (visit : IortNode → Found → Parse IortError Found) (found : Found) :
    Parse IortError Found :=
  table.forNodes (fun node found => .yield <$> visit node found) found

def forEachRootComplex (visit : IortRootComplex → Found → Parse IortError Found) (found : Found) :
    Parse IortError Found :=
  table.forEachNode (fun node found =>
    match node with
    | .rootComplex root => visit root found
    | _ => pure found) found

def forEachReservedMemory (visit : IortReservedMemory → Found → Parse IortError Found) (found : Found) :
    Parse IortError Found :=
  table.forEachNode (fun node found =>
    match node with
    | .reservedMemory memory => visit memory found
    | _ => pure found) found

/-- The conversion of a 32-bit reference to the machine word is exact. -/
def nodeByReference (reference : UInt32) : Parse IortError (Option IortNode) := do
  let first ← table.nodeOffset
  if reference.toNat < first.toNat ∨ table.sdt.length ≤ reference.toNat then pure none
  else
    table.forNodes (fun node found => pure
      (if node.header.offset = reference.toNat then .done (some node) else .yield found)) none

def rootComplexForSegment (segment : UInt16) : Parse IortError (Option IortRootComplex) :=
  table.forEachRootComplex (fun root found => pure
    (if root.pciSegmentNumber = segment.toUInt32 then some root else found)) none

def collectMapping (mapping : IortIdMapping) (ranges : IortBdfRangeSet) :
    Parse IortError (ForInStep IortBdfRangeSet) := do
  match ← mapping.inputBdfRange with
  | some range => .yield <$> collectRange range ranges
  | none => pure (.yield ranges)

def rootComplexBdfRanges (segment : UInt16) : Parse IortError (Option IortBdfRangeSet) := do
  match ← table.rootComplexForSegment segment with
  | none => pure none
  | some root => do
      let ranges ← table.forIdMappings (idMappingsFor root.header) collectMapping .empty
      if ranges.count = 0 then pure none else pure (some ranges)

def matchMapping (bdf : Bdf) (mapping : IortIdMapping) (flags : RequesterFlags) :
    Parse IortError (ForInStep RequesterFlags) := do
  match ← mapping.inputBdfRange with
  | some range =>
      if range.contains bdf then pure (.yield { flags with covered := true })
      else pure (.yield flags)
  | none => pure (.yield { flags with unresolved := true })

def rootComplexRequesterMatch (requester : PciDevice) :
    Parse IortError (Option IortRequesterMatch) := do
  match ← table.rootComplexForSegment requester.segment with
  | none => pure none
  | some root => do
      let flags ← table.forIdMappings (idMappingsFor root.header) (matchMapping requester.bdf)
        ⟨false, false⟩
      pure (some flags.result)

/-- One mapping of a step: what it gives ends the loop, unless the ID is at the end of its range. -/
def stepMapping (kind : IortNodeKind) (inputId : UInt32) (mapping : IortIdMapping)
    (fallback : Option IortSingleStepTranslation) : ForInStep (Option IortSingleStepTranslation) :=
  match mapping.translateForNodeKind kind inputId with
  | none => .yield fallback
  | some outputId =>
      let translation : IortSingleStepTranslation := ⟨outputId, mapping.outputReference⟩
      if 0 < mapping.idCount ∧ inputId = saturatingAdd32 mapping.inputBase mapping.idCount then
        .yield (some translation)
      else .done (some translation)

def translateOnce (node : IortNode) (inputId : UInt32) :
    Parse IortError (Option IortSingleStepTranslation) :=
  table.forIdMappings (idMappings node)
    (fun mapping fallback => pure (stepMapping node.header.kind inputId mapping fallback)) none

def mapIdLoop (target : IortNodeKind) : Nat → IortNode → UInt32 →
    Parse IortError (Option IortIdTranslation)
  | 0, _, _ => malformed "IORT ID mapping graph contains a cycle"
  | remaining + 1, current, id =>
      if current.header.kind = target then pure (some ⟨current, id⟩)
      else do
        match ← table.translateOnce current id with
        | none => pure none
        | some translation => do
            match ← table.nodeByReference translation.outputReference with
            | none => pure none
            | some next => mapIdLoop target remaining next translation.id

def mapIdToKind (node : IortNode) (inputId : UInt32) (target : IortNodeKind) :
    Parse IortError (Option IortIdTranslation) := do
  let remaining ← table.nodeCount
  table.mapIdLoop target remaining.toNat node inputId

def mapPciRequesterToKind (requester : PciDevice) (target : IortNodeKind) :
    Parse IortError (Option IortIdTranslation) := do
  match ← table.rootComplexForSegment requester.segment with
  | none => pure none
  | some root => table.mapIdToKind (.rootComplex root) requester.bdf.raw.toUInt32 target

def iommuForPciRequester (requester : PciDevice) : Parse IortError (Option IortIdTranslation) := do
  match ← table.mapPciRequesterToKind requester .smmuV3 with
  | some translation => pure (some translation)
  | none => table.mapPciRequesterToKind requester .smmu

def rmrMatches (memory : AddrRange) (rmr : IortReservedMemory) : Parse IortError Bool :=
  table.forRmrDescriptors rmr (fun descriptor found => pure
    (.yield (if descriptor.memory = memory then true else found))) false

def collectRmrMapping (mapping : IortIdMapping) (query : RmrQuery) :
    Parse IortError (ForInStep RmrQuery) := do
  match ← mapping.inputBdfRange with
  | some range => do
      let ranges ← collectRange range query.ranges
      pure (.yield { query with ranges })
  | none => pure (.yield { query with unresolved := true })

def rmrBdfRanges (memory : AddrRange) : Parse IortError (Option IortBdfRangeSet) := do
  let query ← table.forEachReservedMemory (fun rmr query => do
    if ← table.rmrMatches memory rmr then
      table.forIdMappings (idMappingsFor rmr.header) collectRmrMapping
        { query with foundMemory := true }
    else pure query) ⟨.empty, false, false⟩
  if !query.foundMemory ∨ query.unresolved ∨ query.ranges.count = 0 then pure none
  else pure (some query.ranges)

end IortTable

end Iommu
