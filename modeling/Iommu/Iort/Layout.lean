import Iommu.Firmware.LaidOut
import Iommu.Iort.Contents

/-!
The layout of an IORT table as it is specified, and what a parse of a table laid out so is to report:
every node in turn, and the arrays that a node carries wherever it declares them behind its fields.
-/

namespace Iommu

open MachineWord

def IortMemoryAccess.bytes (access : IortMemoryAccess) : List UInt8 :=
  Memory.toBytesLE 4 access.cacheCoherency.toNat ++ [access.hints, 0, 0, access.memoryFlags]

def IortIdMapping.bytes (mapping : IortIdMapping) : List UInt8 :=
  Memory.toBytesLE 4 mapping.inputBase.toNat ++ Memory.toBytesLE 4 mapping.idCount.toNat ++
    Memory.toBytesLE 4 mapping.outputBase.toNat ++ Memory.toBytesLE 4 mapping.outputReference.toNat ++
    Memory.toBytesLE 4 mapping.flags.toNat

def IortItsIdentifier.bytes (identifier : IortItsIdentifier) : List UInt8 :=
  Memory.toBytesLE 4 identifier.identifier.toNat

def IortSmmuInterrupt.bytes (interrupt : IortSmmuInterrupt) : List UInt8 :=
  Memory.toBytesLE 4 interrupt.gsiv.toNat ++ Memory.toBytesLE 4 interrupt.flags.toNat

def IortSmmuGlobalInterrupt.bytes (interrupt : IortSmmuGlobalInterrupt) : List UInt8 :=
  Memory.toBytesLE 4 interrupt.nsgIrpt.toNat ++ Memory.toBytesLE 4 interrupt.nsgIrptFlags.toNat ++
    Memory.toBytesLE 4 interrupt.nsgCfgIrpt.toNat ++ Memory.toBytesLE 4 interrupt.nsgCfgIrptFlags.toNat

structure ArmWindow where
  start : UInt64
  size : UInt64
  filled : size.toNat ≠ 0
  mapped : start.toNat + size.toNat < limit

namespace ArmWindow

def bytes (window : ArmWindow) : List UInt8 :=
  Memory.toBytesLE 8 window.start.toNat ++ Memory.toBytesLE 8 window.size.toNat

def range (window : ArmWindow) : AddrRange :=
  .fromStartSize window.start.toNat window.size.toNat window.mapped

end ArmWindow

structure ArmDescriptor where
  memory : ArmWindow
  reserved : UInt32

namespace ArmDescriptor

def bytes (descriptor : ArmDescriptor) : List UInt8 :=
  descriptor.memory.bytes ++ Memory.toBytesLE 4 descriptor.reserved.toNat

def reported (descriptor : ArmDescriptor) : IortRmrDescriptor :=
  ⟨descriptor.memory.range, descriptor.reserved⟩

end ArmDescriptor

/-- An array of a node, and the displacement in the node that is declared for it. -/
structure ArmArray (Item : Type) where
  offset : UInt32
  items : List Item

namespace ArmArray

variable {Item : Type}

/-- The array stands where it is declared in the bytes of a node, behind as many of them. -/
structure Stands (array : ArmArray Item) (itemBytes : Item → List UInt8) (node : List UInt8)
    (fields : Nat) : Prop where
  low : fields ≤ array.offset.toNat
  held : HoldsAt node array.offset.toNat (array.items.flatMap itemBytes)

theorem stands_iff {array : ArmArray Item} {itemBytes : Item → List UInt8} {node : List UInt8}
    {fields : Nat} :
    array.Stands itemBytes node fields ↔ fields ≤ array.offset.toNat ∧
      HoldsAt node array.offset.toNat (array.items.flatMap itemBytes) :=
  ⟨fun ⟨low, held⟩ => ⟨low, held⟩, fun ⟨low, held⟩ => ⟨low, held⟩⟩

instance (array : ArmArray Item) (itemBytes : Item → List UInt8) (node : List UInt8) (fields : Nat) :
    Decidable (array.Stands itemBytes node fields) :=
  decidable_of_iff _ stands_iff.symm

def StandsIfAny (array : ArmArray Item) (itemBytes : Item → List UInt8) (node : List UInt8)
    (fields : Nat) : Prop :=
  array.items ≠ [] → array.Stands itemBytes node fields

instance (array : ArmArray Item) (itemBytes : Item → List UInt8) (node : List UInt8) (fields : Nat) :
    Decidable (array.StandsIfAny itemBytes node fields) :=
  inferInstanceAs (Decidable (array.items ≠ [] → array.Stands itemBytes node fields))

end ArmArray

/-- A node as it is meant; the kinds up to 6 are the ones with a meaning. -/
inductive ArmBody
  | itsGroup (identifiers : List IortItsIdentifier)
  | namedComponent (flags : UInt32) (access : IortMemoryAccess) (limit : UInt8) (name : List UInt8)
  | rootComplex (access : IortMemoryAccess) (ats segment : UInt32) (limit : UInt8) (pasid : UInt16)
  | smmu (registers : ArmWindow) (model flags commonOffset : UInt32)
      (common : Option IortSmmuGlobalInterrupt) (context pmu : ArmArray IortSmmuInterrupt)
  | smmuV3 (base : UInt64) (flags : UInt32) (vatos : UInt64)
      (model event pri gerr sync pxm mapping : UInt32)
  | pmcg (page0 : UInt64) (gsiv reference : UInt32) (page1 : UInt64)
  | reservedMemory (flags : UInt32) (descriptors : ArmArray ArmDescriptor)
  | other (kind : { kind : UInt8 // 6 < kind.toNat })

namespace ArmBody

def kind : ArmBody → UInt8
  | itsGroup .. => IORT_NODE_ITS_GROUP
  | namedComponent .. => IORT_NODE_NAMED_COMPONENT
  | rootComplex .. => IORT_NODE_ROOT_COMPLEX
  | smmu .. => IORT_NODE_SMMU
  | smmuV3 .. => IORT_NODE_SMMU_V3
  | pmcg .. => IORT_NODE_PMCG
  | reservedMemory .. => IORT_NODE_RMR
  | other kind => kind.1

def fixed : ArmBody → List UInt8
  | itsGroup identifiers => Memory.toBytesLE 4 identifiers.length
  | namedComponent flags access limit _ =>
      List.flatten [Memory.toBytesLE 4 flags.toNat, access.bytes, [limit]]
  | rootComplex access ats segment limit pasid => List.flatten [
      access.bytes, Memory.toBytesLE 4 ats.toNat, Memory.toBytesLE 4 segment.toNat, [limit],
      Memory.toBytesLE 2 pasid.toNat]
  | smmu registers model flags commonOffset _ context pmu => List.flatten [
      registers.bytes, Memory.toBytesLE 4 model.toNat, Memory.toBytesLE 4 flags.toNat,
      Memory.toBytesLE 4 commonOffset.toNat, Memory.toBytesLE 4 context.items.length,
      Memory.toBytesLE 4 context.offset.toNat, Memory.toBytesLE 4 pmu.items.length,
      Memory.toBytesLE 4 pmu.offset.toNat]
  | smmuV3 base flags vatos model event pri gerr sync pxm mapping => List.flatten [
      Memory.toBytesLE 8 base.toNat, Memory.toBytesLE 4 flags.toNat, [0, 0, 0, 0],
      Memory.toBytesLE 8 vatos.toNat, Memory.toBytesLE 4 model.toNat,
      Memory.toBytesLE 4 event.toNat, Memory.toBytesLE 4 pri.toNat, Memory.toBytesLE 4 gerr.toNat,
      Memory.toBytesLE 4 sync.toNat, Memory.toBytesLE 4 pxm.toNat, Memory.toBytesLE 4 mapping.toNat]
  | pmcg page0 gsiv reference page1 => List.flatten [
      Memory.toBytesLE 8 page0.toNat, Memory.toBytesLE 4 gsiv.toNat,
      Memory.toBytesLE 4 reference.toNat, Memory.toBytesLE 8 page1.toNat]
  | reservedMemory flags descriptors => List.flatten [
      Memory.toBytesLE 4 flags.toNat, Memory.toBytesLE 4 descriptors.items.length,
      Memory.toBytesLE 4 descriptors.offset.toNat]
  | other _ => []

/-- What a body carries stands in the bytes of its node, whose name, if it is to have one, ends at a
displacement. The common interrupts of an SMMU are absent when their displacement is zero. -/
def Carried (node : List UInt8) (nameEnd : Nat) : ArmBody → Prop
  | itsGroup identifiers =>
      HoldsAt node ITS_GROUP_MIN_LENGTH (identifiers.flatMap IortItsIdentifier.bytes)
  | namedComponent _ _ _ name =>
      HoldsAt node NAMED_COMPONENT_MIN_LENGTH name ∧ nameEnd = NAMED_COMPONENT_MIN_LENGTH + name.length
  | smmu _ _ _ commonOffset common context pmu =>
      (match common with
        | none => commonOffset = 0
        | some interrupt => SMMU_MIN_LENGTH ≤ commonOffset.toNat ∧
            HoldsAt node commonOffset.toNat interrupt.bytes) ∧
      context.StandsIfAny IortSmmuInterrupt.bytes node SMMU_MIN_LENGTH ∧
        pmu.StandsIfAny IortSmmuInterrupt.bytes node SMMU_MIN_LENGTH
  | reservedMemory _ descriptors => descriptors.Stands ArmDescriptor.bytes node RMR_MIN_LENGTH
  | rootComplex .. | smmuV3 .. | pmcg .. | other .. => True

instance (node : List UInt8) (nameEnd : Nat) : ∀ body : ArmBody, Decidable (body.Carried node nameEnd)
  | itsGroup _ => inferInstanceAs (Decidable (HoldsAt _ _ _))
  | namedComponent .. => inferInstanceAs (Decidable (_ ∧ _))
  | smmu _ _ _ _ none _ _ => inferInstanceAs (Decidable (_ = _ ∧ _ ∧ _))
  | smmu _ _ _ _ (some _) _ _ => inferInstanceAs (Decidable ((_ ∧ _) ∧ _ ∧ _))
  | reservedMemory .. => inferInstanceAs (Decidable (ArmArray.Stands ..))
  | rootComplex .. | smmuV3 .. | pmcg .. | other .. => isTrue trivial

end ArmBody

structure ArmNode where
  revision : UInt8
  identifier : UInt32
  body : ArmBody
  mappings : ArmArray IortIdMapping
  rest : List UInt8

namespace ArmNode

def fields (node : ArmNode) : Nat := IORT_NODE_HEADER_LENGTH + node.body.fixed.length

def length (node : ArmNode) : Nat := node.fields + node.rest.length

def head (node : ArmNode) : List UInt8 := List.flatten [
  [node.body.kind], Memory.toBytesLE 2 node.length, [node.revision],
  Memory.toBytesLE 4 node.identifier.toNat, Memory.toBytesLE 4 node.mappings.items.length,
  Memory.toBytesLE 4 node.mappings.offset.toNat]

def bytes (node : ArmNode) : List UInt8 := List.flatten [node.head, node.body.fixed, node.rest]

/-- A name takes all bytes before the ID mappings, or before the end of a node without any. -/
def nameEnd (node : ArmNode) : Nat :=
  if node.mappings.items = [] then node.length else node.mappings.offset.toNat

structure LaidOut (node : ArmNode) : Prop where
  short : node.length < 2 ^ 16
  mappings : node.mappings.StandsIfAny IortIdMapping.bytes node.bytes node.fields
  carried : node.body.Carried node.bytes node.nameEnd

instance (node : ArmNode) : Decidable node.LaidOut :=
  decidable_of_iff (node.length < 2 ^ 16 ∧
      node.mappings.StandsIfAny IortIdMapping.bytes node.bytes node.fields ∧
      node.body.Carried node.bytes node.nameEnd)
    ⟨fun ⟨short, mappings, carried⟩ => ⟨short, mappings, carried⟩,
      fun ⟨short, mappings, carried⟩ => ⟨short, mappings, carried⟩⟩

def header (node : ArmNode) (offset : Nat) : IortNodeHeader where
  kind := .fromRaw node.body.kind
  revision := node.revision
  identifier := node.identifier
  mappingCount := .ofNat node.mappings.items.length
  mappingOffset := node.mappings.offset
  offset := offset
  length := node.length

def given (address : UInt64) : Option Nat := if address = 0 then none else some address.toNat

def reported (node : ArmNode) (offset : Nat) : IortNode :=
  let header := node.header offset
  match node.body with
  | .itsGroup identifiers => .itsGroup ⟨.ofNat identifiers.length, header⟩
  | .namedComponent flags access limit name => .namedComponent ⟨flags, access, limit, name, header⟩
  | .rootComplex access ats segment limit pasid => .rootComplex ⟨access, ats, segment, limit, pasid, header⟩
  | .smmu registers model flags commonOffset _ context pmu => .smmu {
      registers := registers.range
      model, flags
      globalInterruptOffset := commonOffset
      contextInterruptCount := .ofNat context.items.length
      contextInterruptOffset := context.offset
      pmuInterruptCount := .ofNat pmu.items.length
      pmuInterruptOffset := pmu.offset
      header
    }
  | .smmuV3 base flags vatos model event pri gerr sync pxm mapping =>
      .smmuV3 ⟨base.toNat, flags, given vatos, model, event, pri, gerr, sync, pxm, mapping, header⟩
  | .pmcg page0 gsiv reference page1 => .pmcg ⟨page0.toNat, gsiv, reference, given page1, header⟩
  | .reservedMemory flags descriptors =>
      .reservedMemory ⟨flags, .ofNat descriptors.items.length, descriptors.offset, header⟩
  | .other kind => .unknown ⟨kind.1, header⟩

def placed : Nat → List ArmNode → List (Nat × ArmNode)
  | _, [] => []
  | offset, node :: rest => (offset, node) :: placed (offset + node.length) rest

end ArmNode

/-- A table: what its header has behind the length, bytes between the fixed part and the nodes, and the
nodes. -/
structure ArmTable where
  header : List UInt8
  gap : List UInt8
  nodes : List ArmNode
  whole : header.length = 28
  laidOut : ∀ node ∈ nodes, node.LaidOut
  short : 48 + gap.length + (nodes.flatMap ArmNode.bytes).length < 2 ^ 32

namespace ArmTable

def nodeOffset (image : ArmTable) : Nat := 48 + image.gap.length

def bytes (image : ArmTable) : List UInt8 :=
  IORT.signature ++ Memory.toBytesLE 4 (image.nodeOffset + (image.nodes.flatMap ArmNode.bytes).length) ++
    (image.header ++ (Memory.toBytesLE 4 image.nodes.length ++ (Memory.toBytesLE 4 image.nodeOffset ++
      ([0, 0, 0, 0] ++ image.gap ++ image.nodes.flatMap ArmNode.bytes))))

end ArmTable

namespace IortTable

def Carries (table : IortTable) (node : IortNode) : ArmBody → Prop
  | .itsGroup identifiers => ∃ group, node = .itsGroup group ∧
      table.itsIdentifierItems group = .ok (identifiers.map .ok)
  | .smmu _ _ _ _ common context pmu => ∃ smmu, node = .smmu smmu ∧
      table.smmuGlobalInterrupt smmu = .ok common ∧
      table.smmuContextInterruptItems smmu = .ok (context.items.map .ok) ∧
      table.smmuPmuInterruptItems smmu = .ok (pmu.items.map .ok)
  | .reservedMemory _ descriptors => ∃ memory, node = .reservedMemory memory ∧
      table.rmrDescriptorItems memory = .ok ((descriptors.items.map ArmDescriptor.reported).map .ok)
  | _ => True

/-- The nodes of the table parse to what they are meant to be, one for one, and so do the arrays of
each. -/
structure RoundTrips (table : IortTable) (first : Nat) (meant : List ArmNode) : Prop where
  nodes : table.Holds ((ArmNode.placed first meant).map fun placed => placed.2.reported placed.1)
  mappings : ∀ placed ∈ ArmNode.placed first meant,
    table.Maps (placed.2.header placed.1) placed.2.mappings.items
  arrays : ∀ placed ∈ ArmNode.placed first meant,
    table.Carries (placed.2.reported placed.1) placed.2.body

end IortTable

end Iommu
