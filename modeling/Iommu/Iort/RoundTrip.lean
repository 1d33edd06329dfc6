import Iommu.Iort.Layout

/-!
An IORT table that is laid out as specified parses to exactly what it means: every node, with its
fields, its ID mappings, and the arrays behind it.
-/

namespace Iommu

open MachineWord FirmwareTable

theorem IortIdMapping.bytes_length (mapping : IortIdMapping) :
    mapping.bytes.length = IORT_ID_MAPPING_LENGTH := rfl

theorem IortItsIdentifier.bytes_length (identifier : IortItsIdentifier) :
    identifier.bytes.length = 4 := rfl

theorem IortSmmuInterrupt.bytes_length (interrupt : IortSmmuInterrupt) :
    interrupt.bytes.length = 8 := rfl

theorem ArmDescriptor.bytes_length (descriptor : ArmDescriptor) :
    descriptor.bytes.length = RMR_DESCRIPTOR_LENGTH := rfl

namespace ArmNode

theorem head_length (node : ArmNode) : node.head.length = IORT_NODE_HEADER_LENGTH := rfl

theorem length_eq (node : ArmNode) : node.bytes.length = node.length := by
  simp only [bytes, length, fields, List.flatten_cons, List.flatten_nil, List.append_nil,
    List.length_append, head_length]
  omega

theorem fields_le (node : ArmNode) : node.fields ≤ node.length := Nat.le_add_right _ _

theorem header_le (node : ArmNode) : IORT_NODE_HEADER_LENGTH ≤ node.length :=
  Nat.le_trans (Nat.le_add_right _ _) node.fields_le

end ArmNode

namespace ArmArray

variable {Item : Type} {itemBytes : Item → List UInt8} {size fields : Nat} {node : List UInt8}
  {array : ArmArray Item}

theorem count_lt (sized : ∀ item, (itemBytes item).length = size) (wide : 0 < size) {items : List Item}
    {place : Nat} (held : HoldsAt node place (items.flatMap itemBytes)) (short : node.length < 2 ^ 16) :
    items.length < 2 ^ 32 := by
  have inside := held.inside
  rw [ArrayCursor.length_laid sized] at inside
  have fewer : items.length ≤ size * items.length := Nat.le_mul_of_pos_left _ wide
  omega

theorem StandsIfAny.count_lt (stands : array.StandsIfAny itemBytes node fields)
    (sized : ∀ item, (itemBytes item).length = size) (wide : 0 < size) (short : node.length < 2 ^ 16) :
    array.items.length < 2 ^ 32 := by
  by_cases bare : array.items = []
  · rw [bare]
    exact Nat.two_pow_pos 32
  · exact ArmArray.count_lt sized wide (stands bare).held short

end ArmArray

namespace ArmNode.LaidOut

variable {node : ArmNode} (laid : node.LaidOut)

include laid

theorem bytes_short : node.bytes.length < 2 ^ 16 := node.length_eq ▸ laid.short

theorem mappings_lt : node.mappings.items.length < 2 ^ 32 :=
  laid.mappings.count_lt IortIdMapping.bytes_length (by decide) laid.bytes_short

theorem nameEnd_eq (offset : Nat) : (node.header offset).nameEnd = node.nameEnd := by
  have count : (UInt32.ofNat node.mappings.items.length).toNat = node.mappings.items.length :=
    UInt32.toNat_ofNat_of_lt' laid.mappings_lt
  rw [IortNodeHeader.nameEnd, ArmNode.nameEnd]
  by_cases bare : node.mappings.items = []
  · rw [if_pos bare, if_pos (by rw [ArmNode.header, bare]; rfl)]
    rfl
  · rw [if_neg bare, if_neg]
    · rfl
    · intro none_declared
      have zero : node.mappings.items.length = 0 :=
        count.symm.trans (congrArg UInt32.toNat none_declared)
      exact bare (List.length_eq_zero_iff.mp zero)

end ArmNode.LaidOut

theorem nodes_le (nodes : List ArmNode) : nodes.length ≤ (nodes.flatMap ArmNode.bytes).length := by
  induction nodes with
  | nil => exact Nat.le_refl _
  | cons node rest ih =>
      have large := node.header_le
      have header : IORT_NODE_HEADER_LENGTH = 16 := rfl
      rw [List.flatMap_cons, List.length_append, List.length_cons, node.length_eq]
      omega

namespace FirmwareTable

variable {format : TableFormat} {table : FirmwareTable format} {base displacement : Nat}
  {part : List UInt8}

theorem readU32_count (holds : HoldsAt table.sdt base part) {count : Nat} (small : count < 2 ^ 32)
    (laid : window part displacement 4 = Memory.toBytesLE 4 count) :
    table.readU32 base displacement = .ok (.ofNat count) := by
  have within := within_of_window laid (Memory.toBytesLE_length _ _) (by decide)
  rw [readU32_held holds within, laid, Memory.ofBytesLE_toBytesLE_of_lt small]

end FirmwareTable

namespace IortTable

variable {table : IortTable} {offset : Nat}

section Elements

theorem readIdMapping_laidOut (mapping : IortIdMapping) (place : Nat)
    (holds : HoldsAt table.sdt place mapping.bytes) : table.readIdMapping place = .ok mapping := by
  rw [readIdMapping, readU32_laid holds (rfl : window _ 0 4 = Memory.toBytesLE 4 mapping.inputBase.toNat),
    Parse.ok_bind, readU32_laid holds (rfl : window _ 4 4 = Memory.toBytesLE 4 mapping.idCount.toNat),
    Parse.ok_bind, readU32_laid holds (rfl : window _ 8 4 = Memory.toBytesLE 4 mapping.outputBase.toNat),
    Parse.ok_bind,
    readU32_laid holds (rfl : window _ 12 4 = Memory.toBytesLE 4 mapping.outputReference.toNat),
    Parse.ok_bind, readU32_laid holds (rfl : window _ 16 4 = Memory.toBytesLE 4 mapping.flags.toNat)]
  rfl

theorem readItsIdentifier_laidOut (identifier : IortItsIdentifier) (place : Nat)
    (holds : HoldsAt table.sdt place identifier.bytes) :
    table.readItsIdentifier place = .ok identifier := by
  rw [readItsIdentifier,
    readU32_laid holds (rfl : window _ 0 4 = Memory.toBytesLE 4 identifier.identifier.toNat)]
  rfl

theorem readSmmuInterrupt_laidOut (interrupt : IortSmmuInterrupt) (place : Nat)
    (holds : HoldsAt table.sdt place interrupt.bytes) :
    table.readSmmuInterrupt place = .ok interrupt := by
  rw [readSmmuInterrupt, readU32_laid holds (rfl : window _ 0 4 = Memory.toBytesLE 4 interrupt.gsiv.toNat),
    Parse.ok_bind, readU32_laid holds (rfl : window _ 4 4 = Memory.toBytesLE 4 interrupt.flags.toNat)]
  rfl

end Elements

theorem readMemoryAccess_laid {part : List UInt8} {base displacement : Nat}
    {access : IortMemoryAccess} (holds : HoldsAt table.sdt base part)
    (laid : window part displacement 8 = access.bytes) :
    table.readMemoryAccess base displacement = .ok access := by
  have within : displacement + 8 ≤ part.length := within_of_window laid rfl (by decide)
  have inside := holds.inside
  have short := table.length_lt_limit
  have inner := holds.inner within
  rw [laid] at inner
  have coherency := readU32_laid inner
    (rfl : window access.bytes 0 4 = Memory.toBytesLE 4 access.cacheCoherency.toNat)
  have hints := readU8_laid inner (rfl : window access.bytes 4 1 = [access.hints])
  have flags := readU8_laid inner (rfl : window access.bytes 7 1 = [access.memoryFlags])
  rw [readMemoryAccess, Parse.sum_of_lt (by omega), Parse.ok_bind, coherency,
    Parse.ok_bind, hints, Parse.ok_bind, flags]
  rfl

section Nodes

variable {node : ArmNode} (laid : node.LaidOut) (holds : HoldsAt table.sdt offset node.bytes)

include laid holds

theorem node_frames : table.declared offset = node.length ∧ table.Frames offset := by
  have large := node.header_le
  have inside := holds.inside
  rw [node.length_eq] at inside
  have least : IORT_NODE_HEADER_LENGTH = 16 := rfl
  have size := holds.fieldLE_eq (show 1 + 2 ≤ node.bytes.length by rw [node.length_eq]; omega)
  have laidLength : window node.bytes 1 2 = Memory.toBytesLE 2 node.length := rfl
  have small : node.length < 256 ^ 2 := laid.short
  rw [laidLength, Memory.ofBytesLE_toBytesLE_of_lt small] at size
  have declared : table.declared offset = node.length := size
  exact ⟨declared, by omega, by omega⟩

theorem parseNodeHeader_laidOut : table.parseNodeHeader offset = .ok (node.header offset) := by
  obtain ⟨declared, large, inside⟩ := node_frames laid holds
  have short := table.length_lt_limit
  have least : IORT_NODE_HEADER_LENGTH = 16 := rfl
  have length : table.readU16 offset 1 = .ok (.ofNat (table.declared offset)) :=
    readLength_eq (by omega)
  have size : (UInt16.ofNat (table.declared offset)).toNat = node.length :=
    (declared_toNat table offset).trans declared
  have kind := readU8_laid holds (rfl : window _ 0 1 = [node.body.kind])
  have revision := readU8_laid holds (rfl : window _ 3 1 = [node.revision])
  have identifier := readU32_laid holds
    (rfl : window _ 4 4 = Memory.toBytesLE 4 node.identifier.toNat)
  have count := readU32_count holds laid.mappings_lt (rfl : window _ 8 4 = Memory.toBytesLE 4 _)
  have mappings := readU32_laid holds
    (rfl : window _ 12 4 = Memory.toBytesLE 4 node.mappings.offset.toNat)
  rw [parseNodeHeader, checkedOffset_of_lt (by omega), Parse.ok_bind, if_neg (by omega), length,
    Parse.ok_bind, size, if_neg (by omega), checkedOffset_of_lt (by omega), Parse.ok_bind,
    if_neg (by omega), kind, Parse.ok_bind, revision, Parse.ok_bind, identifier, Parse.ok_bind, count,
    Parse.ok_bind, mappings]
  rfl

end Nodes

theorem optionalAddress_eq (address : UInt64) :
    optionalAddress address = .ok (ArmNode.given address) := by
  rw [optionalAddress, ArmNode.given, mmioAddress_eq]
  split <;> rfl

theorem rangeFromStartSize_window (window : ArmWindow) (addrError sizeError emptyError rangeError : String) :
    rangeFromStartSize window.start window.size addrError sizeError emptyError rangeError =
      .ok window.range := by
  rw [rangeFromStartSize, usizeTryFrom_eq, usizeTryFrom_eq]
  dsimp only
  rw [if_neg window.filled, AddrRange.tryFromStartSize, dif_pos window.mapped]
  rfl

theorem readRmrDescriptor_laidOut (descriptor : ArmDescriptor) (place : Nat)
    (holds : HoldsAt table.sdt place descriptor.bytes) :
    table.readRmrDescriptor place = .ok descriptor.reported := by
  rw [readRmrDescriptor,
    readU64_laid holds (rfl : window _ 0 8 = Memory.toBytesLE 8 descriptor.memory.start.toNat),
    Parse.ok_bind,
    readU64_laid holds (rfl : window _ 8 8 = Memory.toBytesLE 8 descriptor.memory.size.toNat),
    Parse.ok_bind, physRangeFromStartSize, rangeFromStartSize_window, Parse.ok_bind,
    readU32_laid holds (rfl : window _ 16 4 = Memory.toBytesLE 4 descriptor.reserved.toNat)]
  rfl

section Bodies

variable {node : ArmNode} (holds : HoldsAt table.sdt (node.header offset).offset node.bytes)

include holds

theorem parseRootComplex_laidOut {access : IortMemoryAccess} {ats segment : UInt32} {limit : UInt8}
    {pasid : UInt16} (body : node.body = .rootComplex access ats segment limit pasid) :
    table.parseBody (node.header offset) = .ok (node.reported offset) := by
  obtain ⟨revision, identifier, _, mappings, rest⟩ := node
  cases body
  have enough : ¬(ArmNode.header _ offset).length < ROOT_COMPLEX_MIN_LENGTH :=
    Nat.not_lt_of_le (ArmNode.fields_le
      ⟨revision, identifier, .rootComplex access ats segment limit pasid, mappings, rest⟩)
  have properties := readMemoryAccess_laid holds (rfl : window _ 16 8 = access.bytes)
  have services := readU32_laid holds (rfl : window _ 24 4 = Memory.toBytesLE 4 ats.toNat)
  have number := readU32_laid holds (rfl : window _ 28 4 = Memory.toBytesLE 4 segment.toNat)
  have limited := readU8_laid holds (rfl : window _ 32 1 = [limit])
  have capabilities := readU16_laid holds (rfl : window _ 33 2 = Memory.toBytesLE 2 pasid.toNat)
  rw [show table.parseBody _ = .rootComplex <$> table.parseRootComplex _ from rfl, parseRootComplex,
    if_neg enough, properties, Parse.ok_bind, services, Parse.ok_bind, number, Parse.ok_bind, limited,
    Parse.ok_bind, capabilities]
  rfl

theorem parseItsGroup_laidOut (laid : node.LaidOut) {identifiers : List IortItsIdentifier}
    (body : node.body = .itsGroup identifiers) :
    table.parseBody (node.header offset) = .ok (node.reported offset) := by
  have carried := laid.carried
  rw [body] at carried
  have few := ArmArray.count_lt IortItsIdentifier.bytes_length (by decide) carried laid.bytes_short
  obtain ⟨revision, identifier, _, mappings, rest⟩ := node
  cases body
  have enough : ¬(ArmNode.header _ offset).length < ITS_GROUP_MIN_LENGTH :=
    Nat.not_lt_of_le (ArmNode.fields_le
      ⟨revision, identifier, .itsGroup identifiers, mappings, rest⟩)
  have count := readU32_count holds few (rfl : window _ 16 4 = Memory.toBytesLE 4 _)
  rw [show table.parseBody _ = .itsGroup <$> table.parseItsGroup _ from rfl, parseItsGroup,
    if_neg enough, count]
  rfl

theorem parseSmmuV3_laidOut {base vatos : UInt64}
    {flags model event pri gerr sync pxm mapping : UInt32}
    (body : node.body = .smmuV3 base flags vatos model event pri gerr sync pxm mapping) :
    table.parseBody (node.header offset) = .ok (node.reported offset) := by
  obtain ⟨revision, identifier, _, mappings, rest⟩ := node
  cases body
  have enough : ¬(ArmNode.header _ offset).length < SMMU_V3_MIN_LENGTH :=
    Nat.not_lt_of_le (ArmNode.fields_le ⟨revision, identifier,
      .smmuV3 base flags vatos model event pri gerr sync pxm mapping, mappings, rest⟩)
  have based := readU64_laid holds (rfl : window _ 16 8 = Memory.toBytesLE 8 base.toNat)
  have flagged := readU32_laid holds (rfl : window _ 24 4 = Memory.toBytesLE 4 flags.toNat)
  have translated := readU64_laid holds (rfl : window _ 32 8 = Memory.toBytesLE 8 vatos.toNat)
  have modelled := readU32_laid holds (rfl : window _ 40 4 = Memory.toBytesLE 4 model.toNat)
  have events := readU32_laid holds (rfl : window _ 44 4 = Memory.toBytesLE 4 event.toNat)
  have pages := readU32_laid holds (rfl : window _ 48 4 = Memory.toBytesLE 4 pri.toNat)
  have errors := readU32_laid holds (rfl : window _ 52 4 = Memory.toBytesLE 4 gerr.toNat)
  have syncs := readU32_laid holds (rfl : window _ 56 4 = Memory.toBytesLE 4 sync.toNat)
  have near := readU32_laid holds (rfl : window _ 60 4 = Memory.toBytesLE 4 pxm.toNat)
  have mapped := readU32_laid holds (rfl : window _ 64 4 = Memory.toBytesLE 4 mapping.toNat)
  rw [show table.parseBody _ = .smmuV3 <$> table.parseSmmuV3 _ from rfl, parseSmmuV3, if_neg enough,
    translated, Parse.ok_bind, based, Parse.ok_bind, mmioAddress_eq, Parse.ok_bind, flagged,
    Parse.ok_bind, optionalAddress_eq, Parse.ok_bind, modelled, Parse.ok_bind, events, Parse.ok_bind,
    pages, Parse.ok_bind, errors, Parse.ok_bind, syncs, Parse.ok_bind, near, Parse.ok_bind, mapped]
  rfl

theorem parsePmcg_laidOut {page0 page1 : UInt64} {gsiv reference : UInt32}
    (body : node.body = .pmcg page0 gsiv reference page1) :
    table.parseBody (node.header offset) = .ok (node.reported offset) := by
  obtain ⟨revision, identifier, _, mappings, rest⟩ := node
  cases body
  have enough : ¬(ArmNode.header _ offset).length < PMCG_MIN_LENGTH :=
    Nat.not_lt_of_le (ArmNode.fields_le
      ⟨revision, identifier, .pmcg page0 gsiv reference page1, mappings, rest⟩)
  have first := readU64_laid holds (rfl : window _ 16 8 = Memory.toBytesLE 8 page0.toNat)
  have overflow := readU32_laid holds (rfl : window _ 24 4 = Memory.toBytesLE 4 gsiv.toNat)
  have referred := readU32_laid holds (rfl : window _ 28 4 = Memory.toBytesLE 4 reference.toNat)
  have second := readU64_laid holds (rfl : window _ 32 8 = Memory.toBytesLE 8 page1.toNat)
  rw [show table.parseBody _ = .pmcg <$> table.parsePmcg _ from rfl, parsePmcg, if_neg enough, second,
    Parse.ok_bind, first, Parse.ok_bind, mmioAddress_eq, Parse.ok_bind, overflow, Parse.ok_bind,
    referred, Parse.ok_bind, optionalAddress_eq]
  rfl

theorem parseSmmu_laidOut (laid : node.LaidOut) {registers : ArmWindow}
    {model flags commonOffset : UInt32} {common : Option IortSmmuGlobalInterrupt}
    {context pmu : ArmArray IortSmmuInterrupt}
    (body : node.body = .smmu registers model flags commonOffset common context pmu) :
    table.parseBody (node.header offset) = .ok (node.reported offset) := by
  have carried := laid.carried
  rw [body] at carried
  obtain ⟨_, contextStands, pmuStands⟩ := carried
  have fewContexts := contextStands.count_lt IortSmmuInterrupt.bytes_length (by decide) laid.bytes_short
  have fewCounters := pmuStands.count_lt IortSmmuInterrupt.bytes_length (by decide) laid.bytes_short
  obtain ⟨revision, identifier, _, mappings, rest⟩ := node
  cases body
  have enough : ¬(ArmNode.header _ offset).length < SMMU_MIN_LENGTH :=
    Nat.not_lt_of_le (ArmNode.fields_le ⟨revision, identifier,
      .smmu registers model flags commonOffset common context pmu, mappings, rest⟩)
  have started := readU64_laid holds (rfl : window _ 16 8 = Memory.toBytesLE 8 registers.start.toNat)
  have sized := readU64_laid holds (rfl : window _ 24 8 = Memory.toBytesLE 8 registers.size.toNat)
  have modelled := readU32_laid holds (rfl : window _ 32 4 = Memory.toBytesLE 4 model.toNat)
  have flagged := readU32_laid holds (rfl : window _ 36 4 = Memory.toBytesLE 4 flags.toNat)
  have global := readU32_laid holds (rfl : window _ 40 4 = Memory.toBytesLE 4 commonOffset.toNat)
  have contexts := readU32_count holds fewContexts (rfl : window _ 44 4 = Memory.toBytesLE 4 _)
  have contextAt := readU32_laid holds (rfl : window _ 48 4 = Memory.toBytesLE 4 context.offset.toNat)
  have counters := readU32_count holds fewCounters (rfl : window _ 52 4 = Memory.toBytesLE 4 _)
  have countersAt := readU32_laid holds (rfl : window _ 56 4 = Memory.toBytesLE 4 pmu.offset.toNat)
  rw [show table.parseBody _ = .smmu <$> table.parseSmmu _ from rfl, parseSmmu, if_neg enough, started,
    Parse.ok_bind, sized, Parse.ok_bind, mmioRangeFromStartSize, rangeFromStartSize_window,
    Parse.ok_bind, modelled, Parse.ok_bind, flagged, Parse.ok_bind, global, Parse.ok_bind, contexts,
    Parse.ok_bind, contextAt, Parse.ok_bind, counters, Parse.ok_bind, countersAt]
  rfl

theorem parseReservedMemory_laidOut (laid : node.LaidOut) {flags : UInt32}
    {descriptors : ArmArray ArmDescriptor} (body : node.body = .reservedMemory flags descriptors) :
    table.parseBody (node.header offset) = .ok (node.reported offset) := by
  have carried := laid.carried
  rw [body] at carried
  have few := ArmArray.count_lt ArmDescriptor.bytes_length (by decide) carried.held laid.bytes_short
  obtain ⟨revision, identifier, _, mappings, rest⟩ := node
  cases body
  have enough : ¬(ArmNode.header _ offset).length < RMR_MIN_LENGTH :=
    Nat.not_lt_of_le (ArmNode.fields_le
      ⟨revision, identifier, .reservedMemory flags descriptors, mappings, rest⟩)
  have flagged := readU32_laid holds (rfl : window _ 16 4 = Memory.toBytesLE 4 flags.toNat)
  have count := readU32_count holds few (rfl : window _ 20 4 = Memory.toBytesLE 4 _)
  have placed := readU32_laid holds
    (rfl : window _ 24 4 = Memory.toBytesLE 4 descriptors.offset.toNat)
  rw [show table.parseBody _ = .reservedMemory <$> table.parseReservedMemory _ from rfl,
    parseReservedMemory, if_neg enough, flagged, Parse.ok_bind, count, Parse.ok_bind, placed]
  rfl

theorem header_fits : (node.header offset).endOffset ≤ table.sdt.length := by
  have inside := holds.inside
  rwa [node.length_eq] at inside

theorem parseNamedComponent_laidOut (laid : node.LaidOut) {flags : UInt32}
    {access : IortMemoryAccess} {limit : UInt8} {name : List UInt8}
    (body : node.body = .namedComponent flags access limit name) :
    table.parseBody (node.header offset) = .ok (node.reported offset) := by
  have inside := header_fits holds
  have stops := laid.nameEnd_eq offset
  have carried := laid.carried
  rw [body] at carried
  obtain ⟨held, ends⟩ := carried
  rw [ends] at stops
  have placed := holds.trans held
  have shorter := held.inside
  rw [node.length_eq] at shorter
  have spans : (node.header offset).length = node.length := rfl
  have short := table.length_lt_limit
  obtain ⟨revision, identifier, _, mappings, rest⟩ := node
  cases body
  generalize headed : ArmNode.header ⟨revision, identifier, .namedComponent flags access limit name,
    mappings, rest⟩ offset = header at holds inside stops placed spans
  rw [← spans] at shorter
  rw [IortNodeHeader.endOffset] at inside
  have flagged := readU32_laid holds (rfl : window _ 16 4 = Memory.toBytesLE 4 flags.toNat)
  have properties := readMemoryAccess_laid holds (rfl : window _ 20 8 = access.bytes)
  have limited := readU8_laid holds (rfl : window _ 28 1 = [limit])
  have named : (sliceOf table.sdt (header.offset + NAMED_COMPONENT_MIN_LENGTH)
      (header.offset + (NAMED_COMPONENT_MIN_LENGTH + name.length)) :
        Parse IortError (List UInt8)) = .ok name := by
    rw [sliceOf_inside (by omega) (by omega), Nat.add_sub_add_left, Nat.add_sub_cancel_left,
      placed.same]
  have dispatch : table.parseBody header = .namedComponent <$> table.parseNamedComponent header := by
    rw [← headed]
    rfl
  rw [dispatch, parseNamedComponent, if_neg (by omega), Parse.sum_of_lt (by omega), Parse.ok_bind,
    deviceNameEnd_eq inside, Parse.ok_bind, Parse.sum_of_lt (by omega), Parse.ok_bind, stops,
    if_neg (by omega), flagged, Parse.ok_bind, properties, Parse.ok_bind, limited, Parse.ok_bind, named,
    ← headed]
  rfl

end Bodies

theorem parseNode_laidOut {node : ArmNode} (laid : node.LaidOut)
    (holds : HoldsAt table.sdt offset node.bytes) :
    table.parseNode offset = .ok (node.reported offset) := by
  have placed : HoldsAt table.sdt (node.header offset).offset node.bytes := holds
  rw [parseNode, parseNodeHeader_laidOut laid holds, Parse.ok_bind]
  cases body : node.body with
  | itsGroup identifiers => exact parseItsGroup_laidOut placed laid body
  | namedComponent flags access limit name => exact parseNamedComponent_laidOut placed laid body
  | rootComplex access ats segment limit pasid => exact parseRootComplex_laidOut placed body
  | smmu registers model flags commonOffset common context pmu =>
      exact parseSmmu_laidOut placed laid body
  | smmuV3 base flags vatos model event pri gerr sync pxm mapping =>
      exact parseSmmuV3_laidOut placed body
  | pmcg page0 gsiv reference page1 => exact parsePmcg_laidOut placed body
  | reservedMemory flags descriptors => exact parseReservedMemory_laidOut placed laid body
  | other kind =>
      have unknown : ∀ known : UInt8, known.toNat ≤ 6 → kind.1 ≠ known := by
        rintro known low same
        exact absurd kind.2 (Nat.not_lt_of_le (same ▸ low))
      have named : (node.header offset).kind = .unknown kind.1 := by
        rw [ArmNode.header, body, ArmBody.kind, IortNodeKind.fromRaw,
          if_neg (unknown IORT_NODE_ITS_GROUP (by decide)),
          if_neg (unknown IORT_NODE_NAMED_COMPONENT (by decide)),
          if_neg (unknown IORT_NODE_ROOT_COMPLEX (by decide)),
          if_neg (unknown IORT_NODE_SMMU (by decide)), if_neg (unknown IORT_NODE_SMMU_V3 (by decide)),
          if_neg (unknown IORT_NODE_PMCG (by decide)), if_neg (unknown IORT_NODE_RMR (by decide))]
      rw [parseBody, named, ArmNode.reported, body]
      rfl

section Arrays

variable {header : IortNodeHeader} {Element Item : Type} {bytes : Element → List UInt8}
  {shown : Element → Item} {read : Nat → Parse IortError Item} {size least : Nat} {node : List UInt8}
  (sized : ∀ element, (bytes element).length = size)
  (reads : ∀ element place, HoldsAt table.sdt place (bytes element) → read place = .ok (shown element))
  (holds : HoldsAt table.sdt header.offset node) (spans : node.length = header.length)
  (short : node.length < 2 ^ 16) (wide : 0 < size) (small : size ≤ 2 ^ 8) {array : ArmArray Element}

include sized reads holds spans short wide small

theorem arrayItems_laid (stands : array.Stands bytes node least) (overflow outside : String) :
    arrayItems (arrayAt header array.offset (.ofNat array.items.length) size least overflow outside)
      size read = .ok ((array.items.map shown).map .ok) := by
  have fits := holds.inside
  have counted : (UInt32.ofNat array.items.length).toNat = array.items.length :=
    UInt32.toNat_ofNat_of_lt' (ArmArray.count_lt sized wide stands.held short)
  have within := stands.held.inside
  rw [ArrayCursor.length_laid sized, spans] at within
  rw [spans] at fits
  rw [arrayItems, arrayAt_eq fits _ _ small, counted, if_pos ⟨stands.low, within⟩, Parse.ok_bind]
  exact ArrayCursor.items_laid table.length_lt_limit sized reads (holds.trans stands.held) counted

theorem orEmpty_laid (stands : array.StandsIfAny bytes node least) (overflow outside : String) :
    arrayItems (if UInt32.ofNat array.items.length = 0 then emptyArray header
        else arrayAt header array.offset (.ofNat array.items.length) size least overflow outside)
      size read = .ok ((array.items.map shown).map .ok) := by
  have fits := holds.inside
  rw [spans] at fits
  by_cases bare : array.items = []
  · have none_declared : UInt32.ofNat ([] : List Element).length = 0 := rfl
    have nothing : HoldsAt table.sdt header.endOffset (([] : List Element).flatMap bytes) := ⟨fits, rfl⟩
    rw [bare, if_pos none_declared, arrayItems, emptyArray_eq fits, Parse.ok_bind]
    exact ArrayCursor.items_laid table.length_lt_limit sized reads nothing rfl
  · have counted : (UInt32.ofNat array.items.length).toNat = array.items.length :=
      UInt32.toNat_ofNat_of_lt' (ArmArray.count_lt sized wide (stands bare).held short)
    have declared : UInt32.ofNat array.items.length ≠ 0 := by
      intro none_declared
      have zero : array.items.length = 0 := counted.symm.trans (congrArg UInt32.toNat none_declared)
      exact bare (List.length_eq_zero_iff.mp zero)
    rw [if_neg declared]
    exact arrayItems_laid sized reads holds spans short wide small (stands bare) overflow outside

end Arrays

theorem smmuGlobalInterrupt_laidOut {smmu : IortSmmu} {interrupt : IortSmmuGlobalInterrupt}
    (inside : smmu.header.endOffset ≤ table.sdt.length)
    (low : SMMU_MIN_LENGTH ≤ smmu.globalInterruptOffset.toNat)
    (holds : HoldsAt table.sdt (smmu.header.offset + smmu.globalInterruptOffset.toNat) interrupt.bytes)
    (within : smmu.globalInterruptOffset.toNat + 16 ≤ smmu.header.length) :
    table.smmuGlobalInterrupt smmu = .ok (some interrupt) := by
  have short := table.length_lt_limit
  have given : smmu.globalInterruptOffset ≠ 0 := by
    intro none_declared
    rw [none_declared] at low
    exact absurd low (by decide)
  rw [IortNodeHeader.endOffset] at inside
  rw [smmuGlobalInterrupt, if_neg given, checkedOffset_of_lt (by omega), Parse.ok_bind,
    checkedOffset_of_lt (by omega), Parse.ok_bind, Parse.sum_of_lt (by omega), Parse.ok_bind,
    if_neg (by omega),
    readU32_laid holds (rfl : window _ 0 4 = Memory.toBytesLE 4 interrupt.nsgIrpt.toNat), Parse.ok_bind,
    readU32_laid holds (rfl : window _ 4 4 = Memory.toBytesLE 4 interrupt.nsgIrptFlags.toNat),
    Parse.ok_bind,
    readU32_laid holds (rfl : window _ 8 4 = Memory.toBytesLE 4 interrupt.nsgCfgIrpt.toNat),
    Parse.ok_bind,
    readU32_laid holds (rfl : window _ 12 4 = Memory.toBytesLE 4 interrupt.nsgCfgIrptFlags.toNat)]
  rfl

section Carried

variable {node : ArmNode} (laid : node.LaidOut)
  (holds : HoldsAt table.sdt (node.header offset).offset node.bytes)

include laid holds

theorem maps_laidOut : table.Maps (node.header offset) node.mappings.items := by
  have stands : node.mappings.StandsIfAny IortIdMapping.bytes node.bytes IORT_NODE_HEADER_LENGTH := by
    intro some_mapping
    obtain ⟨low, held⟩ := laid.mappings some_mapping
    exact ⟨Nat.le_trans (Nat.le_add_right _ _) low, held⟩
  have items : arrayItems (idMappingsForHeader (node.header offset)) IORT_ID_MAPPING_LENGTH
      table.readIdMapping = .ok ((node.mappings.items.map id).map .ok) :=
    orEmpty_laid IortIdMapping.bytes_length readIdMapping_laidOut holds node.length_eq laid.bytes_short
      (by decide) (by decide) stands _ _
  rw [List.map_id] at items
  exact Parse.bind_eq_ok.mp items

theorem interrupts_laidOut {array : ArmArray IortSmmuInterrupt}
    (stands : array.StandsIfAny IortSmmuInterrupt.bytes node.bytes SMMU_MIN_LENGTH) :
    arrayItems (smmuInterrupts (node.header offset) array.offset (.ofNat array.items.length)) 8
      table.readSmmuInterrupt = .ok (array.items.map .ok) := by
  have items : arrayItems _ 8 table.readSmmuInterrupt = .ok ((array.items.map id).map .ok) :=
    orEmpty_laid IortSmmuInterrupt.bytes_length readSmmuInterrupt_laidOut holds node.length_eq
      laid.bytes_short (by decide) (by decide) stands "IORT SMMU interrupt array length overflows"
      "IORT SMMU interrupt array extends past node"
  rw [List.map_id] at items
  rwa [smmuInterrupts_eq (header_fits holds)]

theorem itsIdentifiers_laidOut {identifiers : List IortItsIdentifier}
    (body : node.body = .itsGroup identifiers) :
    table.itsIdentifierItems ⟨.ofNat identifiers.length, node.header offset⟩ =
      .ok (identifiers.map .ok) := by
  have inside := header_fits holds
  have carried := laid.carried
  rw [body] at carried
  have counted : (UInt32.ofNat identifiers.length).toNat = identifiers.length :=
    UInt32.toNat_ofNat_of_lt'
      (ArmArray.count_lt IortItsIdentifier.bytes_length (by decide) carried laid.bytes_short)
  have fills := carried.inside
  rw [ArrayCursor.length_laid IortItsIdentifier.bytes_length, node.length_eq] at fills
  have spans : (node.header offset).length = node.length := rfl
  have short := table.length_lt_limit
  rw [IortNodeHeader.endOffset] at inside
  rw [itsIdentifierItems, arrayItems, itsIdentifiers]
  dsimp only
  rw [Parse.sum_of_lt (by omega), Parse.ok_bind, arrayBytes_eq _ (by decide), Parse.ok_bind, counted,
    checkedOffset_of_lt (by omega), Parse.ok_bind, Parse.sum_of_lt (by omega), Parse.ok_bind,
    if_neg (by omega)]
  have items : ArrayCursor.items ⟨(node.header offset).offset + ITS_GROUP_MIN_LENGTH,
      .ofNat identifiers.length⟩ 4 table.readItsIdentifier = .ok ((identifiers.map id).map .ok) :=
    ArrayCursor.items_laid short IortItsIdentifier.bytes_length readItsIdentifier_laidOut
      (holds.trans carried) counted
  rwa [List.map_id] at items

theorem rmrDescriptors_laidOut {flags : UInt32} {descriptors : ArmArray ArmDescriptor}
    (body : node.body = .reservedMemory flags descriptors) :
    table.rmrDescriptorItems
        ⟨flags, .ofNat descriptors.items.length, descriptors.offset, node.header offset⟩ =
      .ok ((descriptors.items.map ArmDescriptor.reported).map .ok) := by
  have carried := laid.carried
  rw [body] at carried
  exact arrayItems_laid ArmDescriptor.bytes_length readRmrDescriptor_laidOut holds node.length_eq
    laid.bytes_short (by decide) (by decide) carried _ _

theorem smmuInterrupts_laidOut {registers : ArmWindow} {model flags commonOffset : UInt32}
    {common : Option IortSmmuGlobalInterrupt} {context pmu : ArmArray IortSmmuInterrupt}
    (body : node.body = .smmu registers model flags commonOffset common context pmu) :
    ∃ smmu, node.reported offset = .smmu smmu ∧ table.smmuGlobalInterrupt smmu = .ok common ∧
      table.smmuContextInterruptItems smmu = .ok (context.items.map .ok) ∧
      table.smmuPmuInterruptItems smmu = .ok (pmu.items.map .ok) := by
  have inside := header_fits holds
  have carried := laid.carried
  rw [body] at carried
  obtain ⟨commons, contextStands, pmuStands⟩ := carried
  refine ⟨_, by rw [ArmNode.reported, body], ?_, ?_, ?_⟩
  · cases common with
    | none =>
        subst commons
        rfl
    | some interrupt =>
        obtain ⟨low, held⟩ := commons
        have within := held.inside
        rw [node.length_eq] at within
        apply smmuGlobalInterrupt_laidOut
        · exact inside
        · exact low
        · exact holds.trans held
        · exact within
  · exact interrupts_laidOut laid holds contextStands
  · exact interrupts_laidOut laid holds pmuStands

end Carried

theorem nodes_drained (meant : List ArmNode) {cursor : ArrayCursor} {rounds : Nat}
    (laid : ∀ node ∈ meant, node.LaidOut)
    (holds : HoldsAt table.sdt cursor.offset (meant.flatMap ArmNode.bytes))
    (counted : cursor.remaining.toNat = meant.length) (enough : meant.length < rounds) :
    drain table.nextNode rounds cursor = .ok (((ArmNode.placed cursor.offset meant).map fun placed =>
      placed.2.reported placed.1).map .ok) := by
  induction meant generalizing cursor rounds with
  | nil =>
      obtain ⟨fewer, rfl⟩ : ∃ fewer, rounds = fewer + 1 := ⟨rounds - 1, by omega⟩
      exact drain_done (nextNode_done (UInt32.toNat_inj.mp counted))
  | cons node rest ih =>
      obtain ⟨own, others⟩ := List.forall_mem_cons.mp laid
      rw [List.flatMap_cons] at holds
      obtain ⟨first, later⟩ := holds.split
      rw [node.length_eq] at later
      obtain ⟨fewer, rfl⟩ : ∃ fewer, rounds = fewer + 1 := ⟨rounds - 1, by omega⟩
      obtain ⟨some_left, fewer_left⟩ := ArrayCursor.remaining_pred counted
      obtain ⟨declared, frames⟩ := node_frames own first
      have ran := nextNode_frames some_left frames
      rw [parseNode_laidOut own first, declared] at ran
      exact drain_item ran (@ih ⟨cursor.offset + node.length, cursor.remaining - 1⟩ fewer others later
        fewer_left (Nat.lt_of_succ_lt_succ enough))

theorem placed_holds {meant : List ArmNode}
    (holds : HoldsAt table.sdt offset (meant.flatMap ArmNode.bytes)) {placed : Nat × ArmNode}
    (member : placed ∈ ArmNode.placed offset meant) :
    HoldsAt table.sdt placed.1 placed.2.bytes ∧ placed.2 ∈ meant := by
  induction meant generalizing offset with
  | nil => cases member
  | cons node rest ih =>
      rw [List.flatMap_cons] at holds
      obtain ⟨first, later⟩ := holds.split
      rw [node.length_eq] at later
      rcases List.mem_cons.mp member with rfl | among
      · exact ⟨first, List.mem_cons_self⟩
      · obtain ⟨held, kept⟩ := ih later among
        exact ⟨held, List.mem_cons_of_mem _ kept⟩

theorem carries_laidOut {node : ArmNode} (laid : node.LaidOut)
    (holds : HoldsAt table.sdt offset node.bytes) : table.Carries (node.reported offset) node.body := by
  have placed : HoldsAt table.sdt (node.header offset).offset node.bytes := holds
  cases body : node.body with
  | itsGroup identifiers =>
      exact ⟨_, by rw [ArmNode.reported, body], itsIdentifiers_laidOut laid placed body⟩
  | smmu registers model flags commonOffset common context pmu =>
      exact smmuInterrupts_laidOut laid placed body
  | reservedMemory flags descriptors =>
      exact ⟨_, by rw [ArmNode.reported, body], rmrDescriptors_laidOut laid placed body⟩
  | _ => trivial

theorem nodes_roundTrip {meant : List ArmNode} {cursor : ArrayCursor}
    (laid : ∀ node ∈ meant, node.LaidOut) (opened : table.nodes = .ok cursor)
    (held : HoldsAt table.sdt cursor.offset (meant.flatMap ArmNode.bytes))
    (counted : cursor.remaining.toNat = meant.length) : table.RoundTrips cursor.offset meant := by
  constructor
  · exact ⟨cursor, opened, nodes_drained meant laid held counted (by omega)⟩
  · intro placed member
    obtain ⟨holds, among⟩ := placed_holds held member
    exact maps_laidOut (laid placed.2 among) holds
  · intro placed member
    obtain ⟨holds, among⟩ := placed_holds held member
    exact carries_laidOut (laid placed.2 among) holds

theorem nodes_held {validate : SdtValidation} {image : ArmTable}
    (accepted : parse validate image.bytes = .ok table) :
    HoldsAt table.sdt image.nodeOffset (image.nodes.flatMap ArmNode.bytes) ∧
      ∃ cursor, table.nodes = .ok cursor ∧ cursor.offset = image.nodeOffset ∧
        cursor.remaining.toNat = image.nodes.length := by
  obtain ⟨header, gap, nodes, whole, _, short⟩ := image
  have signature : IORT.signature.length = 4 := rfl
  have sdt := sdt_laidOut rfl short (by
    simp only [List.length_append, Memory.toBytesLE_length, whole, signature, List.length_cons,
      List.length_nil]
    omega) accepted
  have self := HoldsAt.self table.sdt
  nth_rewrite 2 [sdt] at self
  obtain ⟨_, counted⟩ := self.split.2.split
  obtain ⟨count, placed⟩ := counted.split
  obtain ⟨start, filled⟩ := placed.split
  have laid := filled.split.2
  simp only [List.length_append, Memory.toBytesLE_length, whole, signature, List.length_cons,
    List.length_nil] at count start laid
  have inside := laid.inside
  have enough := nodes_le nodes
  have many : nodes.length < 256 ^ 4 := by omega
  have near : 48 + gap.length < 256 ^ 4 := by omega
  have counts : fieldLE table.sdt IORT_NODE_COUNT_OFFSET 4 = nodes.length := count.number many
  have starts : fieldLE table.sdt IORT_NODE_OFFSET_OFFSET 4 = 48 + gap.length := start.number near
  have offset : (UInt32.ofNat (48 + gap.length)).toNat = 48 + gap.length :=
    UInt32.toNat_ofNat_of_lt' near
  refine ⟨?_, ⟨48 + gap.length, .ofNat nodes.length⟩, ?_, rfl, UInt32.toNat_ofNat_of_lt' many⟩
  · have reached : 48 + gap.length = 0 + (4 + 4) + 28 + 4 + 4 + (0 + 1 + 1 + 1 + 1 + gap.length) := by
      omega
    rw [← reached] at laid
    exact laid
  · rw [IortTable.nodes, nodeOffset_eq, starts, Parse.ok_bind, offset, if_neg, nodeCount_eq, counts]
    · rfl
    · rw [IORT_TABLE_MIN_LENGTH]
      omega

end IortTable

/-- Whatever an IORT table is to say of ITS groups, named components, root complexes, SMMUs, counters and
reserved memory, and whatever unknown nodes it has: laid out as specified, it parses to that. -/
theorem iort_round_trip (validate : SdtValidation) (image : ArmTable) (table : IortTable)
    (accepted : IortTable.parse validate image.bytes = .ok table) :
    table.RoundTrips image.nodeOffset image.nodes := by
  obtain ⟨held, cursor, opened, placed, counted⟩ := IortTable.nodes_held accepted
  rw [← placed] at held ⊢
  exact IortTable.nodes_roundTrip image.laidOut opened held counted

def armSample : ArmTable where
  header := List.replicate 28 0
  gap := [0, 0]
  nodes := [
    ⟨0, 1, .itsGroup [⟨7⟩, ⟨8⟩], ⟨0, []⟩, [7, 0, 0, 0, 8, 0, 0, 0]⟩,
    ⟨0, 2, .reservedMemory 0x15 ⟨28, [⟨⟨0x4000, 0x1000, by decide, by decide⟩, 0⟩]⟩,
      ⟨48, [⟨0x200, 0, 0x200, 50, 0⟩]⟩,
      Memory.toBytesLE 8 0x4000 ++ Memory.toBytesLE 8 0x1000 ++ [0, 0, 0, 0] ++
        (⟨0x200, 0, 0x200, 50, 0⟩ : IortIdMapping).bytes⟩,
    ⟨3, 7, .rootComplex ⟨1, 0x0f, 0x07⟩ 7 3 48 0x14, ⟨36, [⟨0x100, 0x20, 0x200, 202, 1⟩]⟩,
      0 :: (⟨0x100, 0x20, 0x200, 202, 1⟩ : IortIdMapping).bytes⟩,
    ⟨4, 11, .smmuV3 0xfee00000 8 0 2 33 34 35 36 9 0, ⟨0, []⟩, []⟩,
    ⟨0, 3, .other ⟨9, by decide⟩, ⟨0, []⟩, [1, 2, 3]⟩]
  whole := rfl
  laidOut := by decide +kernel
  short := by decide +kernel

theorem iort_round_trip_sample : ∃ table : IortTable,
    IortTable.parse (fun _ => .ok ()) armSample.bytes = .ok table ∧
      table.RoundTrips armSample.nodeOffset armSample.nodes :=
  ⟨⟨armSample.bytes, by decide +kernel, by decide +kernel⟩, by decide +kernel,
    iort_round_trip (fun _ => .ok ()) armSample _ (by decide +kernel)⟩

end Iommu
