import Iommu.BdfRangeSet.Collected
import Iommu.Iort.MappingOrder
import Iommu.Iort.RoundTrip
import Iommu.Iort.Translation

/-!
What the queries of an IORT table answer, in terms of what its nodes mean: the requesters of a
segment's root complex, those that memory is kept for, the SMMUs, and where an ID goes on to from a
node.
-/

namespace Iommu

open MachineWord FirmwareTable

namespace IortTable

def forEachSmmuV3 {Found : Type} (table : IortTable)
    (visit : IortSmmuV3 → Found → Parse IortError Found) (found : Found) : Parse IortError Found :=
  table.forEachNode (fun node found =>
    match node with
    | .smmuV3 smmu => visit smmu found
    | _ => pure found) found

end IortTable

namespace IortIdMapping

/-- What an ID becomes at a node of the kind. A single mapping has one output for every ID, at the nodes
that may have such mappings; another moves its range. -/
def moved (kind : IortNodeKind) (id : Nat) (mapping : IortIdMapping) : Option Nat :=
  if mapping.isSingleMapping then
    if kind ∈ [.namedComponent, .rootComplex, .smmuV3, .pmcg] then some mapping.outputBase.toNat
    else none
  else if mapping.inputBase.toNat ≤ id ∧ id ≤ mapping.lastId ∧ mapping.lastId < 2 ^ 32 ∧
      mapping.outputBase.toNat + (id - mapping.inputBase.toNat) < 2 ^ 32 then
    some (mapping.outputBase.toNat + (id - mapping.inputBase.toNat))
  else none

def Closes (mapping : IortIdMapping) (id : Nat) : Prop :=
  0 < mapping.idCount.toNat ∧ id = min mapping.lastId (2 ^ 32 - 1)

instance (mapping : IortIdMapping) (id : Nat) : Decidable (mapping.Closes id) :=
  inferInstanceAs (Decidable (_ ∧ _))

end IortIdMapping

/-- The mapping that moves an ID on: the first for which the ID is not the last of several, or else the
last of all that would move it. -/
def movingMapping (kind : IortNodeKind) (id : Nat) (mappings : List IortIdMapping) :
    Option IortIdMapping :=
  let moving := mappings.filter fun mapping => (mapping.moved kind id).isSome
  (moving.find? fun mapping => ¬mapping.Closes id).or moving.getLast?

namespace ArmNode

def isRootOf (segment : UInt16) (node : ArmNode) : Bool :=
  match node.body with
  | .rootComplex _ _ number _ _ => number = segment.toUInt32
  | _ => false

/-- Of several root complexes with the number of a segment the last one counts. -/
def rootFor (segment : UInt16) (nodes : List ArmNode) : Option ArmNode :=
  (nodes.filter (isRootOf segment)).getLast?

def keeps (memory : AddrRange) (node : ArmNode) : Bool :=
  match node.body with
  | .reservedMemory _ descriptors =>
      descriptors.items.any fun descriptor => descriptor.memory.range = memory
  | _ => false

def keptBy (memory : AddrRange) (node : ArmNode) : List IortIdMapping :=
  if node.keeps memory then node.mappings.items else []

def keptFor (memory : AddrRange) (nodes : List ArmNode) : List IortIdMapping :=
  nodes.flatMap (keptBy memory)

def smmuV3At (placed : Nat × ArmNode) : Option IortSmmuV3 :=
  match placed.2.reported placed.1 with
  | .smmuV3 smmu => some smmu
  | _ => none

def kind (node : ArmNode) : IortNodeKind := .fromRaw node.body.kind

/-- Where an ID goes on to from a node of the graph that the nodes are, and as which ID. -/
def onward (first : Nat) (nodes : List ArmNode) (node : ArmNode) (id : Nat) :
    Option (Nat × ArmNode × Nat) := do
  let mapping ← movingMapping node.kind id node.mappings.items
  let output ← mapping.moved node.kind id
  let other ← (placed first nodes).find? fun other => other.1 = mapping.outputReference.toNat
  pure (other.1, other.2, output)

end ArmNode

def takenBy (mappings : List IortIdMapping) : List (Span Nat) :=
  (mappings.filter fun mapping => mapping.Resolves).map IortIdMapping.requesters

/-- The queries answer what the nodes mean. Memory that is kept for a requester that does not resolve has
no set of requesters; a root complex passes over such mappings. -/
structure IortTable.AnswersAsMeant (table : IortTable) (first : Nat) (meant : List ArmNode) : Prop where
  requesters : ∀ requester, table.rootComplexRequesterMatch requester =
    .ok ((ArmNode.rootFor requester.segment meant).map fun root =>
      reply root.mappings.items requester.bdf)
  covered : ∀ segment,
    match ArmNode.rootFor segment meant with
    | none => table.rootComplexBdfRanges segment = .ok none
    | some root => Collected (takenBy root.mappings.items) False (table.rootComplexBdfRanges segment)
  kept : ∀ memory, Collected (takenBy (ArmNode.keptFor memory meant))
    (MapsUnresolved (ArmNode.keptFor memory meant)) (table.rmrBdfRanges memory)
  smmus : table.forEachSmmuV3 (fun smmu found => pure (found ++ [smmu])) [] =
    .ok ((ArmNode.placed first meant).filterMap ArmNode.smmuV3At)
  walks : ∀ placed ∈ ArmNode.placed first meant, ∀ id,
    table.onward ⟨placed.2.reported placed.1, id⟩ =
      .ok ((ArmNode.onward first meant placed.2 id.toNat).map
        fun next => ⟨next.2.1.reported next.1, .ofNat next.2.2⟩)

namespace IortIdMapping

variable {mapping : IortIdMapping}

theorem gives_eq_moved (kind : IortNodeKind) (id : UInt32) (mapping : IortIdMapping) :
    mapping.gives kind id = (mapping.moved kind id.toNat).map
      fun output => ⟨.ofNat output, mapping.outputReference⟩ := by
  rw [gives, translateForNodeKind, moved]
  cases single : mapping.isSingleMapping with
  | true =>
      have may : kind.singleMappingAllowed = true ↔
          kind ∈ [.namedComponent, .rootComplex, .smmuV3, .pmcg] := by
        cases kind <;> simp [IortNodeKind.singleMappingAllowed]
      simp only [if_true, may]
      split
      · rw [Option.map_some, Option.map_some, UInt32.ofNat_toNat]
      · rfl
  | false =>
      rw [if_neg Bool.false_ne_true, if_neg Bool.false_ne_true, lastId]
      cases added : checkedAdd32 mapping.inputBase mapping.idCount with
      | none =>
          have overflows := checkedAdd32_eq_none.mp added
          rw [if_neg (by omega)]
          rfl
      | some last =>
          have sum := checkedAdd32_eq_some.mp added
          have bounded := last.toNat_lt
          rw [Option.bind_eq_bind, Option.bind_some]
          by_cases outside : id < mapping.inputBase ∨ last < id
          · rw [if_pos outside]
            simp only [UInt32.lt_iff_toNat_lt] at outside
            rw [if_neg (by omega)]
            rfl
          · rw [if_neg outside]
            simp only [UInt32.lt_iff_toNat_lt, not_or, Nat.not_lt] at outside
            have ordered := UInt32.le_iff_toNat_le.mpr outside.1
            have difference := UInt32.toNat_sub_of_le _ _ ordered
            rw [checkedSub32, if_pos ordered, Option.bind_some]
            cases output : checkedAdd32 mapping.outputBase (id - mapping.inputBase) with
            | none =>
                have large := checkedAdd32_eq_none.mp output
                rw [if_neg (by omega)]
                rfl
            | some given =>
                have value := checkedAdd32_eq_some.mp output
                have small := given.toNat_lt
                rw [if_pos (by omega), Option.map_some, Option.map_some, ← difference, value,
                  UInt32.ofNat_toNat]

theorem atEnd_iff_closes (id : UInt32) : mapping.AtEnd id ↔ mapping.Closes id.toNat := by
  have below := id.toNat_lt
  rw [AtEnd, Closes, lastId, saturatingAdd32, UInt32.lt_iff_toNat_lt, ← UInt32.toNat_inj]
  refine and_congr_right fun _ => ?_
  split
  · next fits =>
    rw [UInt32.toNat_add, Nat.mod_eq_of_lt fits, Nat.min_eq_left (by omega)]
  · next large =>
    rw [Nat.min_eq_right (by omega)]
    rfl

end IortIdMapping

theorem decisiveMapping_eq (kind : IortNodeKind) (id : UInt32) (mappings : List IortIdMapping) :
    decisiveMapping kind id mappings = movingMapping kind id.toNat mappings := by
  have moving : ∀ mapping : IortIdMapping,
      (mapping.gives kind id).isSome = (mapping.moved kind id.toNat).isSome := by
    intro mapping
    rw [mapping.gives_eq_moved, Option.isSome_map]
  rw [decisiveMapping, movingMapping]
  simp only [IortIdMapping.settles, moving, IortIdMapping.atEnd_iff_closes, List.find?_filter,
    Bool.decide_and, Bool.decide_eq_true, decide_not]

theorem spans_windows (mappings : List IortIdMapping) :
    BdfRangeSet.spans (windows mappings) = takenBy mappings := by
  rw [BdfRangeSet.spans, windows, List.map_filterMap, takenBy, ← List.filterMap_eq_map,
    List.filterMap_filter]
  refine List.filterMap_congr fun mapping _ => ?_
  simp only [mapping.window_span, decide_eq_true_eq, Function.comp_apply]

namespace IortTable

variable {table : IortTable} {first : Nat} {meant : List ArmNode} {Found : Type}

theorem RoundTrips.forEachNode_eq (roundTrips : table.RoundTrips first meant)
    {visit : IortNode → Found → Parse IortError Found} (note : Found → Nat × ArmNode → Found)
    (notes : ∀ placed ∈ ArmNode.placed first meant, ∀ found,
      visit (placed.2.reported placed.1) found = .ok (note found placed)) (found : Found) :
    table.forEachNode visit found = .ok ((ArmNode.placed first meant).foldl note found) := by
  rw [forEachNode, forNodes_eq roundTrips.nodes, List.forIn_map]
  refine forIn_noting note (fun placed member found => ?_) found
  simp [notes placed member found]

theorem RoundTrips.smmus (roundTrips : table.RoundTrips first meant) :
    table.forEachSmmuV3 (fun smmu found => pure (found ++ [smmu])) [] =
      .ok ((ArmNode.placed first meant).filterMap ArmNode.smmuV3At) := by
  rw [forEachSmmuV3, roundTrips.forEachNode_eq fun found placed =>
    found ++ (ArmNode.smmuV3At placed).toList]
  · simp [List.filterMap_eq_flatMap_toList, List.flatMap_def]
  · intro placed _ found
    rw [ArmNode.smmuV3At]
    cases placed.2.reported placed.1 <;> simp <;> rfl

def rootAt (segment : UInt16) : IortNode → Option IortRootComplex
  | .rootComplex root => if root.pciSegmentNumber = segment.toUInt32 then some root else none
  | _ => none

theorem rel_or {First Second : Type} {relation : First → Second → Prop} {first other : Option First}
    {second another : Option Second} (own : Option.Rel relation first second)
    (rest : Option.Rel relation other another) :
    Option.Rel relation (first.or other) (second.or another) := by
  cases own with
  | none => exact rest
  | some related => exact .some related

def SeesRoot (table : IortTable) : Option IortRootComplex → Option ArmNode → Prop :=
  Option.Rel fun root node => table.Maps root.header node.mappings.items

theorem rootAt_meant (segment : UInt16) {node : ArmNode} {offset : Nat}
    (maps : table.Maps (node.header offset) node.mappings.items) :
    table.SeesRoot (rootAt segment (node.reported offset))
      (Option.guard (ArmNode.isRootOf segment) node) := by
  cases body : node.body with
  | rootComplex access ats number limit pasid =>
      by_cases named : number = segment.toUInt32
      · simpa [Option.guard, ArmNode.isRootOf, ArmNode.reported, body, rootAt, named] using .some maps
      · simpa [Option.guard, ArmNode.isRootOf, ArmNode.reported, body, rootAt, named] using .none
  | _ => simpa [Option.guard, ArmNode.isRootOf, ArmNode.reported, body, rootAt] using .none

theorem lastRoot_meant (segment : UInt16)
    (maps : ∀ placed ∈ ArmNode.placed first meant,
      table.Maps (placed.2.header placed.1) placed.2.mappings.items)
    {found : Option IortRootComplex} {last : Option ArmNode} (sees : table.SeesRoot found last) :
    table.SeesRoot
      ((ArmNode.placed first meant).foldl
        (fun found placed => (rootAt segment (placed.2.reported placed.1)).or found) found)
      (meant.foldl (fun last node => (Option.guard (ArmNode.isRootOf segment) node).or last) last) := by
  induction meant generalizing first found last with
  | nil => exact sees
  | cons node rest ih =>
      obtain ⟨own, others⟩ := List.forall_mem_cons.mp maps
      exact ih others (rel_or (rootAt_meant segment own) sees)

theorem RoundTrips.rootComplexForSegment (roundTrips : table.RoundTrips first meant) (segment : UInt16) :
    ∃ found, table.rootComplexForSegment segment = .ok found ∧
      table.SeesRoot found (ArmNode.rootFor segment meant) := by
  have last := lastRoot_meant segment roundTrips.mappings .none
  rw [foldl_last (Option.guard (ArmNode.isRootOf segment)), List.filterMap_eq_filter,
    Option.or_none] at last
  refine ⟨_, ?_, last⟩
  rw [IortTable.rootComplexForSegment, forEachRootComplex]
  refine roundTrips.forEachNode_eq _ ?_ none
  intro placed _ found
  cases placed.2.reported placed.1 with
  | rootComplex root =>
      by_cases named : root.pciSegmentNumber = segment.toUInt32
      · simp [rootAt, named]
        rfl
      · simp [rootAt, named]
        rfl
  | _ => rfl

theorem RoundTrips.requesters (roundTrips : table.RoundTrips first meant) (requester : PciDevice) :
    table.rootComplexRequesterMatch requester = .ok ((ArmNode.rootFor requester.segment meant).map
      fun root => reply root.mappings.items requester.bdf) := by
  obtain ⟨found, rooted, sees⟩ := roundTrips.rootComplexForSegment requester.segment
  generalize ArmNode.rootFor requester.segment meant = root at sees ⊢
  cases sees with
  | none =>
      rw [rootComplexRequesterMatch, rooted]
      rfl
  | some maps => exact rootComplexRequesterMatch_eq rooted maps

theorem given_eq_ok {Value : Type} {missing other : Prop} [Decidable missing] [Decidable other]
    (same : missing ↔ other) (value : Value) {result : Option Value} :
    (if missing then pure none else pure (some value) : Parse IortError (Option Value)) = .ok result ↔
      result = if other then none else some value := by
  simp only [same]
  split
  · exact ⟨fun given => (Except.ok.inj given).symm, fun same => same ▸ rfl⟩
  · exact ⟨fun given => (Except.ok.inj given).symm, fun same => same ▸ rfl⟩

theorem RoundTrips.covered (roundTrips : table.RoundTrips first meant) (segment : UInt16) :
    match ArmNode.rootFor segment meant with
    | none => table.rootComplexBdfRanges segment = .ok none
    | some root =>
      Collected (takenBy root.mappings.items) False (table.rootComplexBdfRanges segment) := by
  obtain ⟨found, rooted, sees⟩ := roundTrips.rootComplexForSegment segment
  generalize ArmNode.rootFor segment meant = root at sees ⊢
  rw [rootComplexBdfRanges, rooted, Parse.ok_bind]
  cases sees with
  | none => rfl
  | @some root node maps =>
      dsimp only
      rw [← spans_windows]
      refine collected_of_insertEach (windows_filled _) fun result => ?_
      simp only [idMappingsFor, forIdMappings_eq maps, Parse.bind_eq_ok, collectMappings_eq_ok,
        false_or]
      refine exists_congr fun set => and_congr_right fun collected => ?_
      exact given_eq_ok (BdfRangeSet.insertEach_count_zero (windows_filled _) collected) set

def Collects (mappings : List IortIdMapping) (found : Bool) (query final : RmrQuery) : Prop :=
  BdfRangeSet.insertEach (windows mappings) query.ranges = (.ok (), final.ranges) ∧
    final.unresolved = (query.unresolved || decide (MapsUnresolved mappings)) ∧
    final.foundMemory = (query.foundMemory || found)

theorem collects_nil {query final : RmrQuery} : Collects [] false query final ↔ query = final := by
  obtain ⟨ranges, foundMemory, unresolved⟩ := query
  obtain ⟨ranges', foundMemory', unresolved'⟩ := final
  simp [Collects, windows, BdfRangeSet.insertEach, MapsUnresolved]
  grind

theorem collects_append {first second : List IortIdMapping} {found again : Bool}
    {query final : RmrQuery} :
    (∃ middle, Collects first found query middle ∧ Collects second again middle final) ↔
      Collects (first ++ second) (found || again) query final := by
  have unresolved : MapsUnresolved (first ++ second) ↔ MapsUnresolved first ∨ MapsUnresolved second := by
    simp [MapsUnresolved, or_and_right, exists_or]
  simp only [Collects, windows, List.filterMap_append, BdfRangeSet.insertEach_append,
    Effect.bind_eq_ok, unresolved, Bool.decide_or]
  constructor
  · rintro ⟨middle, ⟨inserted, own, sought⟩, others, rest, more⟩
    refine ⟨⟨(), middle.ranges, inserted, others⟩, ?_, ?_⟩
    · rw [rest, own, Bool.or_assoc]
    · rw [more, sought, Bool.or_assoc]
  · rintro ⟨⟨_, ranges, inserted, others⟩, rest, more⟩
    refine ⟨⟨ranges, _, _⟩, ⟨inserted, rfl, rfl⟩, others, ?_, ?_⟩
    · exact rest.trans (Bool.or_assoc ..).symm
    · exact more.trans (Bool.or_assoc ..).symm

theorem collectRmrMapping_eq_ok {mapping : IortIdMapping} {query : RmrQuery}
    {step : ForInStep RmrQuery} : collectRmrMapping mapping query = .ok step ↔
      ∃ final, step = .yield final ∧ Collects [mapping] false query final := by
  rw [collectRmrMapping, mapping.inputBdfRange_eq, Parse.ok_bind]
  cases found : mapping.window with
  | none =>
      have unresolved := IortIdMapping.window_eq_none.mp found
      simp only [Collects, windows, List.filterMap_cons_none found, List.filterMap_nil,
        BdfRangeSet.insertEach, MapsUnresolved, List.mem_singleton, exists_eq_left, unresolved]
      constructor
      · rintro ⟨⟩
        exact ⟨_, rfl, rfl, by simp, by simp⟩
      · rintro ⟨⟨ranges, foundMemory, unresolved⟩, rfl, same, rfl, rfl⟩
        obtain rfl : query.ranges = ranges := (Prod.mk.inj same).2
        simp
        rfl
  | some range =>
      have resolves : mapping.Resolves := by
        by_contra open_ended
        rw [IortIdMapping.window_eq_none.mpr open_ended] at found
        cases found
      simp only [Collects, windows, List.filterMap_cons_some found, List.filterMap_nil,
        BdfRangeSet.insertEach, MapsUnresolved, List.mem_singleton, exists_eq_left, resolves,
        Parse.bind_eq_ok, collectRange_eq_ok]
      constructor
      · rintro ⟨ranges, inserted, ⟨⟩⟩
        exact ⟨_, rfl, (Effect.bind_of_ok inserted).trans rfl, by simp, by simp⟩
      · rintro ⟨⟨ranges, foundMemory, unresolved⟩, rfl, inserted, rfl, rfl⟩
        obtain ⟨_, after, first, ⟨⟩⟩ := Effect.bind_eq_ok.mp inserted
        refine ⟨ranges, first, ?_⟩
        simp
        rfl

theorem collectRmrMappings_eq_ok (mappings : List IortIdMapping) (query final : RmrQuery) :
    forIn mappings query collectRmrMapping = .ok final ↔ Collects mappings false query final := by
  induction mappings generalizing query with
  | nil =>
      rw [collects_nil, List.forIn_nil]
      exact ⟨Except.ok.inj, congrArg Except.ok⟩
  | cons mapping rest ih =>
      have append := @collects_append [mapping] rest false false query final
      rw [List.singleton_append, Bool.or_false] at append
      rw [List.forIn_cons, Parse.bind_eq_ok, ← append]
      constructor
      · rintro ⟨step, ran, others⟩
        obtain ⟨middle, rfl, own⟩ := collectRmrMapping_eq_ok.mp ran
        exact ⟨middle, own, (ih middle).mp others⟩
      · rintro ⟨middle, own, others⟩
        exact ⟨_, collectRmrMapping_eq_ok.mpr ⟨middle, rfl, own⟩, (ih middle).mpr others⟩

def noteMemory (table : IortTable) (memory : AddrRange) (node : IortNode) (query : RmrQuery) :
    Parse IortError RmrQuery :=
  match node with
  | .reservedMemory rmr => do
      if ← table.rmrMatches memory rmr then
        table.forIdMappings (idMappingsFor rmr.header) collectRmrMapping
          { query with foundMemory := true }
      else pure query
  | _ => pure query

theorem rmrMatches_carried {rmr : IortReservedMemory} {descriptors : List ArmDescriptor}
    (items : table.rmrDescriptorItems rmr = .ok ((descriptors.map ArmDescriptor.reported).map .ok))
    (memory : AddrRange) : table.rmrMatches memory rmr =
      .ok (descriptors.any fun descriptor => descriptor.memory.range = memory) := by
  obtain ⟨cursor, opened, drained⟩ := Parse.bind_eq_ok.mp items
  rw [rmrMatches, forRmrDescriptors, opened, Parse.ok_bind, forItems_of_drain drained, forIn_onResult,
    forIn_noting fun found descriptor => found || decide (descriptor.memory = memory), foldl_or,
    Bool.false_or, List.any_map]
  · rfl
  · intro descriptor _ found
    by_cases here : descriptor.memory = memory
    · simp [here]
      rfl
    · simp [here]
      rfl

theorem RoundTrips.noteMemory_eq_ok (roundTrips : table.RoundTrips first meant)
    {placed : Nat × ArmNode} (member : placed ∈ ArmNode.placed first meant) (memory : AddrRange)
    (query final : RmrQuery) :
    table.noteMemory memory (placed.2.reported placed.1) query = .ok final ↔
      Collects (placed.2.keptBy memory) (placed.2.keeps memory) query final := by
  have maps := roundTrips.mappings placed member
  have carries := roundTrips.arrays placed member
  obtain ⟨offset, node⟩ := placed
  have idle : node.keeps memory = false → ((pure query : Parse IortError RmrQuery) = .ok final ↔
      Collects (node.keptBy memory) (node.keeps memory) query final) := by
    intro silent
    rw [ArmNode.keptBy, silent, if_neg Bool.false_ne_true, collects_nil]
    exact ⟨Except.ok.inj, congrArg Except.ok⟩
  cases body : node.body with
  | reservedMemory flags descriptors =>
      rw [body] at carries
      obtain ⟨rmr, reported, items⟩ := carries
      have keeps : node.keeps memory =
          descriptors.items.any fun descriptor => descriptor.memory.range = memory := by
        rw [ArmNode.keeps, body]
      have header : rmr.header = node.header offset := by
        rw [ArmNode.reported, body] at reported
        cases reported
        rfl
      dsimp only at reported ⊢
      rw [reported, noteMemory, rmrMatches_carried items, Parse.ok_bind, ← keeps]
      cases keeping : node.keeps memory with
      | false =>
          have kept := idle keeping
          rwa [keeping] at kept
      | true =>
          rw [if_pos rfl, idMappingsFor, header, forIdMappings_eq maps, collectRmrMappings_eq_ok,
            ArmNode.keptBy, keeping, if_pos rfl]
          simp [Collects]
  | _ =>
      have silent : node.keeps memory = false := by rw [ArmNode.keeps, body]
      simp only [ArmNode.reported, body]
      exact idle silent

theorem RoundTrips.noteMemories_eq_ok (roundTrips : table.RoundTrips first meant) (memory : AddrRange)
    {offset : Nat} {some : List ArmNode}
    (among : ∀ placed ∈ ArmNode.placed offset some, placed ∈ ArmNode.placed first meant)
    (query final : RmrQuery) :
    forIn ((ArmNode.placed offset some).map fun placed => placed.2.reported placed.1) query
        (fun node query => .yield <$> table.noteMemory memory node query) = .ok final ↔
      Collects (ArmNode.keptFor memory some) (some.any (ArmNode.keeps memory)) query final := by
  induction some generalizing offset query with
  | nil =>
      rw [ArmNode.keptFor, List.flatMap_nil, List.any_nil, collects_nil]
      exact ⟨Except.ok.inj, congrArg Except.ok⟩
  | cons node rest ih =>
      obtain ⟨own, others⟩ := List.forall_mem_cons.mp among
      have here := roundTrips.noteMemory_eq_ok own memory query
      rw [ArmNode.keptFor, List.flatMap_cons, List.any_cons, ← collects_append, ArmNode.placed,
        List.map_cons, List.forIn_cons, Parse.bind_eq_ok]
      simp only [Parse.map_eq_ok]
      constructor
      · rintro ⟨_, ⟨middle, ran, rfl⟩, later⟩
        exact ⟨middle, (here middle).mp ran, (ih others middle).mp later⟩
      · rintro ⟨middle, collected, later⟩
        exact ⟨_, ⟨middle, (here middle).mpr collected, rfl⟩, (ih others middle).mpr later⟩

theorem keptFor_nil {memory : AddrRange} (unkept : meant.any (ArmNode.keeps memory) = false) :
    ArmNode.keptFor memory meant = [] := by
  rw [ArmNode.keptFor, List.flatMap_eq_nil_iff]
  intro node member
  rw [ArmNode.keptBy, if_neg]
  exact List.any_eq_false.mp unkept node member

theorem RoundTrips.kept (roundTrips : table.RoundTrips first meant) (memory : AddrRange) :
    Collected (takenBy (ArmNode.keptFor memory meant)) (MapsUnresolved (ArmNode.keptFor memory meant))
      (table.rmrBdfRanges memory) := by
  have loop : table.forEachReservedMemory (fun rmr query => do
      if ← table.rmrMatches memory rmr then
        table.forIdMappings (idMappingsFor rmr.header) collectRmrMapping
          { query with foundMemory := true }
      else pure query) = table.forEachNode (table.noteMemory memory) := by
    refine congrArg table.forEachNode ?_
    funext node query
    cases node <;> rfl
  have unkept := @keptFor_nil meant memory
  rw [← spans_windows]
  refine collected_of_insertEach (windows_filled _) fun result => ?_
  rw [rmrBdfRanges, loop, forEachNode, forNodes_eq roundTrips.nodes, Parse.bind_eq_ok]
  simp only [roundTrips.noteMemories_eq_ok memory fun _ member => member]
  generalize ArmNode.keptFor memory meant = mappings at unkept ⊢
  have condition : ∀ query : RmrQuery,
      Collects mappings (meant.any (ArmNode.keeps memory)) ⟨.empty, false, false⟩ query →
      ((!query.foundMemory ∨ query.unresolved ∨ query.ranges.count = 0) ↔
        MapsUnresolved mappings ∨ windows mappings = []) := by
    rintro query ⟨collected, unresolved, found⟩
    rw [unresolved, found, BdfRangeSet.insertEach_count_zero (windows_filled _) collected]
    simp only [Bool.false_or, Bool.not_eq_true', decide_eq_true_eq]
    refine or_iff_right_of_imp fun absent => ?_
    rw [unkept absent]
    exact Or.inr rfl
  constructor
  · rintro ⟨query, collects, returned⟩
    exact ⟨query.ranges, collects.1, (given_eq_ok (condition query collects) _).mp returned⟩
  · rintro ⟨set, collected, given⟩
    refine ⟨⟨set, _, _⟩, ⟨collected, rfl, rfl⟩, ?_⟩
    exact (given_eq_ok (condition ⟨set, _, _⟩ ⟨collected, rfl, rfl⟩) _).mpr given

theorem reported_header (node : ArmNode) (offset : Nat) :
    (node.reported offset).header = node.header offset := by
  rw [ArmNode.reported]
  cases node.body <;> rfl

theorem RoundTrips.walks (roundTrips : table.RoundTrips first meant) {placed : Nat × ArmNode}
    (member : placed ∈ ArmNode.placed first meant) (id : UInt32) :
    table.onward ⟨placed.2.reported placed.1, id⟩ =
      .ok ((ArmNode.onward first meant placed.2 id.toNat).map
        fun next => ⟨next.2.1.reported next.1, .ofNat next.2.2⟩) := by
  have maps := roundTrips.mappings placed member
  rw [← reported_header] at maps
  have kind : (placed.2.reported placed.1).header.kind = placed.2.kind := by
    rw [reported_header]
    rfl
  rw [onward, translateOnce_eq maps, Parse.ok_bind, kind, ArmNode.onward, stepMappings_eq,
    decisiveMapping_eq]
  cases movingMapping placed.2.kind id.toNat placed.2.mappings.items with
  | none => rfl
  | some mapping =>
      dsimp only
      rw [mapping.gives_eq_moved, Option.bind_eq_bind, Option.bind_some]
      cases mapping.moved placed.2.kind id.toNat with
      | none => rfl
      | some output =>
          have placed_at : ∀ other : Nat × ArmNode, (other.2.header other.1).offset = other.1 :=
            fun _ => rfl
          simp only [Option.map_some, nodeByReference_eq roundTrips.nodes, Parse.ok_bind,
            List.find?_map, Function.comp_def, reported_header, placed_at, Option.bind_eq_bind,
            Option.bind_some]
          cases List.find? (fun other => decide (other.1 = mapping.outputReference.toNat))
            (ArmNode.placed first meant) with
          | none => rfl
          | some other => rfl

theorem RoundTrips.answers (roundTrips : table.RoundTrips first meant) :
    table.AnswersAsMeant first meant where
  requesters := roundTrips.requesters
  covered := roundTrips.covered
  kept := roundTrips.kept
  smmus := roundTrips.smmus
  walks _ member := roundTrips.walks member

end IortTable

/-- On every table that is laid out as specified, the queries for requesters, kept memory and SMMUs, and
the steps of a walk, answer what its nodes mean. -/
theorem iort_queries_as_meant (validate : SdtValidation) (image : ArmTable) (table : IortTable)
    (accepted : IortTable.parse validate image.bytes = .ok table) :
    table.AnswersAsMeant image.nodeOffset image.nodes := by
  obtain ⟨laid, cursor, opened, placed, counted⟩ := IortTable.nodes_held accepted
  rw [← placed] at laid ⊢
  exact (IortTable.nodes_roundTrip image.laidOut opened laid counted).answers

theorem iort_queries_as_meant_sample : ∃ table : IortTable,
    IortTable.parse (fun _ => .ok ()) armSample.bytes = .ok table ∧
      table.AnswersAsMeant armSample.nodeOffset armSample.nodes :=
  ⟨⟨armSample.bytes, by decide +kernel, by decide +kernel⟩, by decide +kernel,
    iort_queries_as_meant (fun _ => .ok ()) armSample _ (by decide +kernel)⟩

end Iommu
