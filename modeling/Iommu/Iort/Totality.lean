import Iommu.Iort.ArrayReads
import Iommu.Library.Tiling

/-!
Every IORT table can be gone through: no more nodes are given than it counts, each has a
stretch of its own, and so have the arrays of each node.
-/

namespace Iommu

open MachineWord FirmwareTable

namespace IortTable

variable {table : IortTable} {offset : Nat} {header : IortNodeHeader}

theorem parseNamedComponent_name (fits : header.endOffset ≤ table.sdt.length) :
    (table.parseNamedComponent header).Ensures fun component =>
      component.header = header ∧ header.HoldsName ∧
        component.deviceName = window table.sdt (header.offset + NAMED_COMPONENT_MIN_LENGTH)
          (header.nameEnd - NAMED_COMPONENT_MIN_LENGTH) := by
  have short := table.length_lt_limit
  have ends : header.endOffset = header.offset + header.length := rfl
  refine .ite (fun _ => .fail _) fun enough => ?_
  rw [Parse.sum_of_lt (by omega), Parse.ok_bind, deviceNameEnd_eq fits, Parse.ok_bind,
    Parse.sum_of_lt (by omega), Parse.ok_bind]
  refine .ite (fun _ => .fail _) fun bounds => ?_
  refine .bind fun _ _ => .bind fun _ _ => .bind fun _ _ => ?_
  rw [sliceOf_inside (by omega) (by omega), Parse.ok_bind, Nat.add_sub_add_left]
  exact .pure ⟨rfl, ⟨by omega, by omega⟩, rfl⟩

theorem parseNamedComponent_refuses (fits : header.endOffset ≤ table.sdt.length)
    (outside : ¬header.HoldsName) :
    ∃ message, table.parseNamedComponent header = malformed message := by
  have short := table.length_lt_limit
  have ends : header.endOffset = header.offset + header.length := rfl
  by_cases small : header.length < NAMED_COMPONENT_MIN_LENGTH
  · exact ⟨_, if_pos small⟩
  · rw [IortNodeHeader.HoldsName] at outside
    rw [parseNamedComponent, if_neg small, Parse.sum_of_lt (by omega), Parse.ok_bind,
      deviceNameEnd_eq fits, Parse.ok_bind, Parse.sum_of_lt (by omega), Parse.ok_bind,
      if_pos (by omega)]
    exact ⟨_, rfl⟩

theorem parseBody_header (fits : header.endOffset ≤ table.sdt.length) :
    (table.parseBody header).Ensures fun node => node.header = header := by
  rw [parseBody]
  split
  · exact .map (.ite (fun _ => .fail _) fun _ => .bind fun _ _ => .pure rfl)
  · exact .map fun component found => (parseNamedComponent_name fits component found).1
  · refine .map (.ite (fun _ => .fail _) fun _ => ?_)
    exact .bind fun _ _ => .bind fun _ _ => .bind fun _ _ => .bind fun _ _ => .bind fun _ _ => .pure rfl
  · refine .map (.ite (fun _ => .fail _) fun _ => ?_)
    refine .bind fun _ _ => .bind fun _ _ => .bind fun _ _ => .bind fun _ _ => .bind fun _ _ => ?_
    exact .bind fun _ _ => .bind fun _ _ => .bind fun _ _ => .bind fun _ _ => .bind fun _ _ => .pure rfl
  · refine .map (.ite (fun _ => .fail _) fun _ => ?_)
    refine .bind fun _ _ => .bind fun _ _ => .bind fun _ _ => .bind fun _ _ => .bind fun _ _ => ?_
    refine .bind fun _ _ => .bind fun _ _ => .bind fun _ _ => .bind fun _ _ => .bind fun _ _ => ?_
    exact .bind fun _ _ => .bind fun _ _ => .pure rfl
  · refine .map (.ite (fun _ => .fail _) fun _ => ?_)
    refine .bind fun _ _ => .bind fun _ _ => .bind fun _ _ => .bind fun _ _ => .bind fun _ _ => ?_
    exact .bind fun _ _ => .pure rfl
  · refine .map (.ite (fun _ => .fail _) fun _ => ?_)
    exact .bind fun _ _ => .bind fun _ _ => .bind fun _ _ => .pure rfl
  · exact .pure rfl

theorem parseBody_named {component : IortNamedComponent}
    (parsed : table.parseBody header = .ok (.namedComponent component)) :
    table.parseNamedComponent header = .ok component := by
  rw [parseBody] at parsed
  split at parsed
  · obtain ⟨_, _, ⟨⟩⟩ := Parse.map_eq_ok.mp parsed
  · obtain ⟨_, found, same⟩ := Parse.map_eq_ok.mp parsed
    cases same
    exact found
  · obtain ⟨_, _, ⟨⟩⟩ := Parse.map_eq_ok.mp parsed
  · obtain ⟨_, _, ⟨⟩⟩ := Parse.map_eq_ok.mp parsed
  · obtain ⟨_, _, ⟨⟩⟩ := Parse.map_eq_ok.mp parsed
  · obtain ⟨_, _, ⟨⟩⟩ := Parse.map_eq_ok.mp parsed
  · obtain ⟨_, _, ⟨⟩⟩ := Parse.map_eq_ok.mp parsed
  · cases parsed

theorem parseNode_refuses (headed : table.parseNodeHeader offset = .ok header)
    (named : header.kind = .namedComponent) (outside : ¬header.HoldsName) :
    ∃ message, table.parseNode offset = malformed message := by
  obtain ⟨rfl, size, frames⟩ := parseNodeHeader_frames table _ header headed
  have fits : header.endOffset ≤ table.sdt.length := by
    rw [IortNodeHeader.endOffset, size]
    exact frames.fits
  obtain ⟨message, refused⟩ := parseNamedComponent_refuses fits outside
  rw [parseNode, headed, Parse.ok_bind, parseBody, named]
  dsimp only
  rw [refused]
  exact ⟨message, rfl⟩

theorem parseNode_header (table : IortTable) (offset : Nat) :
    (table.parseNode offset).Ensures fun node =>
      node.header.offset = offset ∧ node.header.length = table.declared offset ∧
        table.Frames offset ∧ table.parseBody node.header = .ok node := by
  intro node parsed
  obtain ⟨header, headed, body⟩ := Parse.bind_eq_ok.mp parsed
  obtain ⟨rfl, size, frames⟩ := parseNodeHeader_frames table _ header headed
  have fits : header.endOffset ≤ table.sdt.length := by
    rw [IortNodeHeader.endOffset, size]
    exact frames.fits
  obtain rfl := parseBody_header fits node body
  exact ⟨rfl, size, frames, body⟩

/-- The arrays of a node are read from the node's bytes, and so is a component's name. -/
structure ReadsNode (table : IortTable) (node : IortNode) : Prop where
  mappings : ArrayWithin table node.header node.header.mappingCount
    (node.header.mappingCount = 0 ∨ node.header.HoldsArray node.header.mappingOffset.toNat
      node.header.mappingCount.toNat IORT_ID_MAPPING_LENGTH IORT_NODE_HEADER_LENGTH)
    (idMappings node) fun table => idMappingItems table node
  identifiers : ∀ group, node = .itsGroup group → ArrayWithin table group.header group.itsCount
    (group.header.HoldsArray ITS_GROUP_MIN_LENGTH group.itsCount.toNat 4 ITS_GROUP_MIN_LENGTH)
    (itsIdentifiers group) fun table => itsIdentifierItems table group
  descriptors : ∀ memory, node = .reservedMemory memory →
    ArrayWithin table memory.header memory.descriptorCount
      (memory.header.HoldsArray memory.descriptorOffset.toNat memory.descriptorCount.toNat
        RMR_DESCRIPTOR_LENGTH RMR_MIN_LENGTH)
      (rmrDescriptors memory) fun table => rmrDescriptorItems table memory
  contextInterrupts : ∀ smmu, node = .smmu smmu →
    ArrayWithin table smmu.header smmu.contextInterruptCount
      (smmu.contextInterruptCount = 0 ∨ smmu.header.HoldsArray smmu.contextInterruptOffset.toNat
        smmu.contextInterruptCount.toNat 8 SMMU_MIN_LENGTH)
      (smmuContextInterrupts smmu) fun table => smmuContextInterruptItems table smmu
  pmuInterrupts : ∀ smmu, node = .smmu smmu →
    ArrayWithin table smmu.header smmu.pmuInterruptCount
      (smmu.pmuInterruptCount = 0 ∨ smmu.header.HoldsArray smmu.pmuInterruptOffset.toNat
        smmu.pmuInterruptCount.toNat 8 SMMU_MIN_LENGTH)
      (smmuPmuInterrupts smmu) fun table => smmuPmuInterruptItems table smmu
  globalInterrupt : ∀ smmu, node = .smmu smmu → table.GlobalInterruptWithin smmu
  name : ∀ component, node = .namedComponent component → component.header.HoldsName ∧
    component.deviceName = window table.sdt (component.header.offset + NAMED_COMPONENT_MIN_LENGTH)
      (component.header.nameEnd - NAMED_COMPONENT_MIN_LENGTH)

theorem interrupts_within (fits : header.endOffset ≤ table.sdt.length) (offset count : UInt32) :
    ArrayWithin table header count
      (count = 0 ∨ header.HoldsArray offset.toNat count.toNat 8 SMMU_MIN_LENGTH)
      (smmuInterrupts header offset count)
      fun table => arrayItems (smmuInterrupts header offset count) 8 table.readSmmuInterrupt := by
  rw [smmuInterrupts_eq fits]
  exact orEmpty_within fits (fun place low high => readSmmuInterrupt_within low fits high) offset
    count (by decide) _ _ _

theorem readsNode {node : IortNode} (fits : node.header.endOffset ≤ table.sdt.length)
    (parsed : table.parseBody node.header = .ok node) : table.ReadsNode node where
  mappings := orEmpty_within fits (fun place low high => readIdMapping_within low fits high) _ _
    (by decide) _ _ _
  identifiers := by
    rintro ⟨itsCount, header⟩ rfl
    exact itsIdentifiers_within fits itsCount
  descriptors := by
    rintro memory rfl
    exact arrayAt_within fits (fun place low high => readRmrDescriptor_within low fits high) _ _
      (by decide) _ _ _
  contextInterrupts := by
    rintro smmu rfl
    exact interrupts_within fits _ _
  pmuInterrupts := by
    rintro smmu rfl
    exact interrupts_within fits _ _
  globalInterrupt := by
    rintro smmu rfl
    exact globalInterruptWithin fits
  name := by
    rintro component rfl
    exact (parseNamedComponent_name fits component (parseBody_named parsed)).2

section Iteration

variable {cursor : ArrayCursor}

/-- The node at an offset cannot be framed, for the reason the message gives. -/
def Breaks (table : IortTable) (offset : Nat) (message : String) : Prop :=
  table.sdt.length ≤ offset ∧ message = "IORT node count exceeds table contents" ∨
    offset < table.sdt.length ∧
      (table.sdt.length < offset + 3 ∧ message = IORT.readOutside ∨
        offset + 3 ≤ table.sdt.length ∧
          (table.declared offset < IORT_NODE_HEADER_LENGTH ∧
              message = "IORT node length smaller than header" ∨
            IORT_NODE_HEADER_LENGTH ≤ table.declared offset ∧
              table.sdt.length < offset + table.declared offset ∧
              message = "IORT node extends past table length"))

theorem frames_or_breaks (table : IortTable) (offset : Nat) :
    table.Frames offset ∨ ∃ message, table.Breaks offset message := by
  by_cases past : table.sdt.length ≤ offset
  · exact Or.inr ⟨_, Or.inl ⟨past, rfl⟩⟩
  have inside := Nat.lt_of_not_le past
  by_cases cut : table.sdt.length < offset + 3
  · exact Or.inr ⟨_, Or.inr ⟨inside, Or.inl ⟨cut, rfl⟩⟩⟩
  have header := Nat.le_of_not_lt cut
  by_cases small : table.declared offset < IORT_NODE_HEADER_LENGTH
  · exact Or.inr ⟨_, Or.inr ⟨inside, Or.inr ⟨header, Or.inl ⟨small, rfl⟩⟩⟩⟩
  have large := Nat.le_of_not_lt small
  by_cases long : table.sdt.length < offset + table.declared offset
  · exact Or.inr ⟨_, Or.inr ⟨inside, Or.inr ⟨header, Or.inr ⟨large, long, rfl⟩⟩⟩⟩
  · exact Or.inl ⟨large, Nat.le_of_not_lt long⟩

theorem giveUp_apply (stop : Stop IortError) :
    giveUp stop cursor = (.error stop, { cursor with remaining := 0 }) := rfl

theorem nextNode_done (none_left : cursor.remaining = 0) :
    table.nextNode cursor = (.ok none, cursor) := by
  rw [nextNode, Effect.bind_apply, Effect.get_apply]
  exact congrFun (if_pos none_left) cursor

theorem nextNode_header (left : cursor.remaining ≠ 0) (inside : cursor.offset < table.sdt.length)
    (header : cursor.offset + 3 ≤ table.sdt.length) :
    table.nextNode cursor =
      if table.declared cursor.offset < IORT_NODE_HEADER_LENGTH then
        giveUp (.failed (.malformed "IORT node length smaller than header")) cursor
      else if table.sdt.length < cursor.offset + table.declared cursor.offset then
        giveUp (.failed (.malformed "IORT node extends past table length")) cursor
      else
        ((table.parseNode cursor.offset).map some,
          ⟨cursor.offset + table.declared cursor.offset, cursor.remaining - 1⟩) := by
  have short := table.short
  have limited : limit = 2 ^ 64 := rfl
  have small := table.declared_lt cursor.offset
  simp only [nextNode, Effect.bind_apply, Effect.get_apply, id_eq, if_neg left,
    if_neg (Nat.not_le_of_lt inside), readLength_eq header, declared_toNat]
  split
  · rfl
  · rw [checkedOffset_of_lt (by omega)]
    dsimp only
    split
    · rfl
    · rw [Effect.bind_apply, Effect.ofExcept_apply, Parse.sum_of_lt (by omega)]
      simp only [Effect.bind_apply, Effect.modify_apply, Effect.ofExcept_apply]
      cases table.parseNode cursor.offset with
      | error stop => rfl
      | ok node => rfl

theorem nextNode_broken {message : String} (left : cursor.remaining ≠ 0)
    (breaks : table.Breaks cursor.offset message) :
    table.nextNode cursor =
      (.error (.failed (.malformed message)), { cursor with remaining := 0 }) := by
  have short := table.short
  have limited : limit = 2 ^ 64 := rfl
  rcases breaks with ⟨past, rfl⟩ | ⟨inside, ⟨cut, rfl⟩ | ⟨header, reason⟩⟩
  · simp only [nextNode, Effect.bind_apply, Effect.get_apply, id_eq, if_neg left, if_pos past,
      giveUp_apply]
  · have outside : table.readU16 cursor.offset 1 = malformed IORT.readOutside :=
      readU16_outside (by omega) cut
    simp only [nextNode, Effect.bind_apply, Effect.get_apply, id_eq, if_neg left,
      if_neg (Nat.not_le_of_lt inside), outside, malformed, Parse.fail, giveUp_apply]
  · rw [nextNode_header left inside header]
    rcases reason with ⟨small, rfl⟩ | ⟨large, past, rfl⟩
    · rw [if_pos small, giveUp_apply]
    · rw [if_neg (Nat.not_lt_of_le large), if_pos past, giveUp_apply]

theorem nextNode_frames (left : cursor.remaining ≠ 0) (frames : table.Frames cursor.offset) :
    table.nextNode cursor =
      ((table.parseNode cursor.offset).map some,
        ⟨cursor.offset + table.declared cursor.offset, cursor.remaining - 1⟩) := by
  obtain ⟨large, fits⟩ := frames
  have least : IORT_NODE_HEADER_LENGTH = 16 := rfl
  rw [nextNode_header left (by omega) (by omega), if_neg (Nat.not_lt_of_le large),
    if_neg (Nat.not_lt_of_le fits)]

/-- The items of an iteration: what the nodes in consecutive spans are parsed to, as many as are
counted, or fewer and one failure where the next node cannot be framed. -/
def Tiled (table : IortTable) (start count : Nat) (items : List (Except IortError IortNode)) : Prop :=
  ∃ (spans : List (Span Nat)) (outcomes : List (Except IortError IortNode)) (stop : Nat)
    (broken : Option String),
    items = outcomes ++ broken.toList.map (fun message => .error (.malformed message)) ∧
      Span.Tiles start spans stop ∧
      (∀ span ∈ spans, table.Frames span.start ∧
        span.stop = span.start + table.declared span.start) ∧
      List.Forall₂ (fun span outcome => table.parseNode span.start = outcome.mapError .failed) spans
        outcomes ∧
      (broken = none → outcomes.length = count) ∧
      ∀ message ∈ broken, outcomes.length < count ∧ table.Breaks stop message

theorem Tiled.cons {count : Nat} {outcome : Except IortError IortNode}
    {items : List (Except IortError IortNode)}
    (tiled : table.Tiled (offset + table.declared offset) count items) (frames : table.Frames offset)
    (parsed : table.parseNode offset = outcome.mapError .failed) :
    table.Tiled offset (count + 1) (outcome :: items) := by
  obtain ⟨spans, outcomes, stop, broken, rfl, tiles, framed, decodes, whole, cut⟩ := tiled
  have large : 16 ≤ table.declared offset := frames.large
  refine ⟨⟨offset, offset + table.declared offset⟩ :: spans, outcome :: outcomes, stop, broken,
    rfl, .cons rfl (by simp [Span.Proper]; omega) tiles, ?_, .cons parsed decodes, ?_, ?_⟩
  · intro span member
    rcases List.mem_cons.mp member with rfl | later
    · exact ⟨frames, rfl⟩
    · exact framed span later
  · intro complete
    exact congrArg Nat.succ (whole complete)
  · intro message among
    exact ⟨Nat.succ_lt_succ (cut message among).1, (cut message among).2⟩

theorem Tiled.length_le {start count : Nat} {items : List (Except IortError IortNode)}
    (tiled : table.Tiled start count items) : items.length ≤ count := by
  obtain ⟨spans, outcomes, stop, broken, rfl, _, _, _, whole, cut⟩ := tiled
  cases broken with
  | none => simp [whole rfl]
  | some message =>
      have fewer := (cut message rfl).1
      simp
      omega

theorem Tiled.ok_mem {start count : Nat} {items : List (Except IortError IortNode)}
    (tiled : table.Tiled start count items) {node : IortNode} (member : .ok node ∈ items) :
    ∃ offset, table.Frames offset ∧ table.parseNode offset = .ok node := by
  obtain ⟨spans, outcomes, stop, broken, rfl, _, framed, decodes, _, _⟩ := tiled
  rcases List.mem_append.mp member with parsed | cut
  · obtain ⟨span, among, decoded⟩ := exists_of_forall₂ decodes parsed
    exact ⟨span.start, (framed span among).1, decoded⟩
  · simp at cut

theorem drain_nodes {rounds count : Nat} (left : cursor.remaining.toNat = count)
    (enough : count < rounds) :
    ∃ items, drain table.nextNode rounds cursor = .ok items ∧
      table.Tiled cursor.offset count items := by
  induction count generalizing cursor rounds with
  | zero =>
      obtain ⟨fewer, rfl⟩ : ∃ fewer, rounds = fewer + 1 := ⟨rounds - 1, by omega⟩
      refine ⟨[], drain_done (nextNode_done (UInt32.toNat_inj.mp left)), [], [], cursor.offset, none,
        rfl, .nil _, by simp, .nil, fun _ => rfl, by simp⟩
  | succ count ih =>
      obtain ⟨fewer, rfl⟩ : ∃ fewer, rounds = fewer + 1 + 1 := ⟨rounds - 2, by omega⟩
      obtain ⟨some_left, fewer_left⟩ := ArrayCursor.remaining_pred left
      rcases table.frames_or_breaks cursor.offset with frames | ⟨message, breaks⟩
      · obtain ⟨rest, drained, tiled⟩ :=
          @ih ⟨cursor.offset + table.declared cursor.offset, cursor.remaining - 1⟩ (fewer + 1)
            fewer_left (Nat.lt_of_succ_lt_succ enough)
        have ran := nextNode_frames some_left frames
        obtain ⟨outcome, parsed⟩ := (parseNode_within frames).returns.outcome
        rw [parsed] at ran
        refine ⟨outcome :: rest, ?_, tiled.cons frames parsed⟩
        cases outcome with
        | ok item => exact drain_item ran drained
        | error failure => exact drain_failed ran drained
      · refine ⟨_, drain_failed (nextNode_broken some_left breaks) (drain_done (nextNode_done rfl)), ?_⟩
        refine ⟨[], [], cursor.offset, some message, rfl, .nil _, by simp, .nil, by simp, ?_⟩
        rintro _ ⟨⟩
        exact ⟨Nat.succ_pos count, breaks⟩

end Iteration

theorem nodeOffset_eq (table : IortTable) :
    table.nodeOffset = .ok (.ofNat (fieldLE table.sdt IORT_NODE_OFFSET_OFFSET 4)) :=
  readU32_inside (Nat.le_trans (by decide : 40 + 0 + 4 ≤ 48) table.long)

theorem nodeCount_eq (table : IortTable) :
    table.nodeCount = .ok (.ofNat (fieldLE table.sdt IORT_NODE_COUNT_OFFSET 4)) :=
  readU32_inside (Nat.le_trans (by decide : 36 + 0 + 4 ≤ 48) table.long)

theorem nodes_opened {offset count : UInt32} (placed : table.nodeOffset = .ok offset)
    (counted : table.nodeCount = .ok count) :
    (∃ message, table.nodes = malformed message) ∨ table.nodes = .ok ⟨offset.toNat, count⟩ := by
  rw [nodes, placed, Parse.ok_bind]
  split
  · exact Or.inl ⟨_, rfl⟩
  · rw [counted]
    exact Or.inr rfl

end IortTable

/-- Every accepted IORT table is gone through without a panic. The iteration over its nodes is refused,
or gives at most as many as are counted, in consecutive spans, each parsed from its own bytes; and the
arrays of a node are refused, or give as many elements as are declared, from the node's bytes. -/
theorem iort_parsing_total (validate : SdtValidation) (bytes : List UInt8) (table : IortTable)
    (accepted : IortTable.parse validate bytes = .ok table) :
    (table.sdt = window bytes 0 (fieldLE bytes 4 4) ∧ table.sdt.length = fieldLE bytes 4 4 ∧
      IORT_TABLE_MIN_LENGTH ≤ table.sdt.length ∧ table.sdt.length ≤ bytes.length) ∧
    ∃ offset count, table.nodeOffset = .ok offset ∧ table.nodeCount = .ok count ∧
      ((∃ message, table.nodes = malformed message) ∨
        table.nodes = .ok ⟨offset.toNat, count⟩ ∧
        ∃ items, table.nodeItems ⟨offset.toNat, count⟩ = .ok items ∧ items.length ≤ count.toNat ∧
          table.Tiled offset.toNat count.toNat items ∧
          ∀ node, .ok node ∈ items → table.Frames node.header.offset ∧
            node.header.length = table.declared node.header.offset ∧ table.ReadsNode node) ∧
      (∀ place, table.Frames place → ReadsWithin place (place + table.declared place) table
        fun table => IortTable.parseNode table place) ∧
      ∀ place header, table.parseNodeHeader place = .ok header → header.kind = .namedComponent →
        ¬header.HoldsName → ∃ message, table.parseNode place = malformed message := by
  obtain ⟨same, fits⟩ := FirmwareTable.parse_ok accepted
  have length : table.sdt.length = fieldLE bytes 4 4 := by
    rw [same, window_length (by omega)]
  refine ⟨⟨same, length, table.long, by omega⟩, _, _, table.nodeOffset_eq, table.nodeCount_eq, ?_,
    fun place frames => IortTable.parseNode_within frames,
    fun place header headed => IortTable.parseNode_refuses headed⟩
  rcases IortTable.nodes_opened table.nodeOffset_eq table.nodeCount_eq with refused | opened
  · exact Or.inl refused
  · obtain ⟨items, drained, tiled⟩ := IortTable.drain_nodes rfl (Nat.lt_succ_self _)
    refine Or.inr ⟨opened, items, drained, tiled.length_le, tiled, ?_⟩
    intro node member
    obtain ⟨offset, frames, parsed⟩ := tiled.ok_mem member
    obtain ⟨rfl, size, _, body⟩ := IortTable.parseNode_header table offset node parsed
    refine ⟨frames, size, IortTable.readsNode ?_ body⟩
    rw [IortNodeHeader.endOffset, size]
    exact frames.fits

def iortSampleBytes : List UInt8 :=
  IORT.signature ++ [128, 0, 0, 0] ++ List.replicate 28 0 ++ [2, 0, 0, 0, 48, 0, 0, 0, 0, 0, 0, 0] ++
    [0, 24, 0, 1, 0, 0, 0, 0, 0, 0, 0, 0, 0, 0, 0, 0, 1, 0, 0, 0, 0, 0, 0, 0] ++
    [2, 56, 0, 3, 1, 0, 0, 0, 1, 0, 0, 0, 36, 0, 0, 0] ++ List.replicate 20 0 ++
    [0, 0, 0, 0, 255, 255, 0, 0, 0, 0, 0, 0, 48, 0, 0, 0, 0, 0, 0, 0]

def iortSample : IortTable := ⟨iortSampleBytes, by decide +kernel, by decide +kernel⟩

theorem iort_parsing_total_sample :
    IortTable.parse (fun _ => .ok ()) iortSampleBytes = .ok iortSample ∧
      ∃ items, iortSample.nodeItems ⟨48, 2⟩ = .ok items ∧ iortSample.Tiled 48 2 items ∧
        ∀ node, .ok node ∈ items → iortSample.ReadsNode node := by
  have accepted : IortTable.parse (fun _ => .ok ()) iortSampleBytes = .ok iortSample := by
    decide +kernel
  obtain ⟨_, offset, count, placed, counted, opened, _⟩ :=
    iort_parsing_total (fun _ => .ok ()) iortSampleBytes iortSample accepted
  have starts : iortSample.nodeOffset = .ok 48 := by decide +kernel
  have counts : iortSample.nodeCount = .ok 2 := by decide +kernel
  obtain rfl := Except.ok.inj (starts.symm.trans placed)
  obtain rfl := Except.ok.inj (counts.symm.trans counted)
  have opens : iortSample.nodes = .ok ⟨48, 2⟩ := by decide +kernel
  rcases opened with ⟨message, refused⟩ | ⟨_, items, drained, _, tiled, reads⟩
  · rw [opens] at refused
    cases refused
  · exact ⟨accepted, items, drained, tiled, fun node member => (reads node member).2.2⟩

end Iommu
