import Iommu.Iort.Queries

/-!
The loops of the queries as loops over lists: of the nodes of a table, when they all parse,
and of the ID mappings of a node, which all can be read once their array lies in the node.
-/

namespace Iommu

open MachineWord FirmwareTable

namespace IortTable

def Holds (table : IortTable) (nodes : List IortNode) : Prop :=
  ∃ cursor, table.nodes = .ok cursor ∧ table.nodeItems cursor = .ok (nodes.map .ok)

def Maps (table : IortTable) (header : IortNodeHeader) (mappings : List IortIdMapping) : Prop :=
  ∃ cursor, idMappingsForHeader header = .ok cursor ∧
    cursor.items IORT_ID_MAPPING_LENGTH table.readIdMapping = .ok (mappings.map .ok)

def stepMappings (kind : IortNodeKind) (inputId : UInt32) : List IortIdMapping →
    Option IortSingleStepTranslation → Option IortSingleStepTranslation
  | [], fallback => fallback
  | mapping :: rest, fallback =>
      match stepMapping kind inputId mapping fallback with
      | .done found => found
      | .yield found => stepMappings kind inputId rest found

variable {table : IortTable} {nodes : List IortNode} {node : IortNode} {header : IortNodeHeader}
  {mappings : List IortIdMapping} {Found : Type}

theorem forNodes_eq (holds : table.Holds nodes)
    (body : IortNode → Found → Parse IortError (ForInStep Found)) (found : Found) :
    table.forNodes body found = forIn nodes found body := by
  obtain ⟨cursor, opened, drained⟩ := holds
  rw [forNodes, opened, Parse.ok_bind, forItems_of_drain drained, forIn_onResult]

theorem forIdMappings_eq (maps : table.Maps header mappings)
    (body : IortIdMapping → Found → Parse IortError (ForInStep Found)) (found : Found) :
    table.forIdMappings (idMappingsForHeader header) body found = forIn mappings found body := by
  obtain ⟨cursor, opened, drained⟩ := maps
  rw [forIdMappings, opened, Parse.ok_bind, forItems_of_drain drained, forIn_onResult]

theorem readIdMapping_inside {place : Nat}
    (inside : place + IORT_ID_MAPPING_LENGTH ≤ table.sdt.length) :
    ∃ mapping, table.readIdMapping place = .ok mapping := by
  have size : IORT_ID_MAPPING_LENGTH = 20 := rfl
  rw [readIdMapping, readU32_inside (by omega), readU32_inside (by omega), readU32_inside (by omega),
    readU32_inside (by omega), readU32_inside (by omega)]
  exact ⟨_, rfl⟩

theorem idMappings_inside (fits : header.endOffset ≤ table.sdt.length) {cursor : ArrayCursor}
    (opened : idMappingsForHeader header = .ok cursor) :
    cursor.offset + IORT_ID_MAPPING_LENGTH * cursor.remaining.toNat ≤ header.endOffset := by
  rw [idMappingsForHeader] at opened
  split at opened
  · rw [emptyArray_eq fits] at opened
    cases opened
    exact Nat.le_refl _
  · rw [arrayAt_eq fits _ _ (by decide)] at opened
    split at opened
    · next inside =>
      cases opened
      have within := inside.2
      rw [IortNodeHeader.endOffset]
      dsimp only
      omega
    · exact absurd ⟨_, opened⟩ malformed_ne_ok

theorem maps_of_opened (fits : header.endOffset ≤ table.sdt.length) {cursor : ArrayCursor}
    (opened : idMappingsForHeader header = .ok cursor) : ∃ mappings, table.Maps header mappings := by
  have inside := Nat.le_trans (idMappings_inside fits opened) fits
  obtain ⟨mappings, read⟩ := ArrayCursor.items_read (Nat.lt_of_le_of_lt inside table.length_lt_limit)
    fun place member => readIdMapping_inside
      (Nat.le_trans (ArrayCursor.place_inside member).2 inside)
  exact ⟨mappings, cursor, opened, read⟩

theorem maps_of_loop (fits : header.endOffset ≤ table.sdt.length)
    {body : IortIdMapping → Found → Parse IortError (ForInStep Found)} {found final : Found}
    (ran : table.forIdMappings (idMappingsForHeader header) body found = .ok final) :
    ∃ mappings, table.Maps header mappings := by
  obtain ⟨cursor, opened, _⟩ := Parse.bind_eq_ok.mp ran
  exact maps_of_opened fits opened

theorem Holds.tiled (holds : table.Holds nodes) : ∃ offset count, table.nodeOffset = .ok offset ∧
    table.nodeCount = .ok count ∧ table.Tiled offset.toNat count.toNat (nodes.map .ok) := by
  obtain ⟨cursor, opened, drained⟩ := holds
  refine ⟨_, _, table.nodeOffset_eq, table.nodeCount_eq, ?_⟩
  rcases nodes_opened table.nodeOffset_eq table.nodeCount_eq with ⟨message, refused⟩ | started
  · rw [opened] at refused
    exact absurd ⟨_, refused.symm⟩ malformed_ne_ok
  · obtain rfl := Except.ok.inj (opened.symm.trans started)
    obtain ⟨items, found, tiled⟩ := table.drain_nodes rfl (Nat.lt_succ_self _)
    obtain rfl := Except.ok.inj (drained.symm.trans found)
    exact tiled

theorem Tiled.complete {start count : Nat} (tiled : table.Tiled start count (nodes.map .ok)) :
    nodes.length = count := by
  obtain ⟨spans, outcomes, stop, broken, built, _, _, _, whole, _⟩ := tiled
  cases broken with
  | some message =>
      have failed : .error (.malformed message) ∈ nodes.map (Except.ok (ε := IortError)) := by
        rw [built]
        simp
      simp at failed
  | none =>
      have length := congrArg List.length built
      rw [← whole rfl]
      simpa using length

theorem Tiled.mem_from {start count : Nat} {items : List (Except IortError IortNode)}
    (tiled : table.Tiled start count items) (member : .ok node ∈ items) :
    start ≤ node.header.offset ∧ node.header.endOffset ≤ table.sdt.length ∧
      node.header.offset < table.sdt.length ∧ table.parseBody node.header = .ok node := by
  obtain ⟨spans, outcomes, stop, broken, rfl, tiles, framed, decodes, _, _⟩ := tiled
  rcases List.mem_append.mp member with parsed | cut
  · obtain ⟨span, among, decoded⟩ := exists_of_forall₂ decodes parsed
    obtain ⟨placed, size, frames, body⟩ := parseNode_header table span.start node decoded
    have least : 16 ≤ table.declared span.start := frames.large
    have fits := frames.fits
    rw [IortNodeHeader.endOffset, placed, size]
    exact ⟨tiles.start_le span among, fits, by omega, body⟩
  · simp at cut

theorem Holds.complete (holds : table.Holds nodes) :
    ∃ count, table.nodeCount = .ok count ∧ count.toNat = nodes.length := by
  obtain ⟨offset, count, _, counted, tiled⟩ := holds.tiled
  exact ⟨count, counted, tiled.complete.symm⟩

theorem Holds.fits (holds : table.Holds nodes) (member : node ∈ nodes) :
    node.header.endOffset ≤ table.sdt.length := by
  obtain ⟨offset, count, _, _, tiled⟩ := holds.tiled
  exact (tiled.mem_from (List.mem_map_of_mem member)).2.1

theorem nodeByReference_eq (holds : table.Holds nodes) (reference : UInt32) :
    table.nodeByReference reference =
      .ok (nodes.find? fun node => node.header.offset = reference.toNat) := by
  obtain ⟨offset, count, placed, _, tiled⟩ := holds.tiled
  rw [nodeByReference, placed, Parse.ok_bind]
  split
  · next outside =>
    have absent : nodes.find? (fun node => node.header.offset = reference.toNat) = none := by
      rw [List.find?_eq_none]
      intro node member
      obtain ⟨low, _, high, _⟩ := tiled.mem_from (List.mem_map_of_mem member)
      simp only [decide_eq_true_iff]
      omega
    rw [absent]
    rfl
  · rw [forNodes_eq holds, ← forIn_find]
    simp only [decide_eq_true_iff]

theorem parseBody_rootComplex {root : IortRootComplex}
    (parsed : table.parseBody header = .ok (.rootComplex root)) : header.kind = .rootComplex := by
  rw [parseBody] at parsed
  split at parsed
  · obtain ⟨_, _, ⟨⟩⟩ := Parse.map_eq_ok.mp parsed
  · obtain ⟨_, _, ⟨⟩⟩ := Parse.map_eq_ok.mp parsed
  · next kind => exact kind
  · obtain ⟨_, _, ⟨⟩⟩ := Parse.map_eq_ok.mp parsed
  · obtain ⟨_, _, ⟨⟩⟩ := Parse.map_eq_ok.mp parsed
  · obtain ⟨_, _, ⟨⟩⟩ := Parse.map_eq_ok.mp parsed
  · obtain ⟨_, _, ⟨⟩⟩ := Parse.map_eq_ok.mp parsed
  · cases parsed

structure IsRoot (table : IortTable) (root : IortRootComplex) : Prop where
  kind : root.header.kind = .rootComplex
  fits : root.header.endOffset ≤ table.sdt.length
  counted : ∃ count, table.nodeCount = .ok count ∧ 0 < count.toNat

theorem rootComplexForSegment_found (table : IortTable) (segment : UInt16) :
    (table.rootComplexForSegment segment).Ensures fun found =>
      ∀ root, found = some root → table.IsRoot root := by
  refine .bind fun cursor opened => ?_
  rcases nodes_opened table.nodeOffset_eq table.nodeCount_eq with ⟨message, refused⟩ | started
  · rw [opened] at refused
    exact absurd ⟨_, refused.symm⟩ malformed_ne_ok
  obtain rfl := Except.ok.inj (opened.symm.trans started)
  obtain ⟨items, drained, tiled⟩ := table.drain_nodes rfl (Nat.lt_succ_self _)
  rw [forItems_of_drain drained]
  refine forIn_onResult_ensures (by simp) fun node member found before => ?_
  cases node with
  | rootComplex root =>
      refine .map (.pure ?_)
      obtain ⟨_, fits, _, body⟩ := tiled.mem_from member
      have filled := Nat.lt_of_lt_of_le (List.length_pos_of_mem member) tiled.length_le
      have here : table.IsRoot root := ⟨parseBody_rootComplex body, fits, _, table.nodeCount_eq, filled⟩
      intro other chosen
      rw [ForInStep.value] at chosen
      split at chosen
      · obtain rfl := Option.some.inj chosen
        exact here
      · exact before other chosen
  | _ => exact .map (.pure before)

theorem translateOnce_eq (maps : table.Maps node.header mappings) (id : UInt32) :
    table.translateOnce node id = .ok (stepMappings node.header.kind id mappings none) := by
  rw [translateOnce, idMappings, forIdMappings_eq maps]
  generalize (none : Option IortSingleStepTranslation) = fallback
  clear maps
  induction mappings generalizing fallback with
  | nil => rfl
  | cons mapping rest ih =>
      rw [List.forIn_cons, pure_bind, stepMappings]
      cases stepMapping node.header.kind id mapping fallback with
      | done found => rfl
      | yield found => exact ih found

end IortTable

end Iommu
