import Iommu.Iort.Translation

/-!
References between nodes. The iterator over the nodes goes from each node to the end of it, so the
nodes start at strictly increasing offsets and a reference is to one of them or to none.
-/

namespace Iommu

namespace IortTable

inductive Yields (table : IortTable) : ArrayCursor → Nat → IortNode → Prop
  | here {cursor after : ArrayCursor} {node : IortNode}
      (ran : table.nextNode cursor = (.ok (some node), after)) : Yields table cursor cursor.offset node
  | later {cursor after : ArrayCursor} {other node : IortNode} {offset : Nat}
      (ran : table.nextNode cursor = (.ok (some other), after))
      (rest : Yields table after offset node) : Yields table cursor offset node

/-- Going through the nodes gives the node at the offset. -/
def StartsAt (table : IortTable) (offset : Nat) (node : IortNode) : Prop :=
  ∃ cursor, table.nodes = .ok cursor ∧ table.Yields cursor offset node

structure InOrder (nodes : List IortNode) : Prop where
  behind : nodes.Pairwise fun first second => first.header.endOffset ≤ second.header.offset
  proper : ∀ node ∈ nodes, node.header.offset < node.header.endOffset

namespace InOrder

variable {nodes : List IortNode} {first second : IortNode}

theorem apart (ordered : InOrder nodes) (early : first ∈ nodes) (late : second ∈ nodes) :
    first = second ∨ first.header.endOffset ≤ second.header.offset ∨
      second.header.endOffset ≤ first.header.offset := by
  have behind := ordered.behind
  clear ordered
  induction behind with
  | nil => cases early
  | @cons head rest before _ ih =>
      rcases List.mem_cons.mp early with rfl | earlyLater
      · rcases List.mem_cons.mp late with rfl | lateLater
        · exact Or.inl rfl
        · exact Or.inr (Or.inl (before second lateLater))
      · rcases List.mem_cons.mp late with rfl | lateLater
        · exact Or.inr (Or.inr (before first earlyLater))
        · exact ih earlyLater lateLater

theorem unique (ordered : InOrder nodes) (early : first ∈ nodes) (late : second ∈ nodes)
    (same : first.header.offset = second.header.offset) : first = second := by
  have inside := ordered.proper first early
  have insideToo := ordered.proper second late
  rcases ordered.apart early late with equal | before | after
  · exact equal
  · omega
  · omega

theorem starts_increase (ordered : InOrder nodes) :
    (nodes.map fun node => node.header.offset).Pairwise (· < ·) := by
  rw [List.pairwise_map]
  refine ordered.behind.imp_of_mem fun early _ before => ?_
  exact Nat.lt_of_lt_of_le (ordered.proper _ early) before

end InOrder

variable {table : IortTable} {cursor after : ArrayCursor} {nodes : List IortNode} {node : IortNode}

theorem nextNode_gives (ran : table.nextNode cursor = (.ok (some node), after)) :
    node.header.offset = cursor.offset ∧ node.header.endOffset = after.offset ∧
      node.header.offset < node.header.endOffset := by
  by_cases exhausted : cursor.remaining = 0
  · rw [nextNode_done exhausted] at ran
    cases ran
  · rcases table.frames_or_breaks cursor.offset with frames | ⟨message, breaks⟩
    · rw [nextNode_frames exhausted frames] at ran
      obtain ⟨parsed, rfl⟩ := Prod.mk.inj ran
      obtain ⟨found, decoded, same⟩ := Parse.map_eq_ok.mp parsed
      obtain rfl := Option.some.inj same
      obtain ⟨placed, size, _, _⟩ := parseNode_header table cursor.offset found decoded
      have large : 16 ≤ table.declared cursor.offset := frames.large
      rw [IortNodeHeader.endOffset, placed, size]
      exact ⟨rfl, rfl, by omega⟩
    · rw [nextNode_broken exhausted breaks] at ran
      cases ran

theorem yields_iff {offset : Nat} {other : IortNode}
    (ran : table.nextNode cursor = (.ok (some node), after)) :
    table.Yields cursor offset other ↔
      offset = cursor.offset ∧ other = node ∨ table.Yields after offset other := by
  constructor
  · intro yields
    cases yields with
    | here again =>
        rw [ran] at again
        obtain ⟨same, _⟩ := Prod.mk.inj again
        exact Or.inl ⟨rfl, (Option.some.inj (Except.ok.inj same)).symm⟩
    | later again yields =>
        rw [ran] at again
        obtain ⟨_, rfl⟩ := Prod.mk.inj again
        exact Or.inr yields
  · rintro (⟨rfl, rfl⟩ | yields)
    · exact .here ran
    · exact .later ran yields

theorem drained_nodes {rounds : Nat}
    (drained : drain table.nextNode rounds cursor = .ok (nodes.map .ok)) :
    (∀ node ∈ nodes, cursor.offset ≤ node.header.offset) ∧ InOrder nodes ∧
      ∀ offset node, table.Yields cursor offset node ↔
        node ∈ nodes ∧ node.header.offset = offset := by
  induction nodes generalizing cursor rounds with
  | nil =>
      obtain ⟨after, ended⟩ := drain_eq_nil drained
      refine ⟨by simp, ⟨List.Pairwise.nil, by simp⟩, fun offset node => ?_⟩
      constructor
      · intro yields
        cases yields with
        | here ran =>
            rw [ended] at ran
            cases ran
        | later ran _ =>
            rw [ended] at ran
            cases ran
      · rintro ⟨absent, _⟩
        cases absent
  | cons first rest ih =>
      obtain ⟨fewer, after, ran, others⟩ := drain_eq_cons drained
      obtain ⟨placed, ends, proper⟩ := nextNode_gives ran
      obtain ⟨behind, ordered, found⟩ := ih others
      refine ⟨?_, ?_, fun offset node => ?_⟩
      · intro node member
        rcases List.mem_cons.mp member with rfl | later
        · exact Nat.le_of_eq placed.symm
        · have beyond := behind node later
          omega
      · refine ⟨List.Pairwise.cons (fun node later => ?_) ordered.behind,
          List.forall_mem_cons.mpr ⟨proper, ordered.proper⟩⟩
        rw [ends]
        exact behind node later
      · rw [yields_iff ran, found, List.mem_cons]
        constructor
        · rintro (⟨rfl, rfl⟩ | ⟨later, same⟩)
          · exact ⟨Or.inl rfl, placed⟩
          · exact ⟨Or.inr later, same⟩
        · rintro ⟨rfl | later, same⟩
          · exact Or.inl ⟨same.symm.trans placed, rfl⟩
          · exact Or.inr ⟨later, same⟩

theorem Holds.inOrder (holds : table.Holds nodes) : InOrder nodes ∧
    ∀ offset node, table.StartsAt offset node ↔ node ∈ nodes ∧ node.header.offset = offset := by
  obtain ⟨cursor, opened, drained⟩ := holds
  obtain ⟨_, ordered, found⟩ := drained_nodes drained
  refine ⟨ordered, fun offset node => ?_⟩
  rw [← found]
  constructor
  · rintro ⟨again, openedAgain, yields⟩
    obtain rfl := Except.ok.inj (opened.symm.trans openedAgain)
    exact yields
  · intro yields
    exact ⟨cursor, opened, yields⟩

theorem Holds.nodeOffset_ge (holds : table.Holds nodes) :
    ∃ offset, table.nodeOffset = .ok offset ∧ IORT_TABLE_MIN_LENGTH ≤ offset.toNat := by
  obtain ⟨cursor, opened, _⟩ := holds
  refine ⟨_, table.nodeOffset_eq, ?_⟩
  rw [IortTable.nodes, table.nodeOffset_eq, Parse.ok_bind] at opened
  split at opened
  · exact absurd ⟨_, opened⟩ malformed_ne_ok
  · next inside => exact Nat.le_of_not_lt fun before => inside (Or.inl before)

theorem nodeByReference_eq_some (holds : table.Holds nodes) (reference : UInt32) :
    table.nodeByReference reference = .ok (some node) ↔ table.StartsAt reference.toNat node := by
  obtain ⟨ordered, starts⟩ := holds.inOrder
  rw [nodeByReference_eq holds, starts, Except.ok.injEq]
  constructor
  · intro found
    exact ⟨List.mem_of_find?_eq_some found, by simpa using List.find?_some found⟩
  · rintro ⟨member, placed⟩
    cases found : nodes.find? fun node => node.header.offset = reference.toNat with
    | none =>
        have absent := List.find?_eq_none.mp found node member
        simp [placed] at absent
    | some other =>
        have same : other.header.offset = reference.toNat := by simpa using List.find?_some found
        rw [ordered.unique (List.mem_of_find?_eq_some found) member (same.trans placed.symm)]

theorem nodeByReference_eq_none (holds : table.Holds nodes) {reference : UInt32}
    (absent : ¬∃ node, table.StartsAt reference.toNat node) :
    table.nodeByReference reference = .ok none := by
  cases found : nodes.find? fun node => node.header.offset = reference.toNat with
  | none => rw [nodeByReference_eq holds, found]
  | some node =>
      have resolved : table.nodeByReference reference = .ok (some node) := by
        rw [nodeByReference_eq holds, found]
      exact absurd ⟨node, (nodeByReference_eq_some holds reference).mp resolved⟩ absent

end IortTable

/-- Where all nodes parse, a reference is to the one node that the iteration gives at its offset, and to none
where no node starts there: in the midst of a node, before the nodes, or behind the last one. -/
theorem node_references_resolve (table : IortTable) (nodes : List IortNode)
    (holds : table.Holds nodes) (reference : UInt32) :
    (∀ node, table.nodeByReference reference = .ok (some node) ↔
      table.StartsAt reference.toNat node) ∧
    (∀ first second, table.StartsAt reference.toNat first →
      table.StartsAt reference.toNat second → first = second) ∧
    (∀ node, table.StartsAt reference.toNat node →
      node ∈ nodes ∧ node.header.offset = reference.toNat) ∧
    (∀ node ∈ nodes, table.StartsAt node.header.offset node) ∧
    (nodes.map fun node => node.header.offset).Pairwise (· < ·) ∧
    ((¬∃ node, table.StartsAt reference.toNat node) → table.nodeByReference reference = .ok none) ∧
    (∀ node ∈ nodes, node.header.offset < reference.toNat →
      reference.toNat < node.header.endOffset → table.nodeByReference reference = .ok none) ∧
    (∃ offset, table.nodeOffset = .ok offset ∧ IORT_TABLE_MIN_LENGTH ≤ offset.toNat ∧
      (reference < offset → table.nodeByReference reference = .ok none)) ∧
    ((∀ node ∈ nodes, node.header.endOffset ≤ reference.toNat) →
      table.nodeByReference reference = .ok none) := by
  obtain ⟨ordered, starts⟩ := holds.inOrder
  refine ⟨fun node => IortTable.nodeByReference_eq_some holds reference, ?_, ?_, ?_,
    ordered.starts_increase, IortTable.nodeByReference_eq_none holds, ?_, ?_, ?_⟩
  · intro first second here there
    obtain ⟨early, placed⟩ := (starts _ _).mp here
    obtain ⟨late, placedToo⟩ := (starts _ _).mp there
    exact ordered.unique early late (placed.trans placedToo.symm)
  · exact fun node => (starts _ _).mp
  · exact fun node member => (starts _ _).mpr ⟨member, rfl⟩
  · intro node member low high
    apply IortTable.nodeByReference_eq_none holds
    rintro ⟨other, found⟩
    obtain ⟨among, placed⟩ := (starts _ _).mp found
    rcases ordered.apart among member with rfl | before | after
    · omega
    · have inside := ordered.proper other among
      omega
    · omega
  · obtain ⟨offset, placed, behind⟩ := holds.nodeOffset_ge
    refine ⟨offset, placed, behind, fun before => ?_⟩
    rw [IortTable.nodeByReference, placed, Parse.ok_bind,
      if_pos (Or.inl (UInt32.lt_iff_toNat_lt.mp before))]
    rfl
  · intro past
    apply IortTable.nodeByReference_eq_none holds
    rintro ⟨other, found⟩
    obtain ⟨among, placed⟩ := (starts _ _).mp found
    have beyond := past other among
    have inside := ordered.proper other among
    omega

theorem node_references_resolve_sample :
    iortSample.nodeByReference 48 = .ok (some iortSampleGroup) ∧
      iortSample.nodeByReference 60 = .ok none := by
  have holds := iortSample_wellFormed.holds
  obtain ⟨resolves, _, _, stands, _⟩ := node_references_resolve iortSample _ holds 48
  obtain ⟨_, _, _, _, _, _, inside, _⟩ := node_references_resolve iortSample _ holds 60
  refine ⟨(resolves iortSampleGroup).mpr (stands iortSampleGroup (by simp)),
    inside iortSampleGroup (by simp) ?_ ?_⟩
  · simp [iortSampleGroup, IortNode.header]
  · simp [iortSampleGroup, IortNode.header, IortNodeHeader.endOffset]

end Iommu
