import Iommu.Iort.Requesters
import Mathlib.Data.List.Pairwise

/-!
Which of the mappings of a node takes an ID on: the first that takes it other than at the
end of its range, or else the last that takes it there.
-/

namespace Iommu

open MachineWord

namespace IortIdMapping

variable (mapping : IortIdMapping) (kind : IortNodeKind) (id : UInt32)

def gives : Option IortSingleStepTranslation :=
  (mapping.translateForNodeKind kind id).map fun output => ⟨output, mapping.outputReference⟩

/-- The ID is where a step goes on to look for another mapping. -/
def AtEnd : Prop :=
  0 < mapping.idCount ∧ id = saturatingAdd32 mapping.inputBase mapping.idCount

instance : Decidable (mapping.AtEnd id) := inferInstanceAs (Decidable (_ ∧ _))

def settles : Bool := (mapping.gives kind id).isSome ∧ ¬mapping.AtEnd id

end IortIdMapping

def decisiveMapping (kind : IortNodeKind) (id : UInt32) (mappings : List IortIdMapping) :
    Option IortIdMapping :=
  (mappings.find? fun mapping => mapping.settles kind id).or
    (mappings.filter fun mapping => (mapping.gives kind id).isSome).getLast?

namespace IortTable

variable {kind : IortNodeKind} {id : UInt32} {mapping : IortIdMapping}

theorem stepMapping_eq (fallback : Option IortSingleStepTranslation) :
    stepMapping kind id mapping fallback =
      if mapping.settles kind id then .done (mapping.gives kind id)
      else .yield ((mapping.gives kind id).or fallback) := by
  rw [stepMapping, IortIdMapping.settles, IortIdMapping.gives]
  cases mapping.translateForNodeKind kind id with
  | none => rfl
  | some output =>
      by_cases ending : mapping.AtEnd id
      · have same : 0 < mapping.idCount ∧
            id = saturatingAdd32 mapping.inputBase mapping.idCount := ending
        simp [ending, if_pos same]
      · have apart : ¬(0 < mapping.idCount ∧
            id = saturatingAdd32 mapping.inputBase mapping.idCount) := ending
        simp [ending, if_neg apart]

theorem stepMappings_eq (mappings : List IortIdMapping)
    (fallback : Option IortSingleStepTranslation) :
    stepMappings kind id mappings fallback =
      match decisiveMapping kind id mappings with
      | some mapping => mapping.gives kind id
      | none => fallback := by
  induction mappings generalizing fallback with
  | nil => rfl
  | cons mapping rest ih =>
      rw [stepMappings, stepMapping_eq, decisiveMapping, List.find?_cons]
      cases settled : mapping.settles kind id with
      | true => rfl
      | false =>
          rw [if_neg Bool.false_ne_true]
          dsimp only
          rw [ih, decisiveMapping]
          cases rest.find? fun mapping => mapping.settles kind id with
          | some found => rfl
          | none =>
              simp only [Option.none_or]
              cases given : mapping.gives kind id with
              | none => rw [List.filter_cons_of_neg (by simp [given]), Option.none_or]
              | some translation =>
                  rw [List.filter_cons_of_pos (by simp [given]), List.getLast?_cons, Option.some_or]
                  cases (rest.filter fun mapping => (mapping.gives kind id).isSome).getLast? with
                  | none => exact given.symm
                  | some last => rfl

end IortTable

namespace IortIdMapping

variable (mapping : IortIdMapping)

def lastId : Nat := mapping.inputBase.toNat + mapping.idCount.toNat

def EndsAt (id : Nat) : Prop := 0 < mapping.idCount.toNat ∧ id = mapping.lastId

/-- The ID is in the range, and not the last of several. -/
def Covers (id : Nat) : Prop :=
  mapping.inputBase.toNat ≤ id ∧ id ≤ mapping.lastId ∧ ¬mapping.EndsAt id

def translated (id : Nat) : Option IortSingleStepTranslation :=
  let output := mapping.outputBase.toNat + (id - mapping.inputBase.toNat)
  if output < 2 ^ 32 then some ⟨.ofNat output, mapping.outputReference⟩ else none

def MeetsAtEnd (first second : IortIdMapping) : Prop :=
  ∀ id, first.inputBase.toNat ≤ id → id ≤ first.lastId → second.inputBase.toNat ≤ id →
    id ≤ second.lastId → first.EndsAt id ∧ id = second.inputBase.toNat ∨
      second.EndsAt id ∧ id = first.inputBase.toNat

instance (id : Nat) : Decidable (mapping.EndsAt id) := inferInstanceAs (Decidable (_ ∧ _))

instance (id : Nat) : Decidable (mapping.Covers id) := inferInstanceAs (Decidable (_ ∧ _))

variable {mapping}

instance : Std.Symm MeetsAtEnd :=
  ⟨fun _ _ meets id low high otherLow otherHigh => (meets id otherLow otherHigh low high).symm⟩

theorem atEnd_iff (bounded : mapping.lastId < 2 ^ 32) (id : UInt32) :
    mapping.AtEnd id ↔ mapping.EndsAt id.toNat := by
  have sum : (mapping.inputBase + mapping.idCount).toNat = mapping.lastId := by
    rw [UInt32.toNat_add]
    exact Nat.mod_eq_of_lt bounded
  have range : saturatingAdd32 mapping.inputBase mapping.idCount =
      mapping.inputBase + mapping.idCount := if_pos bounded
  rw [AtEnd, EndsAt, range, UInt32.lt_iff_toNat_lt, ← UInt32.toNat_inj, sum]
  exact Iff.rfl

theorem gives_eq (several : mapping.isSingleMapping = false) (bounded : mapping.lastId < 2 ^ 32)
    (kind : IortNodeKind) (id : UInt32) :
    mapping.gives kind id =
      if mapping.inputBase.toNat ≤ id.toNat ∧ id.toNat ≤ mapping.lastId then
        mapping.translated id.toNat
      else none := by
  have sum : (mapping.inputBase + mapping.idCount).toNat = mapping.lastId := by
    rw [UInt32.toNat_add]
    exact Nat.mod_eq_of_lt bounded
  rw [gives, translateForNodeKind, if_neg (by simp [several]), checkedAdd32_eq_some.mpr sum.symm,
    Option.bind_eq_bind, Option.bind_some]
  simp only [UInt32.lt_iff_toNat_lt, sum]
  by_cases inside : mapping.inputBase.toNat ≤ id.toNat ∧ id.toNat ≤ mapping.lastId
  · have ordered := UInt32.le_iff_toNat_le.mpr inside.1
    have difference := UInt32.toNat_sub_of_le _ _ ordered
    rw [if_pos inside, if_neg (by omega), checkedSub32, if_pos ordered, Option.bind_some,
      checkedAdd32, difference, translated]
    split
    · next fits =>
      have same : mapping.outputBase + (id - mapping.inputBase) =
          .ofNat (mapping.outputBase.toNat + (id.toNat - mapping.inputBase.toNat)) := by
        rw [← UInt32.toNat_inj, UInt32.toNat_add, difference, UInt32.toNat_ofNat']
      rw [Option.map_some, same]
    · rfl
  · rw [if_neg inside, if_pos (by omega)]
    rfl

end IortIdMapping

/-- Mappings of ranges that are disjoint but for the end of one where another begins. -/
structure DisjointButEnds (mappings : List IortIdMapping) : Prop where
  several : ∀ mapping ∈ mappings, mapping.isSingleMapping = false
  bounded : ∀ mapping ∈ mappings, mapping.lastId < 2 ^ 32
  apart : mappings.Pairwise IortIdMapping.MeetsAtEnd

/-- What a step is to give for an ID: by the mapping that covers it, or else by the one that it is the
last ID of. -/
structure StepsTo (mappings : List IortIdMapping) (id : Nat)
    (result : Option IortSingleStepTranslation) : Prop where
  covered : ∀ mapping ∈ mappings, mapping.Covers id → ∀ translation,
    mapping.translated id = some translation → result = some translation
  ended : (∀ mapping ∈ mappings, mapping.Covers id → mapping.translated id = none) →
    ∀ mapping ∈ mappings, mapping.EndsAt id → result = mapping.translated id
  stuck : (∀ mapping ∈ mappings, mapping.Covers id → mapping.translated id = none) →
    (∀ mapping ∈ mappings, ¬mapping.EndsAt id) → result = none

namespace DisjointButEnds

variable {mappings : List IortIdMapping} {first second : IortIdMapping} {id : Nat}

theorem meets (disjoint : DisjointButEnds mappings) (firstMember : first ∈ mappings)
    (secondMember : second ∈ mappings) (different : first ≠ second) : first.MeetsAtEnd second :=
  disjoint.apart.forall firstMember secondMember different

theorem covers_unique (disjoint : DisjointButEnds mappings) (firstMember : first ∈ mappings)
    (secondMember : second ∈ mappings) (one : first.Covers id) (other : second.Covers id) :
    first = second := by
  by_contra different
  rcases disjoint.meets firstMember secondMember different id one.1 one.2.1 other.1 other.2.1 with
    ⟨ends, _⟩ | ⟨ends, _⟩
  · exact one.2.2 ends
  · exact other.2.2 ends

theorem ends_unique (disjoint : DisjointButEnds mappings) (firstMember : first ∈ mappings)
    (secondMember : second ∈ mappings) (one : first.EndsAt id) (other : second.EndsAt id) :
    first = second := by
  by_contra different
  obtain ⟨firstMany, firstLast⟩ := one
  obtain ⟨secondMany, secondLast⟩ := other
  have meets := disjoint.meets firstMember secondMember different id
  simp only [IortIdMapping.EndsAt, IortIdMapping.lastId] at meets firstLast secondLast
  omega

end DisjointButEnds

namespace IortTable

variable {kind : IortNodeKind} {id : UInt32} {mappings : List IortIdMapping}

theorem gives_of_covers (disjoint : DisjointButEnds mappings) {mapping : IortIdMapping}
    (member : mapping ∈ mappings) (covers : mapping.Covers id.toNat) :
    mapping.gives kind id = mapping.translated id.toNat := by
  rw [IortIdMapping.gives_eq (disjoint.several mapping member) (disjoint.bounded mapping member),
    if_pos ⟨covers.1, covers.2.1⟩]

theorem gives_of_ends (disjoint : DisjointButEnds mappings) {mapping : IortIdMapping}
    (member : mapping ∈ mappings) (ends : mapping.EndsAt id.toNat) :
    mapping.gives kind id = mapping.translated id.toNat := by
  have last := ends.2
  rw [IortIdMapping.gives_eq (disjoint.several mapping member) (disjoint.bounded mapping member),
    if_pos ⟨last ▸ Nat.le_add_right _ _, Nat.le_of_eq last⟩]

theorem gives_cases (disjoint : DisjointButEnds mappings) {mapping : IortIdMapping}
    (member : mapping ∈ mappings) (gives : mapping.gives kind id ≠ none) :
    mapping.Covers id.toNat ∨ mapping.EndsAt id.toNat := by
  rw [IortIdMapping.gives_eq (disjoint.several mapping member)
    (disjoint.bounded mapping member)] at gives
  split at gives
  · next inside =>
    by_cases ends : mapping.EndsAt id.toNat
    · exact Or.inr ends
    · exact Or.inl ⟨inside.1, inside.2, ends⟩
  · exact absurd rfl gives

theorem settles_iff (disjoint : DisjointButEnds mappings) {mapping : IortIdMapping}
    (member : mapping ∈ mappings) :
    mapping.settles kind id = true ↔
      mapping.Covers id.toNat ∧ mapping.translated id.toNat ≠ none := by
  have ending := IortIdMapping.atEnd_iff (disjoint.bounded mapping member) id
  rw [IortIdMapping.settles, decide_eq_true_iff, ending, Option.isSome_iff_ne_none]
  constructor
  · rintro ⟨given, apart⟩
    have covers := (gives_cases disjoint member given).resolve_right apart
    exact ⟨covers, gives_of_covers disjoint member covers ▸ given⟩
  · rintro ⟨covers, given⟩
    exact ⟨(gives_of_covers disjoint member covers).symm ▸ given, covers.2.2⟩

theorem stepMappings_stepsTo (disjoint : DisjointButEnds mappings) :
    StepsTo mappings id.toNat (stepMappings kind id mappings none) := by
  have unsettled : (∀ mapping ∈ mappings, mapping.Covers id.toNat →
      mapping.translated id.toNat = none) →
      mappings.find? (fun mapping => mapping.settles kind id) = none := by
    intro nothing
    rw [List.find?_eq_none]
    intro mapping member settled
    obtain ⟨covers, given⟩ := (settles_iff disjoint member).mp settled
    exact given (nothing mapping member covers)
  have ending : (∀ mapping ∈ mappings, mapping.Covers id.toNat →
      mapping.translated id.toNat = none) → ∀ mapping ∈ mappings, mapping.gives kind id ≠ none →
      mapping.EndsAt id.toNat := by
    intro nothing mapping member given
    rcases gives_cases disjoint member given with covers | ends
    · rw [gives_of_covers disjoint member covers] at given
      exact absurd (nothing mapping member covers) given
    · exact ends
  rw [stepMappings_eq, decisiveMapping]
  constructor
  · intro mapping member covers translation given
    have settled : mapping.settles kind id = true :=
      (settles_iff disjoint member).mpr ⟨covers, by simp [given]⟩
    cases found : mappings.find? (fun mapping => mapping.settles kind id) with
    | none => exact absurd settled (List.find?_eq_none.mp found mapping member)
    | some other =>
        have among := List.mem_of_find?_eq_some found
        have otherSettles := (List.find?_eq_some_iff_append.mp found).1
        have otherCovers := ((settles_iff disjoint among).mp otherSettles).1
        obtain rfl := disjoint.covers_unique member among covers otherCovers
        exact (gives_of_covers disjoint member covers).trans given
  · intro nothing mapping member ends
    rw [unsettled nothing, Option.none_or]
    cases last : (mappings.filter fun mapping => (mapping.gives kind id).isSome).getLast? with
    | none =>
        have absent := List.filter_eq_nil_iff.mp (List.getLast?_eq_none_iff.mp last) mapping member
        rw [gives_of_ends disjoint member ends] at absent
        exact (Option.not_isSome_iff_eq_none.mp absent).symm
    | some other =>
        obtain ⟨among, given⟩ := List.mem_filter.mp (List.mem_of_getLast? last)
        have otherEnds := ending nothing other among (Option.isSome_iff_ne_none.mp given)
        obtain rfl := disjoint.ends_unique member among ends otherEnds
        exact gives_of_ends disjoint member ends
  · intro nothing apart
    have empty : (mappings.filter fun mapping => (mapping.gives kind id).isSome) = [] := by
      rw [List.filter_eq_nil_iff]
      intro mapping member given
      exact apart mapping member (ending nothing mapping member (Option.isSome_iff_ne_none.mp given))
    rw [unsettled nothing, empty]
    rfl

end IortTable

namespace StepsTo

variable {mappings : List IortIdMapping} {id : Nat} {first second : Option IortSingleStepTranslation}

theorem unique (one : StepsTo mappings id first) (other : StepsTo mappings id second) :
    first = second := by
  by_cases given : ∃ mapping ∈ mappings, mapping.Covers id ∧ mapping.translated id ≠ none
  · obtain ⟨mapping, member, covers, given⟩ := given
    obtain ⟨translation, same⟩ := Option.ne_none_iff_exists'.mp given
    rw [one.covered mapping member covers translation same,
      other.covered mapping member covers translation same]
  · push Not at given
    by_cases ends : ∃ mapping ∈ mappings, mapping.EndsAt id
    · obtain ⟨mapping, member, ends⟩ := ends
      rw [one.ended given mapping member ends, other.ended given mapping member ends]
    · push Not at ends
      rw [one.stuck given ends, other.stuck given ends]

theorem of_perm {reordered : List IortIdMapping} (permuted : mappings.Perm reordered)
    (steps : StepsTo mappings id first) : StepsTo reordered id first where
  covered mapping member := steps.covered mapping (permuted.mem_iff.mpr member)
  ended nothing mapping member :=
    steps.ended (fun other among => nothing other (permuted.mem_iff.mp among)) mapping
      (permuted.mem_iff.mpr member)
  stuck nothing apart :=
    steps.stuck (fun other among => nothing other (permuted.mem_iff.mp among))
      fun other among => apart other (permuted.mem_iff.mp among)

end StepsTo

theorem DisjointButEnds.of_perm {mappings reordered : List IortIdMapping}
    (permuted : mappings.Perm reordered) (disjoint : DisjointButEnds mappings) :
    DisjointButEnds reordered where
  several mapping member := disjoint.several mapping (permuted.mem_iff.mpr member)
  bounded mapping member := disjoint.bounded mapping (permuted.mem_iff.mpr member)
  apart := disjoint.apart.perm permuted fun meets => Std.Symm.symm _ _ meets

/-- Ranges that are disjoint but for the end of one where another begins translate each ID in one way,
however the array of a node orders them: by the mapping that covers it, or else by the one whose last ID
it is. -/
theorem mapping_order_irrelevant (table other : IortTable) (node moved : IortNode)
    (mappings reordered : List IortIdMapping) (maps : table.Maps node.header mappings)
    (mapsReordered : other.Maps moved.header reordered) (permuted : mappings.Perm reordered)
    (disjoint : DisjointButEnds mappings) (id : UInt32) :
    other.translateOnce moved id = table.translateOnce node id ∧
      ∃ result, table.translateOnce node id = .ok result ∧ StepsTo mappings id.toNat result := by
  have one : StepsTo mappings id.toNat (IortTable.stepMappings node.header.kind id mappings none) :=
    IortTable.stepMappings_stepsTo disjoint
  have two : StepsTo reordered id.toNat
      (IortTable.stepMappings moved.header.kind id reordered none) :=
    IortTable.stepMappings_stepsTo (disjoint.of_perm permuted)
  have same := (one.of_perm permuted).unique two
  rw [IortTable.translateOnce_eq maps, IortTable.translateOnce_eq mapsReordered, same]
  exact ⟨rfl, _, rfl, same ▸ one⟩

def iortPairRoot : IortNode :=
  .rootComplex ⟨⟨0, 0, 0⟩, 0, 0, 0, 0, ⟨.rootComplex, 3, 0, 2, 36, 48, 76⟩⟩

def iortAscending : IortTable :=
  ⟨rootTableBytes ([0, 0, 0, 0, 5, 0, 0, 0, 0, 1, 0, 0, 48, 0, 0, 0, 0, 0, 0, 0] ++
      [5, 0, 0, 0, 4, 0, 0, 0, 0, 2, 0, 0, 48, 0, 0, 0, 0, 0, 0, 0]),
    by decide +kernel, by decide +kernel⟩

def iortDescending : IortTable :=
  ⟨rootTableBytes ([5, 0, 0, 0, 4, 0, 0, 0, 0, 2, 0, 0, 48, 0, 0, 0, 0, 0, 0, 0] ++
      [0, 0, 0, 0, 5, 0, 0, 0, 0, 1, 0, 0, 48, 0, 0, 0, 0, 0, 0, 0]),
    by decide +kernel, by decide +kernel⟩

theorem mapping_order_irrelevant_sample :
    iortDescending.translateOnce iortPairRoot 5 = iortAscending.translateOnce iortPairRoot 5 ∧
      iortAscending.translateOnce iortPairRoot 5 = .ok (some ⟨0x200, 48⟩) := by
  have disjoint : DisjointButEnds [⟨0, 5, 0x100, 48, 0⟩, ⟨5, 4, 0x200, 48, 0⟩] := by
    refine ⟨by decide, by decide, List.pairwise_pair.mpr ?_⟩
    intro id low high otherLow otherHigh
    simp only [IortIdMapping.EndsAt, IortIdMapping.lastId, UInt32.reduceToNat] at *
    omega
  obtain ⟨same, result, stepped, steps⟩ := mapping_order_irrelevant iortAscending iortDescending
    iortPairRoot iortPairRoot [⟨0, 5, 0x100, 48, 0⟩, ⟨5, 4, 0x200, 48, 0⟩]
    [⟨5, 4, 0x200, 48, 0⟩, ⟨0, 5, 0x100, 48, 0⟩] ⟨⟨84, 2⟩, by decide, by decide +kernel⟩
    ⟨⟨84, 2⟩, by decide, by decide +kernel⟩ (List.Perm.swap _ _ _) disjoint 5
  have covered := steps.covered ⟨5, 4, 0x200, 48, 0⟩ (by simp) (by decide) ⟨0x200, 48⟩ (by decide)
  exact ⟨same, covered ▸ stepped⟩

theorem IortTable.gives_single {kind : IortNodeKind} {mapping : IortIdMapping}
    (allowed : kind.singleMappingAllowed = true) (single : mapping.isSingleMapping = true)
    (id : UInt32) :
    mapping.gives kind id = some ⟨mapping.outputBase, mapping.outputReference⟩ := by
  rw [IortIdMapping.gives, IortIdMapping.translateForNodeKind, if_pos single, if_pos allowed]
  rfl

/-- A single mapping in front takes an ID, unless the ID is at the end of the range that the mapping has
besides and one of the mappings behind it takes the ID elsewhere. -/
theorem single_mapping_applies_iff (table : IortTable) (node : IortNode) (mapping : IortIdMapping)
    (rest : List IortIdMapping) (maps : table.Maps node.header (mapping :: rest))
    (allowed : node.header.kind.singleMappingAllowed = true)
    (single : mapping.isSingleMapping = true) (id : UInt32) :
    table.translateOnce node id = .ok (some ⟨mapping.outputBase, mapping.outputReference⟩) ↔
      (mapping.AtEnd id → ∀ later, decisiveMapping node.header.kind id rest = some later →
        later.gives node.header.kind id = some ⟨mapping.outputBase, mapping.outputReference⟩) := by
  have given := IortTable.gives_single allowed single id
  rw [IortTable.translateOnce_eq maps, IortTable.stepMappings, IortTable.stepMapping_eq,
    IortIdMapping.settles, given]
  by_cases ending : mapping.AtEnd id
  · simp only [Option.isSome_some, ending, not_true_eq_false, and_false, decide_false,
      Bool.false_eq_true, if_false, Option.some_or, true_implies]
    rw [IortTable.stepMappings_eq]
    cases decisiveMapping node.header.kind id rest with
    | none => simp
    | some later => simp
  · simp [ending]

def iortSingleFirst : IortTable :=
  ⟨rootTableBytes ([0, 1, 0, 0, 0x20, 0, 0, 0, 0, 2, 0, 0, 48, 0, 0, 0, 1, 0, 0, 0] ++
      [0x20, 1, 0, 0, 0, 0, 0, 0, 0, 3, 0, 0, 48, 0, 0, 0, 0, 0, 0, 0]),
    by decide +kernel, by decide +kernel⟩

theorem iortSingleFirst_maps : iortSingleFirst.Maps iortPairRoot.header
    [⟨0x100, 0x20, 0x200, 48, 1⟩, ⟨0x120, 0, 0x300, 48, 0⟩] :=
  ⟨⟨84, 2⟩, by decide, by decide +kernel⟩

theorem single_mapping_applies_elsewhere :
    iortSingleFirst.translateOnce iortPairRoot 5 = .ok (some ⟨0x200, 48⟩) :=
  (single_mapping_applies_iff iortSingleFirst iortPairRoot ⟨0x100, 0x20, 0x200, 48, 1⟩
    [⟨0x120, 0, 0x300, 48, 0⟩] iortSingleFirst_maps rfl rfl 5).mpr fun ending => by
      exact absurd ending (by decide)

theorem single_mapping_overridden :
    ¬∀ (table : IortTable) (node : IortNode) (mapping : IortIdMapping) (rest : List IortIdMapping),
      table.Maps node.header (mapping :: rest) → node.header.kind.singleMappingAllowed = true →
        mapping.isSingleMapping = true → ∀ id, table.translateOnce node id =
          .ok (some ⟨mapping.outputBase, mapping.outputReference⟩) := by
  intro applies
  have taken := applies iortSingleFirst iortPairRoot _ _ iortSingleFirst_maps rfl rfl 0x120
  have stepped : iortSingleFirst.translateOnce iortPairRoot 0x120 = .ok (some ⟨0x300, 48⟩) := by
    decide +kernel
  rw [stepped] at taken
  cases taken

end Iommu
