import Iommu.Iort.Translation
import Iommu.Iort.Requesters

/-!
The IOMMU of a requester: a walk to an SMMUv3 first, and where it ends without one a walk to
an SMMU. The second walk is made only after the first came to the end of the path.
-/

namespace Iommu

open MachineWord FirmwareTable

namespace IortTable

variable (table : IortTable)

def pathStep (place : IortIdTranslation) : Option IortIdTranslation := (table.onward place).toOption.join

def IsIommu (place : IortIdTranslation) : Bool :=
  IsKind .smmu place || IsKind .smmuV3 place

def requesterStart (root : IortRootComplex) (requester : PciDevice) : IortIdTranslation :=
  ⟨.rootComplex root, requester.bdf.raw.toUInt32⟩

/-- The path ends within as many places, without a place of the kind. -/
def EndsWithout (target : IortNodeKind) (places : Nat) (start : IortIdTranslation) : Prop :=
  ∃ steps < places, ∃ last, Reaches (IsKind target) table.pathStep start steps last ∧
    IsKind target last = false ∧ table.onward last = .ok none

variable {table} {target : IortNodeKind} {start place : IortIdTranslation} {steps remaining : Nat}

theorem onward_of_pathStep {next : IortIdTranslation} (stepped : table.pathStep start = some next) :
    table.onward start = .ok (some next) := by
  rw [pathStep] at stepped
  cases moved : table.onward start with
  | error stop =>
      rw [moved] at stepped
      cases stepped
  | ok found =>
      rw [moved] at stepped
      exact congrArg Except.ok stepped

theorem mapIdLoop_reaches (reaches : Reaches (IsKind target) table.pathStep start steps place)
    (extra : Nat) : table.mapIdLoop target (steps + extra) start.node start.id =
      table.mapIdLoop target extra place.node place.id := by
  induction steps generalizing start with
  | zero =>
      obtain rfl := Option.some.inj reaches.there
      rw [Nat.zero_add]
  | succ steps ih =>
      obtain ⟨skipped, next, stepped, rest⟩ := reaches.step
      rw [Nat.add_right_comm, mapIdLoop_succ, skipped, if_neg Bool.false_ne_true,
        onward_of_pathStep stepped, Parse.ok_bind]
      exact ih rest

theorem mapIdLoop_found (reaches : Reaches (IsKind target) table.pathStep start steps place)
    (here : IsKind target place = true) (short : steps < remaining) :
    table.mapIdLoop target remaining start.node start.id = .ok (some place) := by
  obtain ⟨extra, rfl⟩ := Nat.exists_eq_add_of_lt short
  rw [Nat.add_assoc, mapIdLoop_reaches reaches, mapIdLoop_succ, here, if_pos rfl]

theorem mapIdLoop_ended (ends : table.EndsWithout target remaining start) :
    table.mapIdLoop target remaining start.node start.id = .ok none := by
  obtain ⟨steps, short, last, reaches, other, stuck⟩ := ends
  obtain ⟨extra, rfl⟩ := Nat.exists_eq_add_of_lt short
  rw [Nat.add_assoc, mapIdLoop_reaches reaches, mapIdLoop_succ, other, if_neg Bool.false_ne_true,
    stuck, Parse.ok_bind]

theorem EndsWithout.short (ends : table.EndsWithout target remaining start)
    (there : trail table.pathStep start steps = some place) : steps < remaining := by
  obtain ⟨final, below, last, reaches, _, stuck⟩ := ends
  refine Nat.lt_of_le_of_lt ?_ below
  by_contra later
  obtain ⟨passed, next⟩ := trail_of_le there (Nat.lt_of_not_le later)
  rw [trail_succ, reaches.there, Option.bind_some, pathStep, stuck] at next
  cases next

theorem mapIdLoop_eq_ok {found : Option IortIdTranslation}
    (walked : table.mapIdLoop target remaining start.node start.id = .ok found) :
    (∃ steps < remaining, ∃ place, Reaches (IsKind target) table.pathStep start steps place ∧
      IsKind target place = true ∧ found = some place) ∨
    table.EndsWithout target remaining start ∧ found = none := by
  induction remaining generalizing start with
  | zero => exact absurd ⟨_, walked⟩ malformed_ne_ok
  | succ remaining ih =>
      rw [mapIdLoop_succ] at walked
      cases here : IsKind target start with
      | true =>
          rw [here, if_pos rfl] at walked
          exact Or.inl ⟨0, Nat.succ_pos _, start, .zero _ _ _, here, (Except.ok.inj walked).symm⟩
      | false =>
          rw [here, if_neg Bool.false_ne_true] at walked
          obtain ⟨moved, ran, rest⟩ := Parse.bind_eq_ok.mp walked
          cases moved with
          | none =>
              exact Or.inr ⟨⟨0, Nat.succ_pos _, start, .zero _ _ _, here, ran⟩,
                (Except.ok.inj rest).symm⟩
          | some next =>
              have stepped : table.pathStep start = some next := by
                rw [pathStep, ran]
                rfl
              rcases ih rest with ⟨steps, short, place, reaches, there, same⟩ |
                ⟨⟨steps, short, last, reaches, other, stuck⟩, same⟩
              · exact Or.inl ⟨steps + 1, Nat.succ_lt_succ short, place,
                  reaches.cons here stepped, there, same⟩
              · exact Or.inr ⟨⟨steps + 1, Nat.succ_lt_succ short, last,
                  reaches.cons here stepped, other, stuck⟩, same⟩

section Requester

variable {requester : PciDevice} {root : IortRootComplex} {count : UInt32}

theorem mapPciRequesterToKind_rooted
    (rooted : table.rootComplexForSegment requester.segment = .ok (some root))
    (counted : table.nodeCount = .ok count) (target : IortNodeKind) :
    table.mapPciRequesterToKind requester target =
      table.mapIdLoop target count.toNat (requesterStart root requester).node
        (requesterStart root requester).id := by
  rw [mapPciRequesterToKind, rooted, Parse.ok_bind]
  dsimp only
  rw [mapIdToKind, counted, Parse.ok_bind]
  rfl

theorem iommuForPciRequester_rooted
    (rooted : table.rootComplexForSegment requester.segment = .ok (some root))
    (counted : table.nodeCount = .ok count) :
    table.iommuForPciRequester requester =
      (table.mapIdLoop .smmuV3 count.toNat (requesterStart root requester).node
        (requesterStart root requester).id >>= fun
        | some translation => .ok (some translation)
        | none => table.mapIdLoop .smmu count.toNat (requesterStart root requester).node
            (requesterStart root requester).id) := by
  rw [iommuForPciRequester, mapPciRequesterToKind_rooted rooted counted,
    mapPciRequesterToKind_rooted rooted counted]
  rfl

theorem iommu_smmuV3 (rooted : table.rootComplexForSegment requester.segment = .ok (some root))
    (counted : table.nodeCount = .ok count)
    (reaches : Reaches (IsKind .smmuV3) table.pathStep (requesterStart root requester) steps place)
    (here : place.node.header.kind = .smmuV3) (short : steps < count.toNat) :
    table.iommuForPciRequester requester = .ok (some place) := by
  rw [iommuForPciRequester_rooted rooted counted,
    mapIdLoop_found reaches (decide_eq_true here) short, Parse.ok_bind]

theorem iommu_smmu (rooted : table.rootComplexForSegment requester.segment = .ok (some root))
    (counted : table.nodeCount = .ok count)
    (ends : table.EndsWithout .smmuV3 count.toNat (requesterStart root requester))
    (reaches : Reaches (IsKind .smmu) table.pathStep (requesterStart root requester) steps place)
    (here : place.node.header.kind = .smmu) (short : steps < count.toNat) :
    table.iommuForPciRequester requester = .ok (some place) := by
  rw [iommuForPciRequester_rooted rooted counted, mapIdLoop_ended ends, Parse.ok_bind]
  exact mapIdLoop_found reaches (decide_eq_true here) short

theorem iommu_eq_ok_some (rooted : table.rootComplexForSegment requester.segment = .ok (some root))
    (counted : table.nodeCount = .ok count)
    (found : table.iommuForPciRequester requester = .ok (some place)) :
    ∃ steps < count.toNat,
      Reaches (IsKind .smmuV3) table.pathStep (requesterStart root requester) steps place ∧
        place.node.header.kind = .smmuV3 ∨
      Reaches (IsKind .smmu) table.pathStep (requesterStart root requester) steps place ∧
        place.node.header.kind = .smmu ∧
        table.EndsWithout .smmuV3 count.toNat (requesterStart root requester) := by
  rw [iommuForPciRequester_rooted rooted counted] at found
  obtain ⟨first, walked, rest⟩ := Parse.bind_eq_ok.mp found
  rcases mapIdLoop_eq_ok walked with ⟨steps, short, passed, reaches, here, rfl⟩ | ⟨ends, rfl⟩
  · obtain rfl := Option.some.inj (Except.ok.inj rest)
    exact ⟨steps, short, Or.inl ⟨reaches, of_decide_eq_true here⟩⟩
  · rcases mapIdLoop_eq_ok rest with ⟨steps, short, passed, reaches, here, same⟩ | ⟨_, absurdity⟩
    · obtain rfl := Option.some.inj same
      exact ⟨steps, short, Or.inr ⟨reaches, of_decide_eq_true here, ends⟩⟩
    · cases absurdity

end Requester

end IortTable

/-- The first SMMUv3 within the bound is found whatever else is on the path; on a path that ends without
one, the first SMMU is found. Nothing else is ever found. -/
theorem first_iommu_by_version (table : IortTable) (requester : PciDevice) (root : IortRootComplex)
    (rooted : table.rootComplexForSegment requester.segment = .ok (some root)) :
    ∃ count, table.nodeCount = .ok count ∧
      (∀ steps place, Reaches (IortTable.IsKind .smmuV3) table.pathStep
          (IortTable.requesterStart root requester) steps place →
        place.node.header.kind = .smmuV3 → steps < count.toNat →
          table.iommuForPciRequester requester = .ok (some place)) ∧
      (table.EndsWithout .smmuV3 count.toNat (IortTable.requesterStart root requester) →
        ∀ steps place, Reaches (IortTable.IsKind .smmu) table.pathStep
            (IortTable.requesterStart root requester) steps place →
          place.node.header.kind = .smmu →
            table.iommuForPciRequester requester = .ok (some place)) ∧
      ∀ place, table.iommuForPciRequester requester = .ok (some place) →
        ∃ steps < count.toNat,
          Reaches (IortTable.IsKind .smmuV3) table.pathStep
              (IortTable.requesterStart root requester) steps place ∧
            place.node.header.kind = .smmuV3 ∨
          Reaches (IortTable.IsKind .smmu) table.pathStep
              (IortTable.requesterStart root requester) steps place ∧
            place.node.header.kind = .smmu ∧
            table.EndsWithout .smmuV3 count.toNat (IortTable.requesterStart root requester) := by
  have is_root := table.rootComplexForSegment_found requester.segment _ rooted root rfl
  obtain ⟨count, counted, _⟩ := is_root.counted
  refine ⟨count, counted, ?_, ?_, ?_⟩
  · intro steps place reaches here short
    exact IortTable.iommu_smmuV3 rooted counted reaches here short
  · intro ends steps place reaches here
    exact IortTable.iommu_smmu rooted counted ends reaches here (ends.short reaches.there)
  · intro place found
    exact IortTable.iommu_eq_ok_some rooted counted found

def iortChainedBytes : List UInt8 :=
  IORT.signature ++ [252, 0, 0, 0] ++ List.replicate 28 0 ++ [3, 0, 0, 0, 48, 0, 0, 0, 0, 0, 0, 0] ++
    [2, 56, 0, 3, 0, 0, 0, 0, 1, 0, 0, 0, 36, 0, 0, 0] ++ List.replicate 20 0 ++
    [0, 0, 0, 0, 255, 255, 0, 0, 0, 0, 0, 0, 104, 0, 0, 0, 0, 0, 0, 0] ++
    [3, 80, 0, 3, 0, 0, 0, 0, 1, 0, 0, 0, 60, 0, 0, 0] ++ List.replicate 8 0 ++
    [1, 0, 0, 0] ++ List.replicate 32 0 ++
    [0, 0, 0, 0, 255, 255, 0, 0, 0, 0, 0, 0, 184, 0, 0, 0, 0, 0, 0, 0] ++
    [4, 68, 0, 4, 0, 0, 0, 0, 0, 0, 0, 0, 0, 0, 0, 0] ++ List.replicate 52 0

def iortChained : IortTable := ⟨iortChainedBytes, by decide +kernel, by decide +kernel⟩

def iortChainedRoot : IortRootComplex :=
  ⟨⟨0, 0, 0⟩, 0, 0, 0, 0, ⟨.rootComplex, 3, 0, 1, 36, 48, 56⟩⟩

def iortChainedSmmu : IortNode :=
  .smmu ⟨⟨0, 1, by decide, by decide⟩, 0, 0, 0, 0, 0, 0, 0, ⟨.smmu, 3, 0, 1, 60, 104, 80⟩⟩

def iortChainedSmmuV3 : IortNode :=
  .smmuV3 ⟨0, 0, none, 0, 0, 0, 0, 0, 0, 0, ⟨.smmuV3, 4, 0, 0, 0, 184, 68⟩⟩

theorem first_iommu_found_chained :
    iortChained.iommuForPciRequester ⟨5⟩ = .ok (some ⟨iortChainedSmmuV3, 5⟩) := by
  obtain ⟨count, counted, preferred, _⟩ :=
    first_iommu_by_version iortChained ⟨5⟩ iortChainedRoot (by decide +kernel)
  obtain rfl : count = 3 := Except.ok.inj (counted.symm.trans (by decide +kernel))
  refine preferred 2 ⟨iortChainedSmmuV3, 5⟩ ⟨by decide +kernel, ?_⟩ rfl (by decide)
  intro earlier below passed there
  obtain rfl | rfl : earlier = 0 ∨ earlier = 1 := by omega
  · obtain rfl := Option.some.inj there
    rfl
  · have second : trail iortChained.pathStep (IortTable.requesterStart iortChainedRoot ⟨5⟩) 1 =
        some ⟨iortChainedSmmu, 5⟩ := by decide +kernel
    obtain rfl := Option.some.inj (second.symm.trans there)
    rfl

theorem first_iommu_skipped :
    ¬∀ (table : IortTable) (requester : PciDevice) (root : IortRootComplex) (steps : Nat)
      (place : IortIdTranslation),
      table.rootComplexForSegment requester.segment = .ok (some root) →
      Reaches IortTable.IsIommu table.pathStep (IortTable.requesterStart root requester) steps place →
      place.node.header.kind = .smmu ∨ place.node.header.kind = .smmuV3 →
        table.iommuForPciRequester requester = .ok (some place) := by
  intro first
  have reaches : Reaches IortTable.IsIommu iortChained.pathStep
      (IortTable.requesterStart iortChainedRoot ⟨5⟩) 1 ⟨iortChainedSmmu, 5⟩ := by
    refine ⟨by decide +kernel, fun earlier below passed there => ?_⟩
    obtain rfl := Nat.lt_one_iff.mp below
    obtain rfl := Option.some.inj there
    rfl
  have nearer := first iortChained ⟨5⟩ iortChainedRoot 1 ⟨iortChainedSmmu, 5⟩ (by decide +kernel)
    reaches (Or.inl rfl)
  have farther : iortChained.iommuForPciRequester ⟨5⟩ = .ok (some ⟨iortChainedSmmuV3, 5⟩) := by
    decide +kernel
  rw [farther] at nearer
  cases nearer

def iortMaskedBytes : List UInt8 :=
  IORT.signature ++ [184, 0, 0, 0] ++ List.replicate 28 0 ++ [2, 0, 0, 0, 48, 0, 0, 0, 0, 0, 0, 0] ++
    [2, 56, 0, 3, 0, 0, 0, 0, 1, 0, 0, 0, 36, 0, 0, 0] ++ List.replicate 20 0 ++
    [0, 0, 0, 0, 255, 255, 0, 0, 0, 0, 0, 0, 104, 0, 0, 0, 0, 0, 0, 0] ++
    [3, 80, 0, 3, 0, 0, 0, 0, 1, 0, 0, 0, 60, 0, 0, 0] ++ List.replicate 8 0 ++
    [1, 0, 0, 0] ++ List.replicate 32 0 ++
    [0, 0, 0, 0, 255, 255, 0, 0, 0, 0, 0, 0, 104, 0, 0, 0, 0, 0, 0, 0]

def iortMasked : IortTable := ⟨iortMaskedBytes, by decide +kernel, by decide +kernel⟩

/-- The walk to an SMMUv3 reports the cycle beyond the SMMU, so the walk that finds the SMMU is not made. -/
theorem first_iommu_masked :
    iortMasked.mapPciRequesterToKind ⟨5⟩ .smmu = .ok (some ⟨iortChainedSmmu, 5⟩) ∧
      iortMasked.iommuForPciRequester ⟨5⟩ = malformed "IORT ID mapping graph contains a cycle" := by
  decide +kernel

end Iommu
