import Iommu.BdfRangeSet.Collected
import Iommu.Dmar.RoundTrip

/-!
The queries that answer one question each: which devices need ATS, which node a unit is near, which
name a device number has, and which devices a stretch of reserved memory is for. On a table that is
laid out as specified each answers what the table means.
-/

namespace Iommu

open MachineWord FirmwareTable

section Closures

variable {World : Type}

def onRmrr (visit : DmarRmrr → Effect World (Stop DmarError) Unit) :
    DmarStructure → Effect World (Stop DmarError) Unit
  | .rmrr region => visit region
  | _ => pure ()

def onRhsa (visit : DmarRhsa → Effect World (Stop DmarError) Unit) :
    DmarStructure → Effect World (Stop DmarError) Unit
  | .rhsa affinity => visit affinity
  | _ => pure ()

def onAndd (visit : DmarAndd → Effect World (Stop DmarError) Unit) :
    DmarStructure → Effect World (Stop DmarError) Unit
  | .andd device => visit device
  | _ => pure ()

def onSatc (visit : DmarSatc → Effect World (Stop DmarError) Unit) :
    DmarStructure → Effect World (Stop DmarError) Unit
  | .satc unit => visit unit
  | _ => pure ()

def onSidp (visit : DmarSidp → Effect World (Stop DmarError) Unit) :
    DmarStructure → Effect World (Stop DmarError) Unit
  | .sidp unit => visit unit
  | _ => pure ()

end Closures

namespace DmarTable

section Queries

variable (table : DmarTable)

def captured {World : Type} (visit : DmarStructure → Effect World (Stop DmarError) Unit)
    (start : World) : Parse DmarError World :=
  match table.forEachStructure visit start with
  | (.error stop, _) => .error stop
  | (.ok (), final) => .ok final

def hasSidp : Parse DmarError Bool :=
  table.captured (onSidp fun _ => .modify fun _ => true) false

def rangesOfRegion (segment : UInt16) (memory : AddrRange) (region : DmarRmrr) :
    Effect RangesQuery (Stop DmarError) Unit :=
  if region.segment ≠ segment ∨ region.memory ≠ memory then pure ()
  else do
    .modify fun query => { query with foundUnit := true }
    table.walkDeviceScopes region.structureOffset RMRR_MIN_LENGTH region.length
      RangesQuery.visitScope

def rmrrBdfRanges (segment : UInt16) (memory : AddrRange) :
    Parse DmarError (Option DmarBdfRangeSet) := do
  let query ← table.captured (onRmrr (table.rangesOfRegion segment memory)) ⟨false, .empty, false⟩
  if !query.foundUnit ∨ query.unresolved ∨ query.ranges.count = 0 then pure none
  else pure (some query.ranges)

def requiredByScope (bdf : Bdf) (scope : DmarDeviceScope) : Effect Bool (Stop DmarError) Unit :=
  if scope.requester.any (·.contains bdf) then .modify fun _ => true else pure ()

def requiredByUnit (requester : PciDevice) (unit : DmarSatc) : Effect Bool (Stop DmarError) Unit :=
  if unit.segment ≠ requester.segment ∨ unit.atcRequired = false ∨ unit.hasDeviceScopes = false then
    pure ()
  else
    table.walkDeviceScopes unit.structureOffset SATC_MIN_LENGTH unit.length
      (requiredByScope requester.bdf)

def satcDeviceAtsRequired (requester : PciDevice) : Parse DmarError Bool := do
  if ← table.hasSidp then pure false
  else table.captured (onSatc (table.requiredByUnit requester)) false

def rhsaProximityDomainForRegisters (registers : AddrRange) : Parse DmarError (Option UInt32) :=
  table.captured (onRhsa fun affinity =>
    if affinity.registers = registers then .modify fun _ => some affinity.proximityDomain
    else pure ()) none

def anddNameForDeviceNumber (acpiDeviceNumber : UInt8) : Parse DmarError (Option (List UInt8)) :=
  table.captured (onAndd fun device =>
    if device.acpiDeviceNumber = acpiDeviceNumber then .modify fun _ => some device.objectName
    else pure ()) none

end Queries

end DmarTable

namespace VtdStructure

def isSidp : VtdStructure → Bool
  | sidp .. => true
  | _ => false

def requiresAts (requester : PciDevice) : VtdStructure → Bool
  | satc flags segment scopes =>
      segment = requester.segment ∧ flags &&& 0x01 ≠ 0 ∧
        scopes.any fun scope => scope.requester.any (·.contains requester.bdf)
  | _ => false

def proximityOf (registers : AddrRange) : VtdStructure → Option UInt32
  | rhsa base proximityDomain => if base.window = registers then some proximityDomain else none
  | _ => none

def nameOf (number : UInt8) : VtdStructure → Option (List UInt8)
  | andd acpiDeviceNumber objectName => if acpiDeviceNumber = number then some objectName else none
  | _ => none

def reserves (segment : UInt16) (memory : AddrRange) : VtdStructure → Bool
  | rmrr own region _ => own = segment ∧ region.range = memory
  | _ => false

def reservedScopes (segment : UInt16) (memory : AddrRange) (found : VtdStructure) :
    List DmarDeviceScope :=
  if found.reserves segment memory then found.scopes.map VtdScope.reported else []

end VtdStructure

/-- The queries answer what the structures mean. The SATC policy yields to any SIDP structure; of
several structures for one register window or device number the last one counts. -/
structure DmarTable.AnswersAsMeant (table : DmarTable) (meant : List VtdStructure) : Prop where
  ats : ∀ requester, table.satcDeviceAtsRequired requester =
    .ok (!meant.any VtdStructure.isSidp && meant.any (VtdStructure.requiresAts requester))
  proximity : ∀ registers, table.rhsaProximityDomainForRegisters registers =
    .ok (meant.filterMap (VtdStructure.proximityOf registers)).getLast?
  names : ∀ number, table.anddNameForDeviceNumber number =
    .ok (meant.filterMap (VtdStructure.nameOf number)).getLast?
  reserved : ∀ segment memory, Collected
    (BdfRangeSet.spans (named (meant.flatMap (VtdStructure.reservedScopes segment memory))))
    (Unresolved (meant.flatMap (VtdStructure.reservedScopes segment memory)))
    (table.rmrrBdfRanges segment memory)

namespace DmarTable

variable {table : DmarTable} {meant : List VtdStructure} {World : Type}

theorem RoundTrips.captured_eq_ok (roundTrips : table.RoundTrips meant)
    {visit : DmarStructure → Effect World (Stop DmarError) Unit} {start final : World} :
    table.captured visit start = .ok final ↔
      visitEach visit ((VtdStructure.placed DMAR_STRUCTURES_OFFSET meant).map fun placed =>
        placed.2.reported placed.1) start = (.ok (), final) := by
  have scanned : transcript (itemRound table.nextStructure) table.rounds DMAR_STRUCTURES_OFFSET =
      ((VtdStructure.placed DMAR_STRUCTURES_OFFSET meant).map fun placed =>
        placed.2.reported placed.1, .ok ()) := by
    rw [transcript_of_drain roundTrips.structures, untilFailure_eq_ok, List.map_map]
    rfl
  rw [captured, forEachStructure, walk_eq_visitAll, scanned, visitAll_of_ok rfl]
  dsimp only
  generalize visitEach visit _ start = ran
  rcases ran with ⟨outcome, after⟩
  cases outcome with
  | error stop => simp
  | ok value => simp

theorem RoundTrips.captured_foldl (roundTrips : table.RoundTrips meant)
    {visit : DmarStructure → Effect World (Stop DmarError) Unit} (note : World → VtdStructure → World)
    (notes : ∀ placed ∈ VtdStructure.placed DMAR_STRUCTURES_OFFSET meant, ∀ world,
      visit (placed.2.reported placed.1) world = (.ok (), note world placed.2)) (start : World) :
    table.captured visit start = .ok (meant.foldl note start) := by
  rw [roundTrips.captured_eq_ok]
  generalize DMAR_STRUCTURES_OFFSET = offset at notes ⊢
  clear roundTrips
  induction meant generalizing offset start with
  | nil => rfl
  | cons found rest ih =>
      obtain ⟨own, others⟩ := List.forall_mem_cons.mp notes
      rw [VtdStructure.placed, List.map_cons, visitEach, Effect.bind_of_ok (own start),
        List.foldl_cons]
      exact ih _ _ others

theorem RoundTrips.walk_eq (roundTrips : table.RoundTrips meant) {placed : Nat × VtdStructure}
    (member : placed ∈ VtdStructure.placed DMAR_STRUCTURES_OFFSET meant) {start fixed size : Nat}
    (located : (placed.2.reported placed.1).scopeRegion = some (start, fixed, size))
    (visit : DmarDeviceScope → Effect World (Stop DmarError) Unit) :
    table.walkDeviceScopes start fixed size visit =
      visitEach visit (placed.2.scopes.map VtdScope.reported) := by
  funext world
  rw [walkDeviceScopes_eq, roundTrips.scopes placed member _ located, visitAll_of_ok rfl]

theorem RoundTrips.hasSidp_eq (roundTrips : table.RoundTrips meant) :
    table.hasSidp = .ok (meant.any VtdStructure.isSidp) := by
  rw [hasSidp, roundTrips.captured_foldl fun sidp found => sidp || found.isSidp, foldl_or,
    Bool.false_or]
  rintro ⟨offset, found⟩ _ sidp
  cases found with
  | sidp segment scopes => exact congrArg (Prod.mk _) (Bool.or_true sidp).symm
  | _ => exact congrArg (Prod.mk _) (Bool.or_false sidp).symm

theorem RoundTrips.proximity (roundTrips : table.RoundTrips meant) (registers : AddrRange) :
    table.rhsaProximityDomainForRegisters registers =
      .ok (meant.filterMap (VtdStructure.proximityOf registers)).getLast? := by
  rw [rhsaProximityDomainForRegisters,
    roundTrips.captured_foldl fun last found => (found.proximityOf registers).or last, foldl_last,
    Option.or_none]
  rintro ⟨offset, found⟩ _ last
  cases found with
  | rhsa base proximityDomain =>
      by_cases here : base.window = registers
      · simp [VtdStructure.reported, onRhsa, VtdStructure.proximityOf, here]
      · simp [VtdStructure.reported, onRhsa, VtdStructure.proximityOf, here]
  | _ => rfl

theorem RoundTrips.names (roundTrips : table.RoundTrips meant) (number : UInt8) :
    table.anddNameForDeviceNumber number =
      .ok (meant.filterMap (VtdStructure.nameOf number)).getLast? := by
  rw [anddNameForDeviceNumber,
    roundTrips.captured_foldl fun last found => (found.nameOf number).or last, foldl_last,
    Option.or_none]
  rintro ⟨offset, found⟩ _ last
  cases found with
  | andd acpiDeviceNumber objectName =>
      by_cases here : acpiDeviceNumber = number
      · simp [VtdStructure.reported, onAndd, VtdStructure.nameOf, here]
      · simp [VtdStructure.reported, onAndd, VtdStructure.nameOf, here]
  | _ => rfl

theorem requiredByScopes (bdf : Bdf) (scopes : List VtdScope) (required : Bool) :
    visitEach (requiredByScope bdf) (scopes.map VtdScope.reported) required =
      (.ok (), required || scopes.any fun scope => scope.requester.any (·.contains bdf)) := by
  induction scopes generalizing required with
  | nil => simp [visitEach]
  | cons scope rest ih =>
      have first : requiredByScope bdf scope.reported required =
          (.ok (), required || scope.requester.any (·.contains bdf)) := by
        rw [requiredByScope, show scope.reported.requester = scope.requester from rfl]
        split
        · next names => simp [names]
        · next other => simp [Bool.eq_false_iff.mpr other]
      rw [List.map_cons, visitEach, Effect.bind_of_ok first, ih, List.any_cons, Bool.or_assoc]

theorem RoundTrips.ats (roundTrips : table.RoundTrips meant) (requester : PciDevice) :
    table.satcDeviceAtsRequired requester =
      .ok (!meant.any VtdStructure.isSidp && meant.any (VtdStructure.requiresAts requester)) := by
  have collected : table.captured (onSatc (table.requiredByUnit requester)) false =
      .ok (meant.any (VtdStructure.requiresAts requester)) := by
    rw [roundTrips.captured_foldl fun required found => required || found.requiresAts requester,
      foldl_or, Bool.false_or]
    rintro ⟨offset, found⟩ member required
    cases found with
    | satc flags segment scopes =>
        have walked := roundTrips.walk_eq member rfl (requiredByScope requester.bdf)
        dsimp only [VtdStructure.reported, onSatc, VtdStructure.scopes] at walked ⊢
        rw [requiredByUnit]
        dsimp only
        split
        · next skipped =>
          have silent : VtdStructure.requiresAts requester (.satc flags segment scopes) = false := by
            rw [VtdStructure.requiresAts, decide_eq_false_iff_not]
            rintro ⟨here, required, named⟩
            rcases skipped with other | optional | bare
            · exact other here
            · exact decide_eq_false_iff_not.mp optional required
            · rw [not_not.mp (decide_eq_false_iff_not.mp bare)] at named
              contradiction
          rw [silent, Bool.or_false]
          rfl
        · next asked =>
          rw [not_or, not_or, not_not, Bool.not_eq_false, decide_eq_true_eq] at asked
          rw [walked, requiredByScopes, VtdStructure.requiresAts]
          simp only [asked.1, asked.2.1, true_and, Bool.decide_eq_true, ne_eq, not_false_eq_true]
    | _ => exact congrArg (Prod.mk _) (Bool.or_false required).symm
  rw [satcDeviceAtsRequired, roundTrips.hasSidp_eq, Parse.ok_bind]
  cases meant.any VtdStructure.isSidp with
  | true => rfl
  | false => exact collected

theorem RoundTrips.region_eq_ok (roundTrips : table.RoundTrips meant) {placed : Nat × VtdStructure}
    (member : placed ∈ VtdStructure.placed DMAR_STRUCTURES_OFFSET meant) (segment : UInt16)
    (memory : AddrRange) (query final : RangesQuery) :
    onRmrr (table.rangesOfRegion segment memory) (placed.2.reported placed.1) query =
        (.ok (), final) ↔
      BdfRangeSet.insertEach (named (placed.2.reservedScopes segment memory)) query.ranges =
        (.ok (), final.ranges) ∧
      final.unresolved =
        (query.unresolved || decide (Unresolved (placed.2.reservedScopes segment memory))) ∧
      final.foundUnit = (query.foundUnit || placed.2.reserves segment memory) := by
  have visited := RangesQuery.visitScopes_eq_ok
  obtain ⟨offset, found⟩ := placed
  rw [VtdStructure.reservedScopes]
  cases reserving : found.reserves segment memory with
  | false =>
      have idle : onRmrr (table.rangesOfRegion segment memory) (found.reported offset) =
          visitEach RangesQuery.visitScope [] := by
        cases found with
        | rmrr own region scopes =>
            rw [VtdStructure.reserves, decide_eq_false_iff_not, not_and_or] at reserving
            exact if_pos reserving
        | _ => rfl
      rw [idle, visited]
      simp [named, Unresolved]
  | true =>
      cases found with
      | rmrr own region scopes =>
          rw [VtdStructure.reserves, decide_eq_true_eq] at reserving
          have walked := roundTrips.walk_eq member rfl RangesQuery.visitScope
          dsimp only [VtdStructure.reported, VtdStructure.scopes] at walked
          dsimp only [VtdStructure.reported, onRmrr]
          rw [rangesOfRegion]
          dsimp only
          rw [if_neg (by simp [reserving]), Effect.bind_of_ok (Effect.modify_apply _ _), walked,
            visited]
          simp [VtdStructure.scopes]
      | _ => contradiction

theorem RoundTrips.regions_eq_ok (roundTrips : table.RoundTrips meant) (segment : UInt16)
    (memory : AddrRange) {offset : Nat} {some : List VtdStructure}
    (among : ∀ placed ∈ VtdStructure.placed offset some,
      placed ∈ VtdStructure.placed DMAR_STRUCTURES_OFFSET meant)
    (query final : RangesQuery) :
    visitEach (onRmrr (table.rangesOfRegion segment memory))
        ((VtdStructure.placed offset some).map fun placed => placed.2.reported placed.1) query =
        (.ok (), final) ↔
      BdfRangeSet.insertEach (named (some.flatMap (VtdStructure.reservedScopes segment memory)))
        query.ranges = (.ok (), final.ranges) ∧
      final.unresolved = (query.unresolved ||
        decide (Unresolved (some.flatMap (VtdStructure.reservedScopes segment memory)))) ∧
      final.foundUnit = (query.foundUnit || some.any (VtdStructure.reserves segment memory)) := by
  induction some generalizing offset query with
  | nil =>
      have idle : visitEach (onRmrr (table.rangesOfRegion segment memory)) [] =
          visitEach RangesQuery.visitScope [] := rfl
      rw [VtdStructure.placed, List.map_nil, idle, RangesQuery.visitScopes_eq_ok]
      simp [Unresolved]
  | cons found rest ih =>
      obtain ⟨own, others⟩ := List.forall_mem_cons.mp among
      have first := roundTrips.region_eq_ok own segment memory
      rw [VtdStructure.placed, List.map_cons, visitEach, Effect.bind_eq_ok, List.flatMap_cons,
        named_append, BdfRangeSet.insertEach_append, Effect.bind_eq_ok, List.any_cons]
      simp only [unresolved_append, Bool.decide_or]
      constructor
      · rintro ⟨_, middle, visited, later⟩
        obtain ⟨inserted, unresolved, reserving⟩ := (first _ _).mp visited
        obtain ⟨more, restUnresolved, restReserving⟩ := (ih others middle).mp later
        refine ⟨⟨(), middle.ranges, inserted, more⟩, ?_, ?_⟩
        · rw [restUnresolved, unresolved, Bool.or_assoc]
        · rw [restReserving, reserving, Bool.or_assoc]
      · rintro ⟨⟨_, ranges, inserted, more⟩, unresolved, reserving⟩
        have visited := (first query ⟨_, ranges, _⟩).mpr ⟨inserted, rfl, rfl⟩
        refine ⟨(), _, visited, (ih others _).mpr ⟨more, ?_, ?_⟩⟩
        · exact unresolved.trans (Bool.or_assoc ..).symm
        · exact reserving.trans (Bool.or_assoc ..).symm

theorem reservedScopes_filled {segment : UInt16} {memory : AddrRange} {range : BdfRange}
    (member : range ∈ named (meant.flatMap (VtdStructure.reservedScopes segment memory))) :
    range.isEmpty = false := by
  obtain ⟨scope, among, requester⟩ := List.mem_filterMap.mp member
  obtain ⟨found, _, listed⟩ := List.mem_flatMap.mp among
  rw [VtdStructure.reservedScopes] at listed
  split at listed
  · obtain ⟨meantScope, _, rfl⟩ := List.mem_map.mp listed
    rw [VtdScope.reported, ← VtdScope.singleRequester_eq] at requester
    obtain ⟨bdf, _, rfl⟩ := Option.map_eq_some_iff.mp requester
    simp [BdfRange.isEmpty, BdfRange.single]
  · cases listed

theorem reservedScopes_nil {segment : UInt16} {memory : AddrRange}
    (none : meant.any (VtdStructure.reserves segment memory) = false) :
    meant.flatMap (VtdStructure.reservedScopes segment memory) = [] := by
  rw [List.flatMap_eq_nil_iff]
  intro found member
  rw [VtdStructure.reservedScopes, if_neg]
  exact List.any_eq_false.mp none found member

theorem RoundTrips.reserved (roundTrips : table.RoundTrips meant) (segment : UInt16)
    (memory : AddrRange) : Collected
      (BdfRangeSet.spans (named (meant.flatMap (VtdStructure.reservedScopes segment memory))))
      (Unresolved (meant.flatMap (VtdStructure.reservedScopes segment memory)))
      (table.rmrrBdfRanges segment memory) := by
  have captures : ∀ query : RangesQuery, table.captured (onRmrr (table.rangesOfRegion segment memory))
      ⟨false, .empty, false⟩ = .ok query ↔ _ := fun query =>
    roundTrips.captured_eq_ok.trans
      (roundTrips.regions_eq_ok segment memory (fun _ member => member) _ query)
  have missing : meant.any (VtdStructure.reserves segment memory) = false →
      meant.flatMap (VtdStructure.reservedScopes segment memory) = [] := reservedScopes_nil
  have filled : ∀ range ∈ named (meant.flatMap (VtdStructure.reservedScopes segment memory)),
      range.isEmpty = false := fun _ => reservedScopes_filled
  refine collected_of_insertEach filled fun result => ?_
  rw [rmrrBdfRanges, Parse.bind_eq_ok]
  simp only [captures, Bool.false_or]
  generalize meant.flatMap (VtdStructure.reservedScopes segment memory) = scopes at missing filled ⊢
  have condition : ∀ query : RangesQuery,
      BdfRangeSet.insertEach (named scopes) .empty = (.ok (), query.ranges) →
      query.unresolved = decide (Unresolved scopes) →
      query.foundUnit = meant.any (VtdStructure.reserves segment memory) →
      ((!query.foundUnit ∨ query.unresolved ∨ query.ranges.count = 0) ↔
        Unresolved scopes ∨ named scopes = []) := by
    intro query collected unresolved reserving
    rw [unresolved, reserving, BdfRangeSet.insertEach_count_zero filled collected,
      Bool.not_eq_true', decide_eq_true_iff]
    constructor
    · rintro (absent | either)
      · rw [missing absent]
        exact Or.inr rfl
      · exact either
    · exact Or.inr
  constructor
  · rintro ⟨query, ⟨collected, unresolved, reserving⟩, returned⟩
    refine ⟨query.ranges, collected, ?_⟩
    simp only [condition query collected unresolved reserving] at returned
    split at returned
    · next holds =>
      rw [if_pos holds]
      exact (Except.ok.inj returned).symm
    · next fails =>
      rw [if_neg fails]
      exact (Except.ok.inj returned).symm
  · rintro ⟨set, collected, rfl⟩
    refine ⟨⟨_, set, _⟩, ⟨collected, rfl, rfl⟩, ?_⟩
    simp only [condition ⟨_, set, _⟩ collected rfl rfl]
    split
    · rfl
    · rfl

theorem RoundTrips.answers (roundTrips : table.RoundTrips meant) : table.AnswersAsMeant meant :=
  ⟨roundTrips.ats, roundTrips.proximity, roundTrips.names, roundTrips.reserved⟩

end DmarTable

/-- On every table that is laid out as specified, the queries for ATS, affinity, device names and
reserved memory answer what its structures mean. -/
theorem dmar_queries_as_meant (validate : SdtValidation) (image : VtdTable) (table : DmarTable)
    (accepted : DmarTable.parse validate image.bytes = .ok table) :
    table.AnswersAsMeant image.structures := by
  obtain ⟨laid, whole⟩ := DmarTable.structures_held accepted
  exact (DmarTable.structures_roundTrip image.fits laid whole).answers

theorem dmar_queries_as_meant_sample : ∃ table : DmarTable,
    DmarTable.parse (fun _ => .ok ()) vtdSample.bytes = .ok table ∧
      table.AnswersAsMeant vtdSample.structures :=
  ⟨⟨vtdSample.bytes, by decide, by decide⟩, rfl,
    dmar_queries_as_meant (fun _ => .ok ()) vtdSample _ rfl⟩

end Iommu
