import Iommu.Dmar.Scopes

/-!
Which requesters the unit behind a register window covers: as a set of ranges, and for
one requester. Both go through the structures and the scopes of the units that match.
-/

namespace Iommu

open MachineWord FirmwareTable

def DMAR_REQUESTER_WINDOW_CAPACITY : Nat := 16

abbrev DmarBdfRangeSet := BdfRangeSet DMAR_REQUESTER_WINDOW_CAPACITY

inductive DmarRequesterMatch
  | covered
  | notCovered
  | unresolved
  deriving DecidableEq, Repr

/-- The variables captured by the closures of a query for ranges. -/
@[ext] structure RangesQuery where
  foundUnit : Bool
  ranges : DmarBdfRangeSet
  unresolved : Bool

def RangesQuery.visitScope (scope : DmarDeviceScope) : Effect RangesQuery (Stop DmarError) Unit :=
  match scope.requester with
  | some requester =>
      .within RangesQuery.ranges (fun query ranges => { query with ranges })
        ((BdfRangeSet.insert requester).mapError fun error => .failed (.bdfRanges error))
  | none => .modify fun query => { query with unresolved := true }

structure ScopeFlags where
  exactMatch : Bool
  unresolved : Bool
  deriving DecidableEq

def ScopeFlags.visitScope (bdf : Bdf) (scope : DmarDeviceScope) :
    Effect ScopeFlags (Stop DmarError) Unit :=
  match scope.requester with
  | some requester =>
      if requester.contains bdf then .modify fun flags => { flags with exactMatch := true }
      else pure ()
  | none => .modify fun flags => { flags with unresolved := true }

def ScopeFlags.result (flags : ScopeFlags) : DmarRequesterMatch :=
  if flags.exactMatch then .covered
  else if flags.unresolved then .unresolved
  else .notCovered

def onDrhd {World : Type} (visit : DmarDrhd → Effect World (Stop DmarError) Unit) :
    DmarStructure → Effect World (Stop DmarError) Unit
  | .drhd unit => visit unit
  | _ => pure ()

namespace DmarTable

variable (table : DmarTable)

def rangesOfUnit (registers : AddrRange) (unit : DmarDrhd) :
    Effect RangesQuery (Stop DmarError) Unit :=
  if unit.registers ≠ registers then pure ()
  else do
    .modify fun query => { query with foundUnit := true }
    if unit.includeAll then pure () else table.forEachDrhdDeviceScope unit RangesQuery.visitScope

def drhdBdfRanges (registers : AddrRange) : Parse DmarError (Option DmarBdfRangeSet) :=
  match table.forEachStructure (onDrhd (table.rangesOfUnit registers)) ⟨false, .empty, false⟩ with
  | (.error stop, _) => .error stop
  | (.ok (), query) =>
      if !query.foundUnit ∨ query.unresolved ∨ query.ranges.count = 0 then .ok none
      else .ok (some query.ranges)

def scopeFlags (unit : DmarDrhd) (bdf : Bdf) : Parse DmarError ScopeFlags :=
  match table.forEachDrhdDeviceScope unit (ScopeFlags.visitScope bdf) ⟨false, false⟩ with
  | (.error stop, _) => .error stop
  | (.ok (), flags) => .ok flags

def matchOfUnit (registers : AddrRange) (requester : PciDevice) (unit : DmarDrhd) :
    Effect (Option DmarRequesterMatch) (Stop DmarError) Unit :=
  if unit.registers ≠ registers then pure ()
  else if unit.segment ≠ requester.segment then .modify fun _ => some .notCovered
  else if unit.includeAll then .modify fun _ => some .covered
  else do
    let flags ← .ofExcept (table.scopeFlags unit requester.bdf)
    .modify fun _ => some flags.result

def drhdRequesterMatch (registers : AddrRange) (requester : PciDevice) :
    Parse DmarError (Option DmarRequesterMatch) :=
  match table.forEachStructure (onDrhd (table.matchOfUnit registers requester)) none with
  | (.error stop, _) => .error stop
  | (.ok (), matchResult) => .ok matchResult

def scanned : List DmarStructure × Parse DmarError Unit :=
  transcript (itemRound table.nextStructure) table.rounds DMAR_STRUCTURES_OFFSET

def drhd? : DmarStructure → Option DmarDrhd
  | .drhd unit => some unit
  | _ => none

def drhds : List DmarDrhd := table.scanned.1.filterMap drhd?

def scopes (unit : DmarDrhd) : List DmarDeviceScope × Parse DmarError Unit :=
  table.deviceScopes unit.structureOffset DRHD_MIN_LENGTH unit.length

theorem forEachDrhdDeviceScope_eq {World : Type} (unit : DmarDrhd)
    (visit : DmarDeviceScope → Effect World (Stop DmarError) Unit) :
    table.forEachDrhdDeviceScope unit visit = visitAll visit (table.scopes unit) :=
  table.walkDeviceScopes_eq _ _ _ visit

theorem visitEach_onDrhd {World : Type} (visit : DmarDrhd → Effect World (Stop DmarError) Unit)
    (structures : List DmarStructure) :
    visitEach (onDrhd visit) structures = visitEach visit (structures.filterMap drhd?) := by
  induction structures with
  | nil => rfl
  | cons first rest ih =>
      rw [visitEach, ih]
      cases first <;> rfl

theorem forEachStructure_eq_ok {World : Type}
    (visit : DmarDrhd → Effect World (Stop DmarError) Unit) (start final : World) :
    table.forEachStructure (onDrhd visit) start = (.ok (), final) ↔
      table.scanned.2 = .ok () ∧ visitEach visit table.drhds start = (.ok (), final) := by
  rw [forEachStructure, walk_eq_visitAll, visitAll_eq_ok, visitEach_onDrhd]
  rfl

end DmarTable

def named (scopes : List DmarDeviceScope) : List BdfRange := scopes.filterMap (·.requester)

def Names (scopes : List DmarDeviceScope) (bdf : Bdf) : Prop :=
  ∃ range ∈ named scopes, range.contains bdf = true

def Unresolved (scopes : List DmarDeviceScope) : Prop := ∃ scope ∈ scopes, scope.requester = none

instance (scopes : List DmarDeviceScope) (bdf : Bdf) : Decidable (Names scopes bdf) :=
  inferInstanceAs (Decidable (∃ range ∈ named scopes, range.contains bdf = true))

instance (scopes : List DmarDeviceScope) : Decidable (Unresolved scopes) :=
  inferInstanceAs (Decidable (∃ scope ∈ scopes, scope.requester = none))

theorem named_cons (scope : DmarDeviceScope) (rest : List DmarDeviceScope) :
    named (scope :: rest) = scope.requester.toList ++ named rest := by
  rw [named, List.filterMap_cons]
  cases scope.requester <;> rfl

theorem names_cons (scope : DmarDeviceScope) (rest : List DmarDeviceScope) (bdf : Bdf) :
    Names (scope :: rest) bdf ↔
      (∃ range, scope.requester = some range ∧ range.contains bdf = true) ∨ Names rest bdf := by
  simp only [Names, named_cons, List.mem_append, Option.mem_toList, or_and_right, exists_or]

theorem unresolved_cons (scope : DmarDeviceScope) (rest : List DmarDeviceScope) :
    Unresolved (scope :: rest) ↔ scope.requester = none ∨ Unresolved rest := by
  simp [Unresolved]

theorem unresolved_append (first second : List DmarDeviceScope) :
    Unresolved (first ++ second) ↔ Unresolved first ∨ Unresolved second := by
  simp [Unresolved, or_and_right, exists_or]

theorem named_append (first second : List DmarDeviceScope) :
    named (first ++ second) = named first ++ named second :=
  List.filterMap_append

theorem RangesQuery.visitScopes_eq_ok (scopes : List DmarDeviceScope) (query final : RangesQuery) :
    visitEach RangesQuery.visitScope scopes query = (.ok (), final) ↔
      BdfRangeSet.insertEach (named scopes) query.ranges = (.ok (), final.ranges) ∧
        final.unresolved = (query.unresolved || decide (Unresolved scopes)) ∧
        final.foundUnit = query.foundUnit := by
  induction scopes generalizing query with
  | nil =>
      simp only [visitEach, named, List.filterMap_nil, BdfRangeSet.insertEach, Effect.pure_apply,
        Prod.mk.injEq, true_and, RangesQuery.ext_iff, Unresolved, List.not_mem_nil, false_and,
        exists_false, decide_false, Bool.or_false]
      constructor
      · rintro ⟨found, ranges, unresolved⟩
        exact ⟨ranges, unresolved.symm, found.symm⟩
      · rintro ⟨ranges, unresolved, found⟩
        exact ⟨found.symm, ranges, unresolved.symm⟩
  | cons scope rest ih =>
      rw [visitEach, RangesQuery.visitScope, named_cons, Effect.bind_eq_ok]
      simp only [unresolved_cons]
      cases requester : scope.requester with
      | none =>
          simp only [Effect.modify_apply, Option.toList_none, List.nil_append, true_or, decide_true,
            Bool.or_true]
          constructor
          · rintro ⟨_, middle, moved, visited⟩
            cases moved
            have rest := (ih _).mp visited
            simpa using rest
          · rintro rest
            exact ⟨(), _, rfl, (ih _).mpr (by simpa using rest)⟩
      | some range =>
          simp only [Option.toList_some, List.cons_append, List.nil_append, BdfRangeSet.insertEach,
            reduceCtorEq, false_or]
          constructor
          · rintro ⟨_, middle, moved, visited⟩
            obtain ⟨ranges, inserted, rfl⟩ := Effect.within_eq_ok.mp moved
            obtain ⟨others, unresolved, found⟩ := (ih _).mp visited
            refine ⟨?_, unresolved, found⟩
            rw [Effect.bind_of_ok (Effect.mapError_eq_ok.mp inserted)]
            exact others
          · rintro ⟨inserted, unresolved, found⟩
            obtain ⟨_, ranges, first, others⟩ := Effect.bind_eq_ok.mp inserted
            refine ⟨(), { query with ranges }, ?_, (ih _).mpr ⟨others, unresolved, found⟩⟩
            exact Effect.within_eq_ok.mpr ⟨ranges, Effect.mapError_eq_ok.mpr first, rfl⟩

namespace DmarTable

variable (table : DmarTable) (registers : AddrRange)

def explicitScopes (unit : DmarDrhd) : List DmarDeviceScope :=
  if unit.registers = registers ∧ unit.includeAll = false then (table.scopes unit).1 else []

def Walkable (unit : DmarDrhd) : Prop :=
  unit.registers = registers → unit.includeAll = false → (table.scopes unit).2 = .ok ()

theorem rangesOfUnit_eq_ok (unit : DmarDrhd) (query final : RangesQuery) :
    table.rangesOfUnit registers unit query = (.ok (), final) ↔
      table.Walkable registers unit ∧
      BdfRangeSet.insertEach (named (table.explicitScopes registers unit)) query.ranges =
        (.ok (), final.ranges) ∧
      final.unresolved =
        (query.unresolved || decide (Unresolved (table.explicitScopes registers unit))) ∧
      final.foundUnit = (query.foundUnit || decide (unit.registers = registers)) := by
  have visited := RangesQuery.visitScopes_eq_ok
  rw [rangesOfUnit, Walkable, explicitScopes]
  by_cases here : unit.registers = registers
  · rw [if_neg (not_not_intro here), Effect.bind_of_ok (Effect.modify_apply _ _)]
    simp only [here, true_and, decide_true, Bool.or_true, true_implies]
    cases all : unit.includeAll with
    | true =>
        simp only [if_true, reduceCtorEq, if_false, false_implies, true_and]
        exact visited [] _ final
    | false =>
        simp only [Bool.false_eq_true, if_false, if_true, true_implies, forEachDrhdDeviceScope_eq]
        rw [visitAll_eq_ok, visited]
  · rw [if_pos here]
    simp only [here, false_and, if_false, false_implies, true_and, decide_false, Bool.or_false]
    exact visited [] query final

theorem rangesOfUnits_eq_ok (units : List DmarDrhd) (query final : RangesQuery) :
    visitEach (table.rangesOfUnit registers) units query = (.ok (), final) ↔
      (∀ unit ∈ units, table.Walkable registers unit) ∧
      BdfRangeSet.insertEach (named (units.flatMap (table.explicitScopes registers))) query.ranges =
        (.ok (), final.ranges) ∧
      final.unresolved = (query.unresolved ||
        decide (Unresolved (units.flatMap (table.explicitScopes registers)))) ∧
      final.foundUnit =
        (query.foundUnit || decide (∃ unit ∈ units, unit.registers = registers)) := by
  induction units generalizing query with
  | nil =>
      rw [show visitEach (table.rangesOfUnit registers) [] = visitEach RangesQuery.visitScope [] from rfl,
        RangesQuery.visitScopes_eq_ok]
      simp [Unresolved]
  | cons unit rest ih =>
      rw [visitEach, Effect.bind_eq_ok, List.flatMap_cons, named_append,
        BdfRangeSet.insertEach_append, Effect.bind_eq_ok]
      simp only [unresolved_append, List.mem_cons, forall_eq_or_imp, exists_eq_or_imp,
        Bool.decide_or]
      constructor
      · rintro ⟨_, middle, first, others⟩
        obtain ⟨walks, inserted, unresolved, found⟩ := (table.rangesOfUnit_eq_ok _ _ _ _).mp first
        obtain ⟨rest_walks, more, rest_unresolved, rest_found⟩ := (ih middle).mp others
        refine ⟨⟨walks, rest_walks⟩, ⟨(), middle.ranges, inserted, more⟩, ?_, ?_⟩
        · rw [rest_unresolved, unresolved, Bool.or_assoc]
        · rw [rest_found, found, Bool.or_assoc]
      · rintro ⟨⟨walks, rest_walks⟩, ⟨_, ranges, inserted, more⟩, unresolved, found⟩
        have first := (table.rangesOfUnit_eq_ok registers unit query ⟨_, ranges, _⟩).mpr
          ⟨walks, inserted, rfl, rfl⟩
        refine ⟨(), _, first, (ih _).mpr ⟨rest_walks, more, ?_, ?_⟩⟩
        · exact unresolved.trans (Bool.or_assoc ..).symm
        · exact found.trans (Bool.or_assoc ..).symm

def windowScopes : List DmarDeviceScope := table.drhds.flatMap (table.explicitScopes registers)

theorem windowScopes_nil (none : ∀ unit ∈ table.drhds, unit.registers ≠ registers) :
    table.windowScopes registers = [] := by
  rw [windowScopes, List.flatMap_eq_nil_iff]
  intro unit member
  rw [explicitScopes, if_neg (fun both => none unit member both.1)]

theorem scope_requester {unit : DmarDrhd} {scope : DmarDeviceScope}
    (member : scope ∈ (table.scopes unit).1) :
    scope.requester = (scope.path.singleRequester scope.startBus).toOption.map .single := by
  obtain ⟨offset, after, found⟩ := mem_transcript member
  rw [scopeRound] at found
  split at found
  · cases found
  simp only [Parse.bind_eq_ok] at found
  obtain ⟨header, _, found⟩ := found
  split at found
  · exact absurd ⟨_, found⟩ malformed_ne_ok
  simp only [Parse.bind_eq_ok] at found
  obtain ⟨scopeOffset, _, length, _, found⟩ := found
  split at found
  · exact absurd ⟨_, found⟩ malformed_ne_ok
  simp only [Parse.bind_eq_ok] at found
  obtain ⟨stop, _, found⟩ := found
  split at found
  · exact absurd ⟨_, found⟩ malformed_ne_ok
  split at found
  · exact absurd ⟨_, found⟩ malformed_ne_ok
  simp only [Parse.bind_eq_ok] at found
  obtain ⟨startBus, _, pathStart, _, pathEnd, _, bytes, _, kind, _, flags, _, number, _, built⟩ :=
    found
  cases built
  rfl

theorem scope_named {unit : DmarDrhd} {range : BdfRange}
    (member : range ∈ named (table.scopes unit).1) : ∃ bdf, range = .single bdf := by
  obtain ⟨scope, found, requester⟩ := List.mem_filterMap.mp member
  rw [table.scope_requester found] at requester
  obtain ⟨bdf, _, rfl⟩ := Option.map_eq_some_iff.mp requester
  exact ⟨bdf, rfl⟩

theorem windowScopes_mem {scope : DmarDeviceScope} (member : scope ∈ table.windowScopes registers) :
    ∃ unit ∈ table.drhds, unit.registers = registers ∧ unit.includeAll = false ∧
      scope ∈ (table.scopes unit).1 := by
  obtain ⟨unit, among, found⟩ := List.mem_flatMap.mp member
  rw [explicitScopes] at found
  split at found
  · next here => exact ⟨unit, among, here.1, here.2, found⟩
  · cases found

theorem windowScope_named {range : BdfRange}
    (member : range ∈ named (table.windowScopes registers)) : ∃ bdf, range = .single bdf := by
  obtain ⟨scope, found, requester⟩ := List.mem_filterMap.mp member
  obtain ⟨unit, _, _, _, among⟩ := table.windowScopes_mem registers found
  exact table.scope_named (List.mem_filterMap.mpr ⟨scope, among, requester⟩)

theorem collected_none {set : DmarBdfRangeSet}
    (collected : BdfRangeSet.insertEach (named (table.windowScopes registers)) .empty =
      (.ok (), set)) : set.count = 0 ↔ named (table.windowScopes registers) = [] := by
  constructor
  · intro nothing
    apply List.eq_nil_iff_forall_not_mem.mpr
    intro range member
    obtain ⟨bdf, rfl⟩ := table.windowScope_named registers member
    have held := (BdfRangeSet.contains_insertEach collected bdf).mpr
      ⟨_, member, by simp [BdfRange.contains, BdfRange.single]⟩
    obtain ⟨index, below, _⟩ := held
    omega
  · intro nothing
    rw [nothing] at collected
    cases collected
    rfl

def Collects (set : DmarBdfRangeSet) : Prop :=
  table.scanned.2 = .ok () ∧ (∀ unit ∈ table.drhds, table.Walkable registers unit) ∧
    BdfRangeSet.insertEach (named (table.windowScopes registers)) .empty = (.ok (), set)

theorem drhdBdfRanges_eq_ok (result : Option DmarBdfRangeSet) :
    table.drhdBdfRanges registers = .ok result ↔
      ∃ set, table.Collects registers set ∧
        result = if Unresolved (table.windowScopes registers) ∨
          named (table.windowScopes registers) = [] then none else some set := by
  have finished := table.forEachStructure_eq_ok (table.rangesOfUnit registers) ⟨false, .empty, false⟩
  simp only [rangesOfUnits_eq_ok, Bool.false_or] at finished
  rw [drhdBdfRanges]
  rcases ran : table.forEachStructure (onDrhd (table.rangesOfUnit registers)) ⟨false, .empty, false⟩
    with ⟨outcome, query⟩
  rw [ran] at finished
  cases outcome with
  | error stop =>
      simp only [reduceCtorEq, false_iff, not_exists, not_and]
      rintro set ⟨scan, walks, collected⟩
      have ended := (finished ⟨_, set, _⟩).mpr ⟨scan, walks, collected, rfl, rfl⟩
      simp at ended
  | ok value =>
      obtain ⟨scan, walks, collected, unresolved, found⟩ := (finished query).mp rfl
      have collects : table.Collects registers query.ranges := ⟨scan, walks, collected⟩
      have empty := table.collected_none registers collected
      have missing : query.foundUnit = false → named (table.windowScopes registers) = [] := by
        intro absent
        rw [absent] at found
        have none : ∀ unit ∈ table.drhds, unit.registers ≠ registers := by simpa using found
        rw [table.windowScopes_nil registers none]
        rfl
      have condition : (!query.foundUnit ∨ query.unresolved ∨ query.ranges.count = 0) ↔
          Unresolved (table.windowScopes registers) ∨
            named (table.windowScopes registers) = [] := by
        rw [unresolved, empty, Bool.not_eq_true', decide_eq_true_iff]
        constructor
        · rintro (absent | either)
          · exact Or.inr (missing absent)
          · exact either
        · exact Or.inr
      have same : ∀ set, table.Collects registers set → set = query.ranges := by
        intro set others
        have both := collected.symm.trans others.2.2
        exact (Prod.mk.inj both).2.symm
      simp only [condition]
      constructor
      · intro returned
        refine ⟨query.ranges, collects, ?_⟩
        split at returned
        · next holds =>
          rw [if_pos holds]
          exact (Except.ok.inj returned).symm
        · next fails =>
          rw [if_neg fails]
          exact (Except.ok.inj returned).symm
      · rintro ⟨set, others, rfl⟩
        rw [same set others]
        split
        · rfl
        · rfl

def reply (unit : DmarDrhd) (requester : PciDevice) : DmarRequesterMatch :=
  if unit.segment ≠ requester.segment then .notCovered
  else if unit.includeAll ∨ Names (table.scopes unit).1 requester.bdf then .covered
  else if Unresolved (table.scopes unit).1 then .unresolved
  else .notCovered

def Answers (requester : PciDevice) (unit : DmarDrhd) : Prop :=
  unit.segment = requester.segment → unit.includeAll = false → (table.scopes unit).2 = .ok ()

theorem reply_eq_covered (unit : DmarDrhd) (requester : PciDevice) :
    table.reply unit requester = .covered ↔
      unit.segment = requester.segment ∧
        (unit.includeAll = true ∨ Names (table.scopes unit).1 requester.bdf) := by
  rw [reply]
  grind

theorem reply_eq_notCovered (unit : DmarDrhd) (requester : PciDevice) :
    table.reply unit requester = .notCovered ↔
      unit.segment ≠ requester.segment ∨
        unit.includeAll = false ∧ ¬Names (table.scopes unit).1 requester.bdf ∧
          ¬Unresolved (table.scopes unit).1 := by
  rw [reply]
  grind

theorem ScopeFlags.visitScopes (bdf : Bdf) (scopes : List DmarDeviceScope) (flags : ScopeFlags) :
    visitEach (ScopeFlags.visitScope bdf) scopes flags =
      (.ok (), ⟨flags.exactMatch || decide (Names scopes bdf),
        flags.unresolved || decide (Unresolved scopes)⟩) := by
  induction scopes generalizing flags with
  | nil => simp [visitEach, Names, named, Unresolved]
  | cons scope rest ih =>
      rw [visitEach, ScopeFlags.visitScope, Effect.bind_apply]
      simp only [names_cons, unresolved_cons]
      cases requester : scope.requester with
      | none => simp [ih]
      | some range =>
          by_cases contained : range.contains bdf = true
          · simp [contained, ih]
          · simp [contained, ih]

theorem scopeFlags_eq_ok (unit : DmarDrhd) (bdf : Bdf) (flags : ScopeFlags) :
    table.scopeFlags unit bdf = .ok flags ↔ (table.scopes unit).2 = .ok () ∧
      flags = ⟨decide (Names (table.scopes unit).1 bdf),
        decide (Unresolved (table.scopes unit).1)⟩ := by
  have visited := ScopeFlags.visitScopes bdf (table.scopes unit).1 ⟨false, false⟩
  rw [scopeFlags, forEachDrhdDeviceScope_eq, visitAll, Effect.bind_of_ok visited,
    Effect.ofExcept_apply]
  simp only [Bool.false_or]
  cases (table.scopes unit).2 with
  | error stop => simp
  | ok value => simp [eq_comm]

theorem ScopeFlags.result_eq (named unresolved : Prop) [Decidable named] [Decidable unresolved] :
    (⟨decide named, decide unresolved⟩ : ScopeFlags).result =
      if named then .covered else if unresolved then .unresolved else .notCovered := by
  simp [ScopeFlags.result]

theorem matchOfUnit_eq_ok (requester : PciDevice) (unit : DmarDrhd)
    (start final : Option DmarRequesterMatch) :
    table.matchOfUnit registers requester unit start = (.ok (), final) ↔
      if unit.registers = registers then
        table.Answers requester unit ∧ final = some (table.reply unit requester)
      else final = start := by
  rw [matchOfUnit, Answers, reply]
  by_cases here : unit.registers = registers
  · rw [if_neg (not_not_intro here), if_pos here]
    by_cases segment : unit.segment = requester.segment
    · rw [if_neg (not_not_intro segment), if_neg (not_not_intro segment)]
      cases all : unit.includeAll with
      | true => simp [eq_comm]
      | false =>
          simp only [Bool.false_eq_true, if_false, false_or, segment, true_implies,
            Effect.bind_eq_ok, Effect.ofExcept_apply, Effect.modify_apply, Prod.mk.injEq,
            scopeFlags_eq_ok]
          constructor
          · rintro ⟨flags, _, ⟨⟨walks, rfl⟩, rfl⟩, _, rfl⟩
            exact ⟨walks, congrArg some (ScopeFlags.result_eq _ _)⟩
          · rintro ⟨walks, rfl⟩
            exact ⟨_, start, ⟨⟨walks, rfl⟩, rfl⟩, trivial, congrArg some (ScopeFlags.result_eq _ _)⟩
    · rw [if_pos segment, if_pos segment, Effect.modify_apply]
      simp only [segment, false_implies, true_and, Prod.mk.injEq, eq_comm]
  · rw [if_pos here, if_neg here, Effect.pure_apply]
    simp [eq_comm]

/-- The unit whose answer a query for a requester gives: the last with the window. -/
def decisive : Option DmarDrhd := (table.drhds.filter (·.registers = registers)).getLast?

theorem matchOfUnits_eq_ok (requester : PciDevice) (units : List DmarDrhd)
    (start final : Option DmarRequesterMatch) :
    visitEach (table.matchOfUnit registers requester) units start = (.ok (), final) ↔
      (∀ unit ∈ units, unit.registers = registers → table.Answers requester unit) ∧
      final = match (units.filter (·.registers = registers)).getLast? with
        | none => start
        | some unit => some (table.reply unit requester) := by
  induction units generalizing start with
  | nil =>
      simp [visitEach, eq_comm]
  | cons unit rest ih =>
      rw [visitEach, Effect.bind_eq_ok]
      simp only [ih, List.mem_cons, forall_eq_or_imp]
      by_cases here : unit.registers = registers
      · rw [List.filter_cons_of_pos (by simpa using here), List.getLast?_cons]
        constructor
        · rintro ⟨_, middle, first, others, chosen⟩
          have answered := (table.matchOfUnit_eq_ok registers _ _ _ _).mp first
          rw [if_pos here] at answered
          obtain ⟨answers, rfl⟩ := answered
          refine ⟨⟨fun _ => answers, others⟩, chosen.trans ?_⟩
          cases (rest.filter (·.registers = registers)).getLast? <;> rfl
        · rintro ⟨⟨answers, others⟩, chosen⟩
          have first := (table.matchOfUnit_eq_ok registers requester unit start
            (some (table.reply unit requester))).mpr ((if_pos here).mpr ⟨answers here, rfl⟩)
          refine ⟨(), _, first, others, chosen.trans ?_⟩
          cases (rest.filter (·.registers = registers)).getLast? <;> rfl
      · rw [List.filter_cons_of_neg (by simpa using here)]
        have skipped := fun final => table.matchOfUnit_eq_ok registers requester unit start final
        simp only [if_neg here] at skipped
        constructor
        · rintro ⟨_, middle, first, others, chosen⟩
          obtain rfl := (skipped middle).mp first
          exact ⟨⟨fun same => absurd same here, others⟩, chosen⟩
        · rintro ⟨⟨_, others⟩, chosen⟩
          exact ⟨(), start, (skipped start).mpr rfl, others, chosen⟩

theorem drhdRequesterMatch_eq_ok (requester : PciDevice) (result : Option DmarRequesterMatch) :
    table.drhdRequesterMatch registers requester = .ok result ↔
      table.scanned.2 = .ok () ∧
      (∀ unit ∈ table.drhds, unit.registers = registers → table.Answers requester unit) ∧
      result = (table.decisive registers).map (table.reply · requester) := by
  have finished := table.forEachStructure_eq_ok (table.matchOfUnit registers requester) none
  simp only [matchOfUnits_eq_ok] at finished
  have chosen : ∀ found : Option DmarDrhd, found.map (table.reply · requester) =
      match found with
      | none => none
      | some unit => some (table.reply unit requester) := by
    intro found
    cases found <;> rfl
  rw [drhdRequesterMatch, decisive, chosen, ← finished]
  rcases table.forEachStructure (onDrhd (table.matchOfUnit registers requester)) none
    with ⟨outcome, matched⟩
  cases outcome with
  | error stop => simp
  | ok value => simp

end DmarTable

end Iommu
