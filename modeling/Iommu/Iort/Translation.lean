import Iommu.Iort.Contents
import Iommu.Library.Trails

/-!
The walk of an ID through the mappings of the nodes. It stops after as many nodes as the
table has, which is enough for every walk that comes to no node twice.
-/

namespace Iommu

open MachineWord FirmwareTable

namespace IortTable

/-- The nodes of the table all parse, and their arrays of ID mappings lie in them. -/
structure WellFormed (table : IortTable) (nodes : List IortNode) : Prop where
  holds : table.Holds nodes
  arrays : ∀ node ∈ nodes, ∃ cursor, idMappings node = .ok cursor

def follow (table : IortTable) (nodes : List IortNode) (place : IortIdTranslation) :
    Option IortIdTranslation :=
  match table.translateOnce place.node place.id with
  | .ok (some translation) =>
      (nodes.find? fun node => node.header.offset = translation.outputReference.toNat).map
        fun node => ⟨node, translation.id⟩
  | _ => none

/-- Where an ID goes on to from a node: the node that its translation refers to. -/
def onward (table : IortTable) (place : IortIdTranslation) : Parse IortError (Option IortIdTranslation) := do
  match ← table.translateOnce place.node place.id with
  | none => pure none
  | some translation => do
      match ← table.nodeByReference translation.outputReference with
      | none => pure none
      | some next => pure (some ⟨next, translation.id⟩)

def cycle : Parse IortError (Option IortIdTranslation) :=
  malformed "IORT ID mapping graph contains a cycle"

def outcome : Sought IortIdTranslation → Parse IortError (Option IortIdTranslation)
  | .found place => .ok (some place)
  | .ended => .ok none
  | .gaveUp => cycle

theorem outcome_ne_cycle {sought : Sought IortIdTranslation} (stopped : outcome sought = cycle) :
    sought = .gaveUp := by
  cases sought with
  | found place => simp [outcome, cycle, malformed, Parse.fail] at stopped
  | ended => simp [outcome, cycle, malformed, Parse.fail] at stopped
  | gaveUp => rfl

def IsKind (target : IortNodeKind) (place : IortIdTranslation) : Bool :=
  place.node.header.kind = target

variable {table : IortTable} {nodes : List IortNode}

theorem WellFormed.translateOnce_total (formed : table.WellFormed nodes) {node : IortNode}
    (member : node ∈ nodes) (id : UInt32) :
    ∃ translation, table.translateOnce node id = .ok translation := by
  obtain ⟨cursor, opened⟩ := formed.arrays node member
  obtain ⟨mappings, maps⟩ := maps_of_opened (formed.holds.fits member) opened
  exact ⟨_, translateOnce_eq maps id⟩

theorem follow_mem {place next : IortIdTranslation} (followed : table.follow nodes place = some next) :
    next.node ∈ nodes := by
  rw [follow] at followed
  split at followed
  · obtain ⟨node, found, rfl⟩ := Option.map_eq_some_iff.mp followed
    exact List.mem_of_find?_eq_some found
  · cases followed

theorem trail_mem {start place : IortIdTranslation} {steps : Nat} (member : start.node ∈ nodes)
    (there : trail (table.follow nodes) start steps = some place) : place.node ∈ nodes := by
  cases steps with
  | zero =>
      obtain rfl := Option.some.inj there
      exact member
  | succ steps =>
      rw [trail_succ] at there
      obtain ⟨last, _, followed⟩ := Option.bind_eq_some_iff.mp there
      exact follow_mem followed

theorem mapIdLoop_succ (table : IortTable) (target : IortNodeKind) (remaining : Nat)
    (start : IortIdTranslation) :
    table.mapIdLoop target (remaining + 1) start.node start.id =
      if IsKind target start then .ok (some start)
      else table.onward start >>= fun
        | none => .ok none
        | some next => table.mapIdLoop target remaining next.node next.id := by
  rw [mapIdLoop, IsKind, onward]
  by_cases here : start.node.header.kind = target
  · rw [if_pos here, decide_eq_true here, if_pos rfl]
    rfl
  · rw [if_neg here, decide_eq_false here, if_neg Bool.false_ne_true]
    cases table.translateOnce start.node start.id with
    | error stop => rfl
    | ok translation =>
        cases translation with
        | none => rfl
        | some translation =>
            simp only [Parse.ok_bind]
            cases table.nodeByReference translation.outputReference with
            | error stop => rfl
            | ok found => cases found <;> rfl

theorem onward_eq (formed : table.WellFormed nodes) {place : IortIdTranslation}
    (member : place.node ∈ nodes) : table.onward place = .ok (table.follow nodes place) := by
  obtain ⟨translation, translated⟩ := formed.translateOnce_total member place.id
  rw [onward, follow, translated, Parse.ok_bind]
  cases translation with
  | none => rfl
  | some translation =>
      dsimp only
      rw [nodeByReference_eq formed.holds, Parse.ok_bind]
      cases nodes.find? fun node => node.header.offset = translation.outputReference.toNat with
      | none => rfl
      | some next => rfl

/-- The loop of a walk is the search for a node of the kind along the trail of the ID. -/
theorem mapIdLoop_eq (formed : table.WellFormed nodes) (target : IortNodeKind) (remaining : Nat)
    (place : IortIdTranslation) (member : place.node ∈ nodes) :
    table.mapIdLoop target remaining place.node place.id =
      outcome (seek (IsKind target) (table.follow nodes) remaining place) := by
  induction remaining generalizing place with
  | zero => rfl
  | succ remaining ih =>
      rw [mapIdLoop_succ, seek, onward_eq formed member, Parse.ok_bind]
      cases IsKind target place with
      | true => rfl
      | false =>
          cases followed : table.follow nodes place with
          | none => rfl
          | some next => exact ih next (follow_mem followed)

theorem mapIdToKind_eq (formed : table.WellFormed nodes) {node : IortNode} (member : node ∈ nodes)
    (id : UInt32) (target : IortNodeKind) :
    table.mapIdToKind node id target =
      outcome (seek (IsKind target) (table.follow nodes) nodes.length ⟨node, id⟩) := by
  obtain ⟨count, counted, same⟩ := formed.holds.complete
  rw [mapIdToKind, counted, Parse.ok_bind, same]
  exact mapIdLoop_eq formed target nodes.length ⟨node, id⟩ member

theorem steps_lt {start place : IortIdTranslation} {steps : Nat} (member : start.node ∈ nodes)
    (there : trail (table.follow nodes) start steps = some place)
    (apart : ¬Revisits IortIdTranslation.node (table.follow nodes) start steps) :
    steps < nodes.length := by
  by_contra long
  exact apart (revisits_of_long (fun _ _ passed => trail_mem member passed) there
    (Nat.le_of_not_lt long))

end IortTable

/-- In a table whose nodes all parse, with their arrays of ID mappings inside them, the walk of an ID from
a node gives the first node of the kind, or none when it ends without one, unless it comes to a node
twice. It says that there is a cycle only when it comes to a node twice, and always when it never ends
and meets no node of the kind. -/
theorem id_walks_exact (table : IortTable) (nodes : List IortNode) (formed : table.WellFormed nodes)
    (node : IortNode) (member : node ∈ nodes) (id : UInt32) (target : IortNodeKind) :
    (∀ steps place, Reaches (IortTable.IsKind target) (table.follow nodes) ⟨node, id⟩ steps place →
      ¬Revisits IortIdTranslation.node (table.follow nodes) ⟨node, id⟩ steps →
        (place.node.header.kind = target → table.mapIdToKind node id target = .ok (some place)) ∧
        (place.node.header.kind ≠ target → table.follow nodes place = none →
          table.mapIdToKind node id target = .ok none)) ∧
    (table.mapIdToKind node id target = IortTable.cycle →
      ∃ steps, Revisits IortIdTranslation.node (table.follow nodes) ⟨node, id⟩ steps) ∧
    ((∀ steps, ∃ place, trail (table.follow nodes) ⟨node, id⟩ steps = some place ∧
        place.node.header.kind ≠ target) →
      table.mapIdToKind node id target = IortTable.cycle) ∧
    ((∃ translation, table.mapIdToKind node id target = .ok translation) ∨
      table.mapIdToKind node id target = IortTable.cycle) ∧
    ∀ passed ∈ nodes, ∀ inputId,
      ∃ translation, table.translateOnce passed inputId = .ok translation := by
  rw [IortTable.mapIdToKind_eq formed member]
  refine ⟨?_, ?_, ?_, ?_, fun passed among => formed.translateOnce_total among⟩
  · intro steps place reaches apart
    have short := IortTable.steps_lt member reaches.there apart
    constructor
    · intro here
      rw [seek_found reaches (decide_eq_true here) short, IortTable.outcome]
    · intro other stuck
      rw [seek_ended reaches (decide_eq_false other) stuck short, IortTable.outcome]
  · intro stopped
    have gaveUp := IortTable.outcome_ne_cycle stopped
    rcases seek_cases (IortTable.IsKind target) (table.follow nodes) nodes.length ⟨node, id⟩ with
      ⟨_, _, _, _, _, found⟩ | ⟨_, _, _, _, _, _, ended⟩ | ⟨⟨place, reaches⟩, _⟩
    · rw [gaveUp] at found
      cases found
    · rw [gaveUp] at ended
      cases ended
    · exact ⟨nodes.length, revisits_of_long
        (fun _ _ passed => IortTable.trail_mem member passed) reaches.there (Nat.le_refl _)⟩
  · intro endless
    rcases seek_cases (IortTable.IsKind target) (table.follow nodes) nodes.length ⟨node, id⟩ with
      ⟨steps, place, _, reaches, here, _⟩ | ⟨steps, place, _, reaches, _, stuck, _⟩ | ⟨_, gaveUp⟩
    · obtain ⟨passed, there, other⟩ := endless steps
      obtain rfl := Option.some.inj (reaches.there.symm.trans there)
      exact absurd (of_decide_eq_true here) other
    · obtain ⟨next, there, _⟩ := endless (steps + 1)
      rw [trail_succ, reaches.there, Option.bind_some, stuck] at there
      cases there
    · rw [gaveUp, IortTable.outcome]
  · cases seek (IortTable.IsKind target) (table.follow nodes) nodes.length ⟨node, id⟩ with
    | found place => exact Or.inl ⟨_, rfl⟩
    | ended => exact Or.inl ⟨_, rfl⟩
    | gaveUp => exact Or.inr rfl

def iortSampleGroup : IortNode :=
  .itsGroup ⟨1, ⟨.itsGroup, 1, 0, 0, 0, 48, 24⟩⟩

def iortSampleRoot : IortNode :=
  .rootComplex ⟨⟨0, 0, 0⟩, 0, 0, 0, 0, ⟨.rootComplex, 3, 1, 1, 36, 72, 56⟩⟩

theorem iortSample_wellFormed : iortSample.WellFormed [iortSampleGroup, iortSampleRoot] where
  holds := ⟨⟨48, 2⟩, by decide +kernel, by decide +kernel⟩
  arrays := by
    intro node member
    rcases List.mem_pair.mp member with rfl | rfl
    · exact ⟨⟨72, 0⟩, by decide⟩
    · exact ⟨⟨108, 1⟩, by decide⟩

theorem id_walks_exact_sample :
    iortSample.mapIdToKind iortSampleRoot 5 .itsGroup = .ok (some ⟨iortSampleGroup, 5⟩) := by
  have walks := id_walks_exact iortSample [iortSampleGroup, iortSampleRoot] iortSample_wellFormed
    iortSampleRoot (by simp) 5 .itsGroup
  have there : trail (iortSample.follow [iortSampleGroup, iortSampleRoot]) ⟨iortSampleRoot, 5⟩ 1 =
      some ⟨iortSampleGroup, 5⟩ := by
    decide +kernel
  refine (walks.1 1 ⟨iortSampleGroup, 5⟩ ⟨there, ?_⟩ ?_).1 rfl
  · intro earlier below passed at_earlier
    obtain rfl := Nat.lt_one_iff.mp below
    obtain rfl := Option.some.inj at_earlier
    rfl
  · rintro ⟨first, second, before, short, start, stop, at_first, at_second, same⟩
    obtain rfl : first = 0 := by omega
    obtain rfl : second = 1 := by omega
    obtain rfl := Option.some.inj at_first
    obtain rfl := Option.some.inj (there.symm.trans at_second)
    cases same

end Iommu
