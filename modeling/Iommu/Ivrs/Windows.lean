import Iommu.Ivrs.Totality

/-!
Which requesters the units behind a register window cover, collected into a set of ranges
over the blocks of the table and the device entries of each unit that matches.
-/

namespace Iommu

open MachineWord FirmwareTable

def IVRS_REQUESTER_WINDOW_CAPACITY : Nat := 16

abbrev IvrsBdfRangeSet := BdfRangeSet IVRS_REQUESTER_WINDOW_CAPACITY

structure IvhdRangesQuery where
  foundUnit : Bool
  ranges : IvrsBdfRangeSet
  sawAll : Bool

namespace IvhdRangesQuery

def insert (range : BdfRange) : Effect IvhdRangesQuery (Stop IvrsError) Unit :=
  .within ranges (fun query ranges => { query with ranges })
    ((BdfRangeSet.insert range).mapError fun error => .failed (.bdfRanges error))

def insertInclusive (start last : Bdf) : Effect IvhdRangesQuery (Stop IvrsError) Unit :=
  match BdfRange.inclusive start last with
  | .error error => .fail (.failed (.bdfRanges (.invalidRange error)))
  | .ok range => insert range

def visitEntry : IvhdDeviceEntry → Effect IvhdRangesQuery (Stop IvrsError) Unit
  | .all _ => .modify fun query => { query with sawAll := true }
  | .select deviceId _ => insert (.single deviceId)
  | .aliasSelect deviceId _ _ => insert (.single deviceId)
  | .extendedSelect deviceId _ _ => insert (.single deviceId)
  | .special deviceId _ => insert (.single deviceId)
  | .acpiNamed deviceId _ _ _ _ _ => insert (.single deviceId)
  | .range start last _ => insertInclusive start last
  | .aliasRange start last _ _ => insertInclusive start last
  | .extendedRange start last _ _ => insertInclusive start last
  | .pad => pure ()

end IvhdRangesQuery

namespace IvrsTable

variable (table : IvrsTable)

def forEachBlock {World : Type} (visit : IvrsBlock → Effect World (Stop IvrsError) Unit) :
    Effect World (Stop IvrsError) Unit :=
  walk (itemRound table.nextBlock) visit table.rounds IVRS_BLOCKS_OFFSET

def rangesOfBlock (registers : AddrRange) : IvrsBlock → Effect IvhdRangesQuery (Stop IvrsError) Unit
  | .ivhd unit =>
      if unit.registers ≠ registers then pure ()
      else do
        .modify fun query => { query with foundUnit := true }
        if unit.includeAll then .modify fun query => { query with sawAll := true }
        else
          table.walkDeviceEntries unit.blockOffset (deviceEntriesOffset unit.blockType) unit.length
            IvhdRangesQuery.visitEntry
  | _ => pure ()

def ivhdBdfRanges (registers : AddrRange) : Parse IvrsError (Option IvrsBdfRangeSet) :=
  match table.forEachBlock (table.rangesOfBlock registers) ⟨false, .empty, false⟩ with
  | (.error stop, _) => .error stop
  | (.ok (), query) =>
      if !query.foundUnit ∨ query.sawAll ∨ query.ranges.count = 0 then .ok none
      else .ok (some query.ranges)

end IvrsTable

namespace IvhdDeviceEntry

def isAll : IvhdDeviceEntry → Bool
  | .all _ => true
  | _ => false

/-- The entry is for the requester; an entry for all of them is left to itself. -/
def Covers : IvhdDeviceEntry → Bdf → Prop
  | .pad, _ => False
  | .all _, _ => False
  | .select deviceId _, bdf => bdf = deviceId
  | .aliasSelect deviceId _ _, bdf => bdf = deviceId
  | .extendedSelect deviceId _ _, bdf => bdf = deviceId
  | .special deviceId _, bdf => bdf = deviceId
  | .acpiNamed deviceId _ _ _ _ _, bdf => bdf = deviceId
  | .range start last _, bdf => start.raw ≤ bdf.raw ∧ bdf.raw ≤ last.raw
  | .aliasRange start last _ _, bdf => start.raw ≤ bdf.raw ∧ bdf.raw ≤ last.raw
  | .extendedRange start last _ _, bdf => start.raw ≤ bdf.raw ∧ bdf.raw ≤ last.raw

def window : IvhdDeviceEntry → Option BdfRange
  | .pad => none
  | .all _ => none
  | .select deviceId _ => some (.single deviceId)
  | .aliasSelect deviceId _ _ => some (.single deviceId)
  | .extendedSelect deviceId _ _ => some (.single deviceId)
  | .special deviceId _ => some (.single deviceId)
  | .acpiNamed deviceId _ _ _ _ _ => some (.single deviceId)
  | .range start last _ => (BdfRange.inclusive start last).toOption
  | .aliasRange start last _ _ => (BdfRange.inclusive start last).toOption
  | .extendedRange start last _ _ => (BdfRange.inclusive start last).toOption

theorem inclusive_ordered {start last : Bdf} (ordered : start.raw ≤ last.raw) :
    ∃ range, BdfRange.inclusive start last = .ok range ∧ range.isEmpty = false ∧
      ∀ bdf, range.contains bdf = true ↔ start.raw ≤ bdf.raw ∧ bdf.raw ≤ last.raw :=
  @BdfRange.inclusive_of_le start last ordered

theorem window_exact {entry : IvhdDeviceEntry} (ordered : entry.Ordered) (bdf : Bdf) :
    (∃ range, entry.window = some range ∧ range.contains bdf = true) ↔ entry.Covers bdf := by
  cases entry with
  | pad => simp [window, Covers]
  | all setting => simp [window, Covers]
  | range start last setting =>
      obtain ⟨range, built, _, contains⟩ := inclusive_ordered ordered
      simp [window, Covers, built, Except.toOption, contains]
  | aliasRange start last source setting =>
      obtain ⟨range, built, _, contains⟩ := inclusive_ordered ordered
      simp [window, Covers, built, Except.toOption, contains]
  | extendedRange start last setting extended =>
      obtain ⟨range, built, _, contains⟩ := inclusive_ordered ordered
      simp [window, Covers, built, Except.toOption, contains]
  | _ => simp [window, Covers, BdfRange.single_contains]

theorem window_filled {entry : IvhdDeviceEntry} (ordered : entry.Ordered) {range : BdfRange}
    (found : entry.window = some range) : range.isEmpty = false := by
  have single_filled : ∀ bdf, (BdfRange.single bdf).isEmpty = false := by
    intro bdf
    simp [BdfRange.isEmpty, BdfRange.single]
  have inclusive_filled : ∀ {start last : Bdf}, start.raw ≤ last.raw →
      (BdfRange.inclusive start last).toOption = some range → range.isEmpty = false := by
    intro start last ordered found
    obtain ⟨other, built, filled, _⟩ := inclusive_ordered ordered
    rw [built] at found
    obtain rfl := Option.some.inj found
    exact filled
  cases entry with
  | pad => cases found
  | all setting => cases found
  | range start last setting => exact inclusive_filled ordered found
  | aliasRange start last source setting => exact inclusive_filled ordered found
  | extendedRange start last setting extended => exact inclusive_filled ordered found
  | _ =>
      cases found
      exact single_filled _

theorem window_eq_none {entry : IvhdDeviceEntry} (ordered : entry.Ordered) (single : entry.isAll = false) :
    entry.window = none ↔ entry = .pad := by
  cases entry with
  | pad => simp [window]
  | all setting => cases single
  | range start last setting =>
      obtain ⟨range, built, _⟩ := inclusive_ordered ordered
      simp [window, built, Except.toOption]
  | aliasRange start last source setting =>
      obtain ⟨range, built, _⟩ := inclusive_ordered ordered
      simp [window, built, Except.toOption]
  | extendedRange start last setting extended =>
      obtain ⟨range, built, _⟩ := inclusive_ordered ordered
      simp [window, built, Except.toOption]
  | _ => simp [window]

end IvhdDeviceEntry

/-- What a part of the query does: it inserts the ranges and notes whether there was a unit and an entry
for all requesters, or fails where an insertion does. -/
def Collects (ranges : List BdfRange) (found all : Bool) (query : IvhdRangesQuery)
    (run : Except (Stop IvrsError) Unit × IvhdRangesQuery) : Prop :=
  match run with
  | (.ok (), final) =>
      BdfRangeSet.insertEach ranges query.ranges = (.ok (), final.ranges) ∧
        final.foundUnit = (query.foundUnit || found) ∧ final.sawAll = (query.sawAll || all)
  | (.error stop, _) => ∃ error set,
      BdfRangeSet.insertEach ranges query.ranges = (.error error, set) ∧ stop = .failed (.bdfRanges error)

namespace Collects

variable {ranges others : List BdfRange} {found foundOther all allOther : Bool}
  {query : IvhdRangesQuery}

theorem pure (query : IvhdRangesQuery) :
    Collects [] false false query ((Pure.pure () : Effect IvhdRangesQuery (Stop IvrsError) Unit) query) :=
  ⟨rfl, by simp, by simp⟩

theorem insert (range : BdfRange) (query : IvhdRangesQuery) :
    Collects [range] false false query (IvhdRangesQuery.insert range query) := by
  have one : BdfRangeSet.insertEach [range] query.ranges = BdfRangeSet.insert range query.ranges := by
    rw [BdfRangeSet.insertEach, Effect.bind_apply]
    rcases BdfRangeSet.insert range query.ranges with ⟨outcome, after⟩
    cases outcome <;> rfl
  rw [IvhdRangesQuery.insert, Effect.within_apply, Effect.mapError]
  simp only [Collects, one]
  rcases BdfRangeSet.insert range query.ranges with ⟨outcome, after⟩
  cases outcome with
  | error error => exact ⟨error, after, rfl, rfl⟩
  | ok value => exact ⟨rfl, by simp, by simp⟩

theorem bind {first second : Effect IvhdRangesQuery (Stop IvrsError) Unit}
    (before : Collects ranges found all query (first query))
    (after : ∀ middle, Collects others foundOther allOther middle (second middle)) :
    Collects (ranges ++ others) (found || foundOther) (all || allOther) query
      ((first >>= fun _ => second) query) := by
  rw [Effect.bind_apply]
  rcases ran : first query with ⟨outcome, middle⟩
  rw [ran] at before
  cases outcome with
  | error stop =>
      obtain ⟨error, set, failed, same⟩ := before
      refine ⟨error, set, ?_, same⟩
      rw [BdfRangeSet.insertEach_append, Effect.bind_of_error failed]
  | ok value =>
      obtain ⟨inserted, noted, seen⟩ := before
      have rest := after middle
      dsimp only
      rcases ranNext : second middle with ⟨outcome, final⟩
      rw [ranNext] at rest
      cases outcome with
      | error stop =>
          obtain ⟨error, set, failed, same⟩ := rest
          refine ⟨error, set, ?_, same⟩
          rw [BdfRangeSet.insertEach_append, Effect.bind_of_ok inserted, failed]
      | ok value =>
          obtain ⟨insertedRest, notedRest, seenRest⟩ := rest
          refine ⟨?_, ?_, ?_⟩
          · rw [BdfRangeSet.insertEach_append, Effect.bind_of_ok inserted, insertedRest]
          · rw [notedRest, noted, Bool.or_assoc]
          · rw [seenRest, seen, Bool.or_assoc]

theorem visitEach {Item : Type} {visit : Item → Effect IvhdRangesQuery (Stop IvrsError) Unit}
    {windows : Item → List BdfRange} {finds alls : Item → Bool} {items : List Item}
    (each : ∀ item ∈ items, ∀ query,
      Collects (windows item) (finds item) (alls item) query (visit item query))
    (query : IvhdRangesQuery) :
    Collects (items.flatMap windows) (items.any finds) (items.any alls) query
      (visitEach visit items query) := by
  induction items generalizing query with
  | nil => exact .pure query
  | cons item rest ih =>
      rw [List.flatMap_cons, List.any_cons, List.any_cons]
      exact .bind (each item (List.mem_cons_self ..) query)
        (ih fun other member => each other (List.mem_cons_of_mem _ member))

theorem entry {entry : IvhdDeviceEntry} (ordered : entry.Ordered) (query : IvhdRangesQuery) :
    Collects entry.window.toList false entry.isAll query (IvhdRangesQuery.visitEntry entry query) := by
  have inclusive : ∀ {start last : Bdf}, start.raw ≤ last.raw →
      Collects (BdfRange.inclusive start last).toOption.toList false false query
        (IvhdRangesQuery.insertInclusive start last query) := by
    intro start last ordered
    obtain ⟨range, built, _⟩ := IvhdDeviceEntry.inclusive_ordered ordered
    rw [IvhdRangesQuery.insertInclusive, built]
    exact .insert range query
  cases entry with
  | pad => exact .pure query
  | all setting => exact ⟨rfl, by simp, by simp [IvhdDeviceEntry.isAll]⟩
  | range start last setting => exact inclusive ordered
  | aliasRange start last source setting => exact inclusive ordered
  | extendedRange start last setting extended => exact inclusive ordered
  | _ => exact .insert _ query

end Collects

namespace IvrsTable

variable {table : IvrsTable} {offset length : Nat} {blocks : List IvrsBlock} {unit : Ivhd}

theorem EntryFlags.visitEntries (entries : List IvhdDeviceEntry) (flags final : EntryFlags)
    (visited : visitEach EntryFlags.visitEntry entries flags = (.ok (), final)) :
    final.includeAll = (flags.includeAll || entries.any (·.isAll)) := by
  induction entries generalizing flags with
  | nil =>
      cases visited
      simp
  | cons entry rest ih =>
      obtain ⟨_, middle, first, others⟩ := Effect.bind_eq_ok.mp visited
      have one : middle.includeAll = (flags.includeAll || entry.isAll) := by
        cases entry <;> cases first <;> simp [IvhdDeviceEntry.isAll]
      rw [ih middle others, one, List.any_cons, Bool.or_assoc]

theorem deviceEntries_behind {entriesOffset : Nat} (behind : length ≤ entriesOffset) :
    table.deviceEntries offset entriesOffset length = ([], .ok ()) :=
  transcript_done (if_pos behind)

theorem entryFlags_walked (blockType : UInt8) :
    (table.entryFlags offset length blockType).Ensures fun flags =>
      (table.deviceEntries offset (deviceEntriesOffset blockType) length).2 = .ok () ∧
        flags.includeAll =
          (table.deviceEntries offset (deviceEntriesOffset blockType) length).1.any (·.isAll) := by
  apply Parse.Ensures.ite
  · intro behind
    rw [deviceEntries_behind behind]
    exact .ok ⟨rfl, rfl⟩
  · intro _ flags found
    split at found
    · cases found
    · next final visited =>
      cases found
      rw [walkDeviceEntries_eq, visitAll_eq_ok] at visited
      exact ⟨visited.1, (EntryFlags.visitEntries _ _ _ visited.2).trans (Bool.false_or _)⟩

structure Walked (table : IvrsTable) (unit : Ivhd) : Prop where
  ended : (table.entriesOf unit).2 = .ok ()
  includeAll : unit.includeAll = (table.entriesOf unit).1.any (·.isAll)

theorem parseIvhd_walked (blockType : UInt8) :
    (table.parseIvhd offset length blockType).Ensures fun unit => table.Walked unit := by
  refine .bind fun least known => .ite (fun _ => .fail _) fun enough => ?_
  refine .bind fun entries found => .bind fun flags _ => .bind fun capability _ => .bind fun base _ => ?_
  refine .bind fun registers _ => .bind fun segment _ => .bind fun deviceId _ => ?_
  refine .bind fun info _ => .bind fun feature _ => .bind fun efr _ => .pure ?_
  exact ⟨(entryFlags_walked blockType entries found).1, (entryFlags_walked blockType entries found).2⟩

theorem parseBlock_walked (kind : UInt8) :
    (table.parseBlock offset length kind).Ensures fun block =>
      ∀ unit, block = .ivhd unit → table.Walked unit := by
  apply Parse.Ensures.ite
  · intro _
    refine .bind fun unit parsed => .pure ?_
    rintro _ ⟨⟩
    exact parseIvhd_walked kind unit parsed
  intro _
  apply Parse.Ensures.ite
  · intro _
    refine .bind fun memory _ => .pure ?_
    rintro _ ⟨⟩
  · intro _
    apply Parse.Ensures.ok
    rintro _ ⟨⟩

theorem blocks_walked (parsed : table.blocks = .ok (blocks.map .ok)) (member : .ivhd unit ∈ blocks) :
    table.Walked unit := by
  obtain ⟨items, drained, tiled⟩ := table.blocks_tiled
  obtain rfl := Except.ok.inj (parsed.symm.trans drained)
  obtain ⟨offset, _, success⟩ := tiled.ok_mem (List.mem_map_of_mem member)
  exact parseBlock_walked _ _ success unit rfl

def windowsOfBlock (table : IvrsTable) (registers : AddrRange) : IvrsBlock → List BdfRange
  | .ivhd unit =>
      if unit.registers = registers ∧ unit.includeAll = false then
        (table.entriesOf unit).1.flatMap fun entry => entry.window.toList
      else []
  | _ => []

def isUnit (registers : AddrRange) : IvrsBlock → Bool
  | .ivhd unit => unit.registers = registers
  | _ => false

def isAllUnit (registers : AddrRange) : IvrsBlock → Bool
  | .ivhd unit => unit.registers = registers ∧ unit.includeAll = true
  | _ => false

theorem collects_entries (walked : table.Walked unit) (query : IvhdRangesQuery) :
    Collects ((table.entriesOf unit).1.flatMap fun entry => entry.window.toList) false unit.includeAll
      query (table.walkDeviceEntries unit.blockOffset (deviceEntriesOffset unit.blockType) unit.length
        IvhdRangesQuery.visitEntry query) := by
  have visits : Collects ((table.entriesOf unit).1.flatMap fun entry => entry.window.toList)
      ((table.entriesOf unit).1.any fun _ => false) ((table.entriesOf unit).1.any (·.isAll)) query
      (visitEach IvhdRangesQuery.visitEntry (table.entriesOf unit).1 query) :=
    .visitEach (fun entry member => .entry (deviceEntries_ordered member)) query
  have finds : ((table.entriesOf unit).1.any fun _ => false) = false := by simp
  rw [finds, ← walked.includeAll] at visits
  rw [walkDeviceEntries_eq, ← entriesOf, visitAll_of_ok walked.ended]
  exact visits

theorem collects_block {block : IvrsBlock} (walked : ∀ unit, block = .ivhd unit → table.Walked unit)
    (registers : AddrRange) (query : IvhdRangesQuery) :
    Collects (table.windowsOfBlock registers block) (isUnit registers block)
      (isAllUnit registers block) query (table.rangesOfBlock registers block query) := by
  cases block with
  | ivmd memory => exact .pure query
  | unknown raw => exact .pure query
  | ivhd unit =>
      rw [windowsOfBlock, isUnit, isAllUnit, rangesOfBlock]
      by_cases here : unit.registers = registers
      · have noted : ∀ query, Collects [] true false query
            ((Effect.modify fun query : IvhdRangesQuery => { query with foundUnit := true } :
              Effect IvhdRangesQuery (Stop IvrsError) Unit) query) := by
          intro query
          exact ⟨rfl, by simp, by simp⟩
        rw [if_neg (not_not_intro here)]
        cases all : unit.includeAll with
        | true =>
            have seen : ∀ query, Collects [] false true query
                ((Effect.modify fun query : IvhdRangesQuery => { query with sawAll := true } :
                  Effect IvhdRangesQuery (Stop IvrsError) Unit) query) := by
              intro query
              exact ⟨rfl, by simp, by simp⟩
            simpa [here] using (noted query).bind seen
        | false =>
            have entries := collects_entries (walked unit rfl)
            rw [all] at entries
            simpa [here] using (noted query).bind entries
      · rw [if_pos here]
        simpa [here] using Collects.pure query

theorem forEachBlock_parsed {World : Type} (parsed : table.blocks = .ok (blocks.map .ok))
    (visit : IvrsBlock → Effect World (Stop IvrsError) Unit) (start : World) :
    table.forEachBlock visit start = visitEach visit blocks start := by
  have found : transcript (itemRound table.nextBlock) table.rounds IVRS_BLOCKS_OFFSET =
      (blocks, .ok ()) := by
    rw [transcript_of_drain parsed, untilFailure_eq_ok.mpr rfl]
  rw [forEachBlock, walk_eq_visitAll, found, visitAll_of_ok rfl]

structure Behind (blocks : List IvrsBlock) (registers : AddrRange) (unit : Ivhd) : Prop where
  member : .ivhd unit ∈ blocks
  here : unit.registers = registers

theorem any_isUnit (registers : AddrRange) :
    blocks.any (isUnit registers) = true ↔ ∃ unit, Behind blocks registers unit := by
  rw [List.any_eq_true]
  constructor
  · rintro ⟨block, member, here⟩
    cases block with
    | ivhd unit => exact ⟨unit, member, of_decide_eq_true here⟩
    | ivmd memory => cases here
    | unknown raw => cases here
  · rintro ⟨unit, member, here⟩
    exact ⟨_, member, decide_eq_true here⟩

theorem any_isAll (entries : List IvhdDeviceEntry) :
    entries.any (·.isAll) = true ↔ ∃ setting, .all setting ∈ entries := by
  rw [List.any_eq_true]
  constructor
  · rintro ⟨entry, member, all⟩
    cases entry with
    | all setting => exact ⟨setting, member⟩
    | _ => cases all
  · rintro ⟨setting, member⟩
    exact ⟨_, member, rfl⟩

theorem any_isAllUnit (parsed : table.blocks = .ok (blocks.map .ok)) (registers : AddrRange) :
    blocks.any (isAllUnit registers) = true ↔
      ∃ unit, Behind blocks registers unit ∧ ∃ setting, .all setting ∈ (table.entriesOf unit).1 := by
  rw [List.any_eq_true]
  constructor
  · rintro ⟨block, member, all⟩
    cases block with
    | ivhd unit =>
        obtain ⟨here, whole⟩ := of_decide_eq_true all
        rw [(blocks_walked parsed member).includeAll, any_isAll] at whole
        exact ⟨unit, ⟨member, here⟩, whole⟩
    | ivmd memory => cases all
    | unknown raw => cases all
  · rintro ⟨unit, ⟨member, here⟩, whole⟩
    rw [← any_isAll, ← (blocks_walked parsed member).includeAll] at whole
    exact ⟨_, member, decide_eq_true ⟨here, whole⟩⟩

theorem listed_unit {registers : AddrRange} (listed : blocks.any (isAllUnit registers) = false)
    (behind : Behind blocks registers unit) : unit.includeAll = false := by
  have each := List.any_eq_false.mp listed _ behind.member
  simpa [isAllUnit, behind.here] using each

theorem mem_windows {registers : AddrRange} (listed : blocks.any (isAllUnit registers) = false)
    (range : BdfRange) :
    range ∈ blocks.flatMap (table.windowsOfBlock registers) ↔
      ∃ unit, Behind blocks registers unit ∧
        ∃ entry ∈ (table.entriesOf unit).1, entry.window = some range := by
  rw [List.mem_flatMap]
  constructor
  · rintro ⟨block, member, among⟩
    cases block with
    | ivhd unit =>
        rw [windowsOfBlock] at among
        split at among
        · next here =>
          obtain ⟨entry, found, inserted⟩ := List.mem_flatMap.mp among
          exact ⟨unit, ⟨member, here.1⟩, entry, found, Option.mem_toList.mp inserted⟩
        · cases among
    | ivmd memory => cases among
    | unknown raw => cases among
  · rintro ⟨unit, ⟨member, here⟩, entry, found, inserted⟩
    refine ⟨_, member, ?_⟩
    rw [windowsOfBlock, if_pos ⟨here, listed_unit listed ⟨member, here⟩⟩]
    exact List.mem_flatMap.mpr ⟨entry, found, Option.mem_toList.mpr inserted⟩

theorem windowsOfBlock_filled (registers : AddrRange) (blocks : List IvrsBlock) :
    ∀ range ∈ blocks.flatMap (table.windowsOfBlock registers), range.isEmpty = false := by
  intro range member
  obtain ⟨block, _, among⟩ := List.mem_flatMap.mp member
  cases block with
  | ivhd unit =>
      rw [windowsOfBlock] at among
      split at among
      · obtain ⟨entry, found, inserted⟩ := List.mem_flatMap.mp among
        exact IvhdDeviceEntry.window_filled (deviceEntries_ordered found) (Option.mem_toList.mp inserted)
      · cases among
  | ivmd memory => cases among
  | unknown raw => cases among

end IvrsTable

/-- In a table whose blocks all parse, a set of ranges is given when there are units behind the window and
none has an entry for all requesters, and holds the requesters that an entry of one of them covers. None
is given when there is no unit, one has such an entry, or all their entries are pads. The only failure is
that the set is full. -/
theorem ivhd_window_exact (table : IvrsTable) (blocks : List IvrsBlock)
    (parsed : table.blocks = .ok (blocks.map .ok)) (registers : AddrRange) :
    (∀ set, table.ivhdBdfRanges registers = .ok (some set) →
      (∃ unit, IvrsTable.Behind blocks registers unit) ∧
      (∀ unit, IvrsTable.Behind blocks registers unit →
        ∀ setting, .all setting ∉ (table.entriesOf unit).1) ∧
      ∀ bdf, set.Contains bdf ↔ ∃ unit, IvrsTable.Behind blocks registers unit ∧
        ∃ entry ∈ (table.entriesOf unit).1, entry.Covers bdf) ∧
    (table.ivhdBdfRanges registers = .ok none →
      (∀ unit, ¬IvrsTable.Behind blocks registers unit) ∨
      (∃ unit, IvrsTable.Behind blocks registers unit ∧
        ∃ setting, .all setting ∈ (table.entriesOf unit).1) ∨
      ∀ unit, IvrsTable.Behind blocks registers unit →
        ∀ entry ∈ (table.entriesOf unit).1, entry = .pad) ∧
    ∀ stop, table.ivhdBdfRanges registers = .error stop → stop = .failed (.bdfRanges .full) := by
  have summary : Collects (blocks.flatMap (table.windowsOfBlock registers))
      (blocks.any (IvrsTable.isUnit registers)) (blocks.any (IvrsTable.isAllUnit registers))
      ⟨false, .empty, false⟩
      (table.forEachBlock (table.rangesOfBlock registers) ⟨false, .empty, false⟩) := by
    rw [IvrsTable.forEachBlock_parsed parsed]
    refine .visitEach (fun block member => IvrsTable.collects_block ?_ registers) _
    rintro unit rfl
    exact IvrsTable.blocks_walked parsed member
  rw [IvrsTable.ivhdBdfRanges]
  rcases ran : table.forEachBlock (table.rangesOfBlock registers) ⟨false, .empty, false⟩
    with ⟨outcome, query⟩
  rw [ran] at summary
  cases outcome with
  | error stop =>
      obtain ⟨error, set, failed, rfl⟩ := summary
      refine ⟨?_, ?_, ?_⟩
      · rintro set ⟨⟩
      · rintro ⟨⟩
      · rintro _ ⟨⟩
        rw [BdfRangeSet.insertEach_empty_refused failed]
  | ok value =>
      obtain ⟨inserted, found, seen⟩ := summary
      rw [Bool.false_or] at found seen
      have empty := BdfRangeSet.insertEach_count_zero
        (table.windowsOfBlock_filled registers blocks) inserted
      simp only [found, seen, empty]
      refine ⟨fun set given => ?_, fun given => ?_, fun stop given => ?_⟩
      · split at given
        · cases given
        · next conclusive =>
          cases given
          rw [not_or, not_or, Bool.not_eq_true', Bool.not_eq_false, IvrsTable.any_isUnit,
            Bool.not_eq_true] at conclusive
          obtain ⟨some_unit, listed, _⟩ := conclusive
          refine ⟨some_unit, ?_, fun bdf => ?_⟩
          · intro unit behind setting member
            have all := (IvrsTable.any_isAllUnit parsed registers).mpr ⟨unit, behind, setting, member⟩
            rw [listed] at all
            cases all
          · rw [BdfRangeSet.contains_insertEach inserted]
            constructor
            · rintro ⟨range, among, inside⟩
              obtain ⟨unit, behind, entry, member, window⟩ := (IvrsTable.mem_windows listed range).mp among
              have ordered := IvrsTable.deviceEntries_ordered member
              exact ⟨unit, behind, entry, member,
                (IvhdDeviceEntry.window_exact ordered bdf).mp ⟨range, window, inside⟩⟩
            · rintro ⟨unit, behind, entry, member, covers⟩
              have ordered := IvrsTable.deviceEntries_ordered member
              obtain ⟨range, window, inside⟩ := (IvhdDeviceEntry.window_exact ordered bdf).mpr covers
              exact ⟨range, (IvrsTable.mem_windows listed range).mpr ⟨unit, behind, entry, member, window⟩,
                inside⟩
      · by_cases some_unit : ∃ unit, IvrsTable.Behind blocks registers unit
        · right
          by_cases listed : ∃ unit, IvrsTable.Behind blocks registers unit ∧
              ∃ setting, .all setting ∈ (table.entriesOf unit).1
          · exact Or.inl listed
          · right
            intro unit behind entry member
            rw [← IvrsTable.any_isAllUnit parsed, Bool.not_eq_true] at listed
            rw [← IvrsTable.any_isUnit] at some_unit
            have nothing : blocks.flatMap (table.windowsOfBlock registers) = [] := by
              by_contra filled
              rw [if_neg (by simp [some_unit, listed, filled])] at given
              cases given
            have single : entry.isAll = false := by
              have each := List.any_eq_false.mp
                ((IvrsTable.blocks_walked parsed behind.member).includeAll.symm.trans
                  (IvrsTable.listed_unit listed behind)) entry member
              simpa using each
            rw [← IvhdDeviceEntry.window_eq_none (IvrsTable.deviceEntries_ordered member) single]
            apply Option.eq_none_iff_forall_not_mem.mpr
            intro range window
            have among := (IvrsTable.mem_windows listed range).mpr ⟨unit, behind, entry, member, window⟩
            rw [nothing] at among
            cases among
        · exact Or.inl fun unit behind => some_unit ⟨unit, behind⟩
      · split at given
        · cases given
        · cases given

def ivrsSample : IvrsTable := ⟨ivrsSampleBytes, by decide, by decide⟩

theorem ivrsSampleWindow_bounded : 0xfed80000 + AMD_VI_REGISTER_WINDOW_SIZE < limit := by decide

def ivrsSampleWindow : AddrRange :=
  .fromStartSize 0xfed80000 AMD_VI_REGISTER_WINDOW_SIZE ivrsSampleWindow_bounded

def ivrsSampleUnit : Ivhd where
  blockType := IVHD_TYPE_10H
  flags := 0
  registers := ivrsSampleWindow
  device := ⟨0x20100⟩
  capabilityOffset := 0x40
  iommuInfo := 0
  featureInfo := some 0
  efr := none
  includeAll := false
  hasDeviceScopes := true
  blockOffset := 48
  length := 32

theorem ivhd_window_exact_sample :
    ∃ set, ivrsSample.ivhdBdfRanges ivrsSampleWindow = .ok (some set) ∧
      ∀ bdf, set.Contains bdf ↔
        ∃ unit, IvrsTable.Behind [.ivhd ivrsSampleUnit] ivrsSampleWindow unit ∧
          ∃ entry ∈ (ivrsSample.entriesOf unit).1, entry.Covers bdf := by
  have window := ivhd_window_exact ivrsSample [.ivhd ivrsSampleUnit] (by decide +kernel) ivrsSampleWindow
  refine ⟨_, rfl, ?_⟩
  exact (window.1 _ rfl).2.2

def ivrsPaddedBytes : List UInt8 :=
  IVRS.signature ++ [76, 0, 0, 0] ++ List.replicate 40 0 ++
    [0x10, 0, 28, 0, 0, 1, 0x40, 0, 0, 0, 0xd8, 0xfe, 0, 0, 0, 0, 2, 0, 0, 0, 0, 0, 0, 0] ++
    [0, 0, 0, 0]

def ivrsPadded : IvrsTable := ⟨ivrsPaddedBytes, by decide, by decide⟩

def ivrsPaddedUnit : Ivhd := { ivrsSampleUnit with hasDeviceScopes := false, length := 28 }

theorem ivhd_window_padded :
    ¬∀ (table : IvrsTable) (blocks : List IvrsBlock) (registers : AddrRange),
      table.blocks = .ok (blocks.map .ok) → table.ivhdBdfRanges registers = .ok none →
        (∀ unit, ¬IvrsTable.Behind blocks registers unit) ∨
        (∃ unit, IvrsTable.Behind blocks registers unit ∧
          ∃ setting, .all setting ∈ (table.entriesOf unit).1) ∨
        ∀ unit, IvrsTable.Behind blocks registers unit → (table.entriesOf unit).1 = [] := by
  intro exact_window
  have behind : IvrsTable.Behind [.ivhd ivrsPaddedUnit] ivrsSampleWindow ivrsPaddedUnit :=
    ⟨List.mem_singleton_self _, rfl⟩
  have entries : (ivrsPadded.entriesOf ivrsPaddedUnit).1 = [.pad] := by decide +kernel
  rcases exact_window ivrsPadded [.ivhd ivrsPaddedUnit] ivrsSampleWindow (by decide +kernel)
    rfl with nowhere | ⟨unit, ⟨member, _⟩, setting, listed⟩ | empty
  · exact nowhere ivrsPaddedUnit behind
  · cases List.mem_singleton.mp member
    rw [entries] at listed
    cases List.mem_singleton.mp listed
  · have nothing := empty ivrsPaddedUnit behind
    rw [entries] at nothing
    cases nothing

end Iommu
