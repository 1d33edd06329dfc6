import Iommu.Ivrs.Windows
import Iommu.Ivrs.RawEntries

/-!
When the walk reports every start of a range. It does where starts and ends alternate; a
start that has no end of its own is forgotten, and so is an end without a start.
-/

namespace Iommu

open MachineWord FirmwareTable

def IvhdDeviceEntry.isRange : IvhdDeviceEntry → Bool
  | .range _ _ _ => true
  | .aliasRange _ _ _ _ => true
  | .extendedRange _ _ _ _ => true
  | _ => false

theorem PendingIvhdRange.ending_isRange (pending : PendingIvhdRange) (last : Bdf) :
    (pending.ending last).isRange = true := by
  rcases pending with ⟨start, kind, dataSetting⟩
  cases kind <;> rfl

namespace RawEntry

def isPlain : RawEntry → Bool
  | other (some entry) => !entry.isRange
  | _ => true

theorem isPlain_ite {condition : Prop} [Decidable condition] {first second : RawEntry}
    (one : first.isPlain = true) (two : second.isPlain = true) :
    (if condition then first else second).isPlain = true := by
  split
  · exact one
  · exact two

def starts : List RawEntry → List PendingIvhdRange
  | [] => []
  | start pending :: rest => pending :: starts rest
  | stop _ :: rest => starts rest
  | other _ :: rest => starts rest

/-- Each start is closed before the next one, and each end closes a start. -/
def alternates : Bool → List RawEntry → Bool
  | opened, [] => !opened
  | opened, start _ :: rest => !opened && alternates true rest
  | opened, stop _ :: rest => opened && alternates false rest
  | opened, other _ :: rest => alternates opened rest

/-- Some end comes before the start that is pending there. -/
def reverses : Option PendingIvhdRange → List RawEntry → Bool
  | _, [] => false
  | _, start pending :: rest => reverses (some pending) rest
  | none, stop _ :: rest => reverses none rest
  | some pending, stop last :: rest => last.raw < pending.start.raw || reverses none rest
  | pending, other _ :: rest => reverses pending rest

/-- Each start is reported as one range, with what belongs to the start. -/
def Reported (raws : List RawEntry) (entries : List IvhdDeviceEntry) : Prop :=
  List.Forall₂ (fun pending entry => ∃ last, entry = PendingIvhdRange.ending pending last) (starts raws)
    (entries.filter (·.isRange))

end RawEntry

section PairUp

variable {outcome : Parse IvrsError Unit} {raws : List RawEntry} {pending : Option PendingIvhdRange}

theorem pairUp_reversed (reversed : RawEntry.reverses pending raws = true) :
    (pairUp outcome raws pending).2 = malformed "IVHD device range is reversed" := by
  induction raws generalizing pending with
  | nil => cases reversed
  | cons raw rest ih =>
      cases raw with
      | start opened => exact ih reversed
      | other reported => exact ih reversed
      | stop last =>
          cases pending with
          | none => exact ih reversed
          | some opened =>
              rw [RawEntry.reverses, Bool.or_eq_true, decide_eq_true_eq] at reversed
              by_cases before : last.raw < opened.start.raw
              · simp only [pairUp, RawEntry.pair, if_pos before]
                rfl
              · simp only [pairUp, RawEntry.pair, if_neg before]
                exact ih (reversed.resolve_left before)

theorem pairUp_ordered (ordered : RawEntry.reverses pending raws = false) :
    (pairUp outcome raws pending).2 = outcome := by
  induction raws generalizing pending with
  | nil => rfl
  | cons raw rest ih =>
      cases raw with
      | start opened => exact ih ordered
      | other reported => exact ih ordered
      | stop last =>
          cases pending with
          | none => exact ih ordered
          | some opened =>
              rw [RawEntry.reverses, Bool.or_eq_false_iff, decide_eq_false_iff_not] at ordered
              simp only [pairUp, RawEntry.pair, if_neg ordered.1]
              exact ih ordered.2

theorem pairUp_eq_ok : (pairUp outcome raws pending).2 = .ok () ↔
    outcome = .ok () ∧ RawEntry.reverses pending raws = false := by
  cases reversed : RawEntry.reverses pending raws with
  | true =>
      rw [pairUp_reversed reversed]
      simp [malformed, Parse.fail]
  | false => simp [pairUp_ordered reversed]

theorem pairUp_reported (plain : ∀ raw ∈ raws, raw.isPlain = true)
    (alternates : RawEntry.alternates pending.isSome raws = true)
    (ordered : RawEntry.reverses pending raws = false) :
    List.Forall₂ (fun pending entry => ∃ last, entry = PendingIvhdRange.ending pending last)
      (pending.toList ++ RawEntry.starts raws)
      ((pairUp outcome raws pending).1.filter (·.isRange)) := by
  induction raws generalizing pending with
  | nil =>
      cases pending with
      | none => exact .nil
      | some opened => cases alternates
  | cons raw rest ih =>
      have plainRest : ∀ raw ∈ rest, raw.isPlain = true :=
        fun raw member => plain raw (List.mem_cons_of_mem _ member)
      cases raw with
      | start opened =>
          cases pending with
          | none => exact ih plainRest alternates ordered
          | some opened => cases alternates
      | stop last =>
          cases pending with
          | none => cases alternates
          | some opened =>
              rw [RawEntry.reverses, Bool.or_eq_false_iff, decide_eq_false_iff_not] at ordered
              have later := @ih none plainRest alternates ordered.2
              simp only [pairUp, RawEntry.pair, if_neg ordered.1, Option.toList_some,
                List.singleton_append, List.filter_cons_of_pos (opened.ending_isRange last)]
              exact .cons ⟨last, rfl⟩ later
      | other reported =>
          have later := ih plainRest alternates ordered
          cases reported with
          | none => exact later
          | some entry =>
              have single := plain _ (List.mem_cons_self ..)
              rw [RawEntry.isPlain, Bool.not_eq_true'] at single
              simp only [pairUp, RawEntry.pair, Option.toList_some, List.singleton_append]
              rw [List.filter_cons_of_neg (by simp [single])]
              exact later

end PairUp

theorem rawEntry_isPlain (bytes : List UInt8) (entryType : UInt8) (size : Nat) :
    (rawEntry bytes entryType size).isPlain = true := by
  rw [rawEntry]
  repeat' apply RawEntry.isPlain_ite
  all_goals rfl

theorem rawEntries_isPlain {bytes : List UInt8} {raw : RawEntry} (member : raw ∈ (rawEntries bytes).1) :
    raw.isPlain = true := by
  obtain ⟨left, after, ran⟩ := mem_transcript member
  obtain ⟨entryType, rest, size, _, _, _, same, _⟩ := rawRound_next ran
  obtain rfl := Option.some.inj same
  exact rawEntry_isPlain ..

theorem rawRound_error {bytes : List UInt8} {stop : Stop IvrsError} (ran : rawRound bytes = .error stop) :
    ∃ message, stop = .failed (.malformed message) := by
  cases bytes with
  | nil => cases ran
  | cons entryType rest =>
      rw [rawRound] at ran
      cases sized : entryLength (entryType :: rest) entryType with
      | error other =>
          rw [sized] at ran
          cases ran
          rw [entryLength] at sized
          split at sized
          · cases sized
          split at sized
          · cases sized
          split at sized
          · split at sized
            · cases sized
              exact ⟨_, rfl⟩
            · cases sized
          split at sized <;> cases sized
      | ok length =>
          rw [sized, Parse.ok_bind] at ran
          cases length with
          | none => cases ran
          | some size =>
              dsimp only at ran
              split at ran
              · cases ran
                exact ⟨_, rfl⟩
              · cases ran

theorem rawEntries_ends (bytes : List UInt8) :
    (rawEntries bytes).2 = .ok () ∨ ∃ message, (rawEntries bytes).2 = malformed message := by
  obtain ⟨_, ended | ⟨left, stop, ran, failed⟩⟩ := transcript_enough List.length rawRound_advances
    (Nat.lt_succ_self bytes.length) (Nat.lt_succ_self bytes.length)
  · exact Or.inl ended
  · obtain ⟨message, rfl⟩ := rawRound_error ran
    exact Or.inr ⟨message, failed⟩

namespace IvrsTable

def entryBytes (table : IvrsTable) (offset length : Nat) (blockType : UInt8) : List UInt8 :=
  window table.sdt (offset + deviceEntriesOffset blockType) (length - deviceEntriesOffset blockType)

/-- A unit that parses reports each start of a range among its entries, and where starts and ends do not
alternate the walk is refused, and the unit with it. -/
structure KeepsRangeStarts (table : IvrsTable) (offset length : Nat) (blockType : UInt8) : Prop where
  reported : ∀ unit, table.parseIvhd offset length blockType = .ok unit →
    RawEntry.Reported (rawEntries (table.entryBytes offset length blockType)).1 (table.entriesOf unit).1
  rejected : RawEntry.alternates false (rawEntries (table.entryBytes offset length blockType)).1 = false →
    (∃ message, (table.deviceEntries offset (deviceEntriesOffset blockType) length).2 =
      malformed message) ∧
    ∃ message, table.parseIvhd offset length blockType = malformed message

variable {table : IvrsTable} {offset length : Nat} {blockType : UInt8}

theorem deviceEntries_walkBytes (fits : offset + length ≤ table.sdt.length) (blockType : UInt8) :
    table.deviceEntries offset (deviceEntriesOffset blockType) length =
      walkBytes (table.entryBytes offset length blockType) := by
  by_cases inside : deviceEntriesOffset blockType ≤ length
  · exact deviceEntries_bytes fits inside
  · rw [deviceEntries_behind (Nat.le_of_not_le inside), entryBytes,
      Nat.sub_eq_zero_of_le (Nat.le_of_not_le inside), window, List.take_zero]
    rfl

theorem entriesOf_parsed {unit : Ivhd} (parsed : table.parseIvhd offset length blockType = .ok unit) :
    table.entriesOf unit = table.deviceEntries offset (deviceEntriesOffset blockType) length := by
  obtain ⟨sameType, sameOffset, sameLength, _⟩ := parseIvhd_region blockType unit parsed
  rw [entriesOf, sameType, sameOffset, sameLength]

theorem parseIvhd_refused {message : String}
    (refused : (table.deviceEntries offset (deviceEntriesOffset blockType) length).2 = malformed message) :
    ∃ message, table.parseIvhd offset length blockType = malformed message := by
  rw [parseIvhd]
  cases known : ivhdMinLength blockType with
  | error stop =>
      rw [ivhdMinLength] at known
      split at known
      · cases known
      split at known
      · cases known
      · cases known
        exact ⟨_, rfl⟩
  | ok least =>
      rw [Parse.ok_bind]
      split
      · exact ⟨_, rfl⟩
      · have flags : table.entryFlags offset length blockType = malformed message := by
          rw [entryFlags]
          split
          · next behind =>
            rw [deviceEntries_behind behind] at refused
            exact absurd ⟨_, refused.symm⟩ malformed_ne_ok
          · obtain ⟨final, visited⟩ := visitEach_total EntryFlags.visitEntry_succeeds
              (table.deviceEntries offset (deviceEntriesOffset blockType) length).1 ⟨false, false⟩
            rw [walkDeviceEntries_eq, visitAll, Effect.bind_of_ok visited, refused]
            rfl
        exact ⟨message, by rw [flags]; rfl⟩

end IvrsTable

/-- The walk over a unit keeps track of the starts of ranges just where its entries run past its end, an
end comes before its start, or starts and ends alternate. -/
theorem range_starts_kept_iff (table : IvrsTable) (offset length : Nat) (blockType : UInt8)
    (fits : offset + length ≤ table.sdt.length) :
    table.KeepsRangeStarts offset length blockType ↔
      (rawEntries (table.entryBytes offset length blockType)).2 ≠ .ok () ∨
      RawEntry.reverses none (rawEntries (table.entryBytes offset length blockType)).1 = true ∨
      RawEntry.alternates false (rawEntries (table.entryBytes offset length blockType)).1 = true := by
  have walked := IvrsTable.deviceEntries_walkBytes fits blockType
  have ended : (table.deviceEntries offset (deviceEntriesOffset blockType) length).2 = .ok () ↔
      (rawEntries (table.entryBytes offset length blockType)).2 = .ok () ∧
        RawEntry.reverses none (rawEntries (table.entryBytes offset length blockType)).1 = false := by
    rw [walked]
    exact pairUp_eq_ok
  constructor
  · intro keeps
    by_contra excluded
    rw [not_or, not_or, not_not, Bool.not_eq_true, Bool.not_eq_true] at excluded
    obtain ⟨⟨message, refused⟩, _⟩ := keeps.rejected excluded.2.2
    rw [ended.mpr ⟨excluded.1, excluded.2.1⟩] at refused
    exact malformed_ne_ok ⟨(), refused.symm⟩
  · intro condition
    constructor
    · intro unit parsed
      have finished := (IvrsTable.parseIvhd_walked blockType unit parsed).ended
      rw [IvrsTable.entriesOf_parsed parsed] at finished ⊢
      obtain ⟨fitting, ordered⟩ := ended.mp finished
      have alternates := (condition.resolve_left (not_not.mpr fitting)).resolve_left (by simp [ordered])
      rw [walked]
      have isSome_none : (none : Option PendingIvhdRange).isSome = false := rfl
      rw [← isSome_none] at alternates
      exact pairUp_reported (fun raw => rawEntries_isPlain) alternates ordered
    · intro crossed
      have refused : ∃ message,
          (table.deviceEntries offset (deviceEntriesOffset blockType) length).2 = malformed message := by
        rw [walked, walkBytes]
        rcases condition with cut | reversed | alternates
        · cases reversed : RawEntry.reverses none (rawEntries (table.entryBytes offset length blockType)).1 with
          | true => exact ⟨_, pairUp_reversed reversed⟩
          | false =>
              rw [pairUp_ordered reversed]
              exact (rawEntries_ends _).resolve_left cut
        · exact ⟨_, pairUp_reversed reversed⟩
        · rw [alternates] at crossed
          cases crossed
      obtain ⟨message, walk⟩ := refused
      exact ⟨⟨message, walk⟩, IvrsTable.parseIvhd_refused walk⟩

theorem range_starts_kept_sample : ivrsSample.KeepsRangeStarts 48 32 IVHD_TYPE_10H := by
  refine (range_starts_kept_iff ivrsSample 48 32 IVHD_TYPE_10H (by decide)).mpr ?_
  exact Or.inr (Or.inr (by decide +kernel))

def ivrsUnclosedBytes : List UInt8 :=
  IVRS.signature ++ [76, 0, 0, 0] ++ List.replicate 40 0 ++
    [0x10, 0, 28, 0, 0, 1, 0x40, 0, 0, 0, 0xd8, 0xfe, 0, 0, 0, 0, 2, 0, 0, 0, 0, 0, 0, 0] ++
    [3, 0, 0x10, 2]

def ivrsUnclosed : IvrsTable := ⟨ivrsUnclosedBytes, by decide, by decide⟩

theorem range_start_lost :
    (∃ unit, ivrsUnclosed.blocks = .ok [.ok (.ivhd unit)] ∧
      ivrsUnclosed.parseIvhd 48 28 IVHD_TYPE_10H = .ok unit ∧ ivrsUnclosed.entriesOf unit = ([], .ok ())) ∧
    (rawEntries (ivrsUnclosed.entryBytes 48 28 IVHD_TYPE_10H)).1 = [.start ⟨⟨0x210⟩, .plain, 0⟩] ∧
    ¬ivrsUnclosed.KeepsRangeStarts 48 28 IVHD_TYPE_10H := by
  have parsed : ∃ unit, ivrsUnclosed.blocks = .ok [.ok (.ivhd unit)] ∧
      ivrsUnclosed.parseIvhd 48 28 IVHD_TYPE_10H = .ok unit ∧
      ivrsUnclosed.entriesOf unit = ([], .ok ()) := ⟨_, by rfl, by rfl, by rfl⟩
  have opened : (rawEntries (ivrsUnclosed.entryBytes 48 28 IVHD_TYPE_10H)).1 =
      [.start ⟨⟨0x210⟩, .plain, 0⟩] := by decide +kernel
  refine ⟨parsed, opened, fun keeps => ?_⟩
  obtain ⟨unit, _, parsed, walked⟩ := parsed
  have reported := keeps.reported unit parsed
  rw [walked, opened] at reported
  cases reported

end Iommu
