import Iommu.Ivrs.Totality

/-!
The device entries of a block as its bytes alone give them, before starts and ends of ranges
are put together. The walk over a block is these entries and what pairing makes of them.
-/

namespace Iommu

open MachineWord FirmwareTable

/-- An entry by what it does to the pending range: it starts one, ends one, or leaves it. -/
inductive RawEntry
  | start (pending : PendingIvhdRange)
  | stop (last : Bdf)
  | other (reported : Option IvhdDeviceEntry)
  deriving DecidableEq

namespace RawEntry

def pair : RawEntry → Option PendingIvhdRange →
    Parse IvrsError (Option IvhdDeviceEntry × Option PendingIvhdRange)
  | start pending, _ => .ok (none, some pending)
  | stop _, none => .ok (none, none)
  | stop last, some pending =>
      if last.raw < pending.start.raw then malformed "IVHD device range is reversed"
      else .ok (some (pending.ending last), none)
  | other reported, pending => .ok (reported, pending)

theorem pair_ite {condition : Prop} [Decidable condition] {pending : Option PendingIvhdRange}
    {first second : Parse IvrsError (Option IvhdDeviceEntry × Option PendingIvhdRange)}
    {raw other : RawEntry} (holds : condition → first = raw.pair pending)
    (fails : ¬condition → second = other.pair pending) :
    (if condition then first else second) = (if condition then raw else other).pair pending := by
  split
  · next taken => exact holds taken
  · next left => exact fails left

end RawEntry

/-- The entries that pairing reports, and how it ends; behind the last entry it ends as told. -/
def pairUp (outcome : Parse IvrsError Unit) :
    List RawEntry → Option PendingIvhdRange → List IvhdDeviceEntry × Parse IvrsError Unit
  | [], _ => ([], outcome)
  | raw :: rest, pending =>
      match raw.pair pending with
      | .error stop => ([], .error stop)
      | .ok (reported, after) =>
          (reported.toList ++ (pairUp outcome rest after).1, (pairUp outcome rest after).2)

section Bytes

variable (bytes : List UInt8) (entryType : UInt8)

def entryLength : Parse IvrsError (Option Nat) :=
  if entryType ≤ 0x04 then .ok (some 4)
  else if entryType ∈ [0x42, 0x43, 0x46, 0x47, 0x48] then .ok (some 8)
  else if entryType = DEVENTRY_ACPI_NAMED then
    if bytes.length < DEVENTRY_ACPI_NAMED_MIN_LENGTH then
      malformed "IVHD ACPI named device entry truncated before UID length"
    else .ok (some (DEVENTRY_ACPI_NAMED_MIN_LENGTH + fieldLE bytes 21 1))
  else if 0xf1 ≤ entryType then .ok none
  else .ok (some 4)

def entryDevice : Bdf := ⟨.ofNat (fieldLE bytes (if entryType = DEVENTRY_ACPI_NAMED then 1 else 2) 2)⟩

def entrySetting : UInt8 :=
  .ofNat (fieldLE bytes (if entryType = DEVENTRY_ACPI_NAMED then 3 else 1) 1)

def entrySource : Bdf := ⟨.ofNat (fieldLE bytes 6 2)⟩

def entryExtended : UInt32 := .ofNat (fieldLE bytes 4 4)

def rawEntry (size : Nat) : RawEntry :=
  let deviceId := entryDevice bytes entryType
  let dataSetting := entrySetting bytes entryType
  if entryType = DEVENTRY_PAD then .other (some .pad)
  else if entryType = DEVENTRY_ALL then .other (some (.all dataSetting))
  else if entryType = DEVENTRY_SELECT then .other (some (.select deviceId dataSetting))
  else if entryType = DEVENTRY_RANGE_START then .start ⟨deviceId, .plain, dataSetting⟩
  else if entryType = DEVENTRY_ALIAS_RANGE_START then
    .start ⟨deviceId, .aliased (entrySource bytes), dataSetting⟩
  else if entryType = DEVENTRY_EXTENDED_RANGE_START then
    .start ⟨deviceId, .extended (entryExtended bytes), dataSetting⟩
  else if entryType = DEVENTRY_RANGE_END then .stop deviceId
  else if entryType = DEVENTRY_ALIAS_SELECT then
    .other (some (.aliasSelect deviceId (entrySource bytes) dataSetting))
  else if entryType = DEVENTRY_EXTENDED_SELECT then
    .other (some (.extendedSelect deviceId dataSetting (entryExtended bytes)))
  else if entryType = DEVENTRY_SPECIAL then .other (some (.special (entrySource bytes) dataSetting))
  else if entryType = DEVENTRY_ACPI_NAMED then
    .other (some (.acpiNamed deviceId dataSetting (.ofNat (fieldLE bytes 4 8))
      (.ofNat (fieldLE bytes 12 8)) (.ofNat (fieldLE bytes 20 1))
      (window bytes DEVENTRY_ACPI_NAMED_MIN_LENGTH (size - DEVENTRY_ACPI_NAMED_MIN_LENGTH))))
  else .other none

end Bytes

def rawRound : List UInt8 → Parse IvrsError (Round IvrsError RawEntry (List UInt8))
  | [] => .ok .done
  | entryType :: rest => do
      match ← entryLength (entryType :: rest) entryType with
      | none => pure .done
      | some size =>
          if (entryType :: rest).length < size then malformed "IVHD device entry extends past block"
          else
            pure (.next (some (rawEntry (entryType :: rest) entryType size))
              (.ok ((entryType :: rest).drop size)))

def rawEntries (bytes : List UInt8) : List RawEntry × Parse IvrsError Unit :=
  transcript rawRound (bytes.length + 1) bytes

def walkBytes (bytes : List UInt8) : List IvhdDeviceEntry × Parse IvrsError Unit :=
  pairUp (rawEntries bytes).2 (rawEntries bytes).1 none

theorem rawRound_next {bytes : List UInt8} {raw : Option RawEntry} {after : Parse IvrsError (List UInt8)}
    (ran : rawRound bytes = .ok (.next raw after)) :
    ∃ entryType rest size, bytes = entryType :: rest ∧
      entryLength bytes entryType = .ok (some size) ∧ size ≤ bytes.length ∧
      raw = some (rawEntry bytes entryType size) ∧ after = .ok (bytes.drop size) := by
  cases bytes with
  | nil => cases ran
  | cons entryType rest =>
      obtain ⟨length, sized, ran⟩ := Parse.bind_eq_ok.mp ran
      cases length with
      | none => cases ran
      | some size =>
          dsimp only at ran
          split at ran
          · exact absurd ⟨_, ran⟩ malformed_ne_ok
          · next whole =>
            cases ran
            exact ⟨entryType, rest, size, rfl, sized, Nat.le_of_not_lt whole, rfl, rfl⟩

theorem entryLength_ok {bytes : List UInt8} {entryType : UInt8} {size : Nat}
    (sized : entryLength bytes entryType = .ok (some size)) :
    4 ≤ size ∧ (entryType ∈ [0x42, 0x43, 0x46, 0x47, 0x48] → size = 8) ∧
      (entryType = DEVENTRY_ACPI_NAMED → DEVENTRY_ACPI_NAMED_MIN_LENGTH ≤ size) := by
  rw [entryLength] at sized
  split at sized
  · next small =>
    cases sized
    refine ⟨Nat.le_refl 4, ?_, ?_⟩
    · intro large
      simp only [List.mem_cons, List.not_mem_nil, or_false] at large
      rcases large with rfl | rfl | rfl | rfl | rfl <;> exact absurd small (by decide)
    · rintro rfl
      exact absurd small (by decide)
  split at sized
  · next large =>
    cases sized
    refine ⟨by decide, fun _ => rfl, ?_⟩
    rintro rfl
    exact absurd large (by decide)
  split at sized
  · next other named =>
    split at sized
    · exact absurd ⟨_, sized⟩ malformed_ne_ok
    · cases sized
      rw [DEVENTRY_ACPI_NAMED_MIN_LENGTH]
      exact ⟨by omega, fun large => absurd large other, fun _ => Nat.le_add_right ..⟩
  split at sized
  · cases sized
  · next other unnamed _ =>
    cases sized
    exact ⟨Nat.le_refl 4, fun large => absurd large other, fun named => absurd named unnamed⟩

theorem rawRound_advances (bytes : List UInt8) (raw : Option RawEntry)
    (after : Parse IvrsError (List UInt8)) (ran : rawRound bytes = .ok (.next raw after)) :
    ∃ rest, after = .ok rest ∧ rest.length < bytes.length := by
  obtain ⟨entryType, rest, size, rfl, sized, whole, _, rfl⟩ := rawRound_next ran
  obtain ⟨least, _⟩ := entryLength_ok sized
  refine ⟨_, rfl, ?_⟩
  rw [List.length_drop]
  omega

theorem rawEntries_next {bytes rest : List UInt8} {raw : RawEntry}
    (ran : rawRound bytes = .ok (.next (some raw) (.ok rest))) :
    rawEntries bytes = (raw :: (rawEntries rest).1, (rawEntries rest).2) := by
  obtain ⟨_, same, less⟩ := rawRound_advances _ _ _ ran
  cases same
  obtain ⟨same, _⟩ := transcript_enough List.length rawRound_advances less (Nat.lt_succ_self _)
  rw [rawEntries, transcript_next ran, same]
  rfl

namespace IvrsTable

variable {table : IvrsTable} {bytes : List UInt8} {blockOffset blockLength offset entryOffset size : Nat}
  {entryType : UInt8}

theorem entrySize_bytes (fits : blockOffset + blockLength ≤ table.sdt.length)
    (holds : HoldsAt table.sdt (blockOffset + offset) bytes) (ends : offset + bytes.length = blockLength) :
    table.entrySize blockLength offset (blockOffset + offset) entryType = entryLength bytes entryType := by
  have short := table.length_lt_limit
  have limited : limit = 2 ^ 64 := rfl
  have table_short := table.short
  have least : DEVENTRY_ACPI_NAMED_MIN_LENGTH = 22 := rfl
  rw [entrySize, entryLength]
  split
  · rfl
  split
  · rfl
  split
  · rw [Parse.sum_of_lt (by omega), Parse.ok_bind]
    by_cases cut : bytes.length < DEVENTRY_ACPI_NAMED_MIN_LENGTH
    · rw [if_pos cut, if_pos (by omega)]
    · have low := fieldLE_lt bytes 21 1
      rw [if_neg cut, if_neg (by omega), readU8_held holds (by omega), Parse.ok_bind]
      have byte : (UInt8.ofNat (Memory.ofBytesLE (window bytes 21 1))).toNat = fieldLE bytes 21 1 :=
        Nat.mod_eq_of_lt low
      rw [byte]
      rfl
  · rfl

theorem entryHeader_bytes (holds : HoldsAt table.sdt entryOffset bytes) (whole : 4 ≤ bytes.length) :
    table.entryHeader entryOffset entryType =
      .ok (entryDevice bytes entryType, entrySetting bytes entryType) := by
  rw [entryHeader, entryDevice, entrySetting]
  split
  · rw [readU16_held holds (by omega), Parse.ok_bind, readU8_held holds (by omega)]
    rfl
  · rw [readU16_held holds (by omega), Parse.ok_bind, readU8_held holds (by omega)]
    rfl

theorem readEntry_bytes (holds : HoldsAt table.sdt entryOffset bytes) (whole : size ≤ bytes.length)
    (large : entryType ∈ [0x42, 0x43, 0x46, 0x47, 0x48] → size = 8)
    (named : entryType = DEVENTRY_ACPI_NAMED → DEVENTRY_ACPI_NAMED_MIN_LENGTH ≤ size)
    (pending : Option PendingIvhdRange) :
    table.readEntry entryOffset size entryType (entryDevice bytes entryType)
      (entrySetting bytes entryType) pending = (rawEntry bytes entryType size).pair pending := by
  have short := table.length_lt_limit
  have inside := holds.inside
  have least : DEVENTRY_ACPI_NAMED_MIN_LENGTH = 22 := rfl
  rw [readEntry.eq_def, rawEntry]
  refine RawEntry.pair_ite (fun _ => rfl) fun _ => ?_
  refine RawEntry.pair_ite (fun _ => rfl) fun _ => ?_
  refine RawEntry.pair_ite (fun _ => rfl) fun _ => ?_
  refine RawEntry.pair_ite (fun _ => rfl) fun _ => ?_
  refine RawEntry.pair_ite (fun alias_start => ?_) fun _ => ?_
  · have eight := large (by rw [alias_start]; decide)
    rw [readU16_held holds (by omega)]
    rfl
  refine RawEntry.pair_ite (fun extended_start => ?_) fun _ => ?_
  · have eight := large (by rw [extended_start]; decide)
    rw [readU32_held holds (by omega)]
    rfl
  refine RawEntry.pair_ite (fun _ => ?_) fun _ => ?_
  · cases pending with
    | none => rfl
    | some start => rfl
  refine RawEntry.pair_ite (fun alias_select => ?_) fun _ => ?_
  · have eight := large (by rw [alias_select]; decide)
    rw [readU16_held holds (by omega)]
    rfl
  refine RawEntry.pair_ite (fun extended_select => ?_) fun _ => ?_
  · have eight := large (by rw [extended_select]; decide)
    rw [readU32_held holds (by omega)]
    rfl
  refine RawEntry.pair_ite (fun special => ?_) fun _ => ?_
  · have eight := large (by rw [special]; decide)
    rw [readU16_held holds (by omega)]
    rfl
  refine RawEntry.pair_ite (fun acpi => ?_) fun _ => rfl
  have enough := named acpi
  have name : entryOffset + size - (entryOffset + DEVENTRY_ACPI_NAMED_MIN_LENGTH) =
      size - DEVENTRY_ACPI_NAMED_MIN_LENGTH := Nat.add_sub_add_left ..
  rw [readU64_held holds (by omega), Parse.ok_bind, readU64_held holds (by omega), Parse.ok_bind,
    readU8_held holds (by omega), Parse.ok_bind, Parse.sum_of_lt (by omega), Parse.ok_bind,
    Parse.sum_of_lt (by omega), Parse.ok_bind, sliceOf_inside (by omega) (by omega), Parse.ok_bind, name,
    holds.window_eq (by omega)]
  rfl

theorem entryRound_bytes (fits : blockOffset + blockLength ≤ table.sdt.length)
    (holds : HoldsAt table.sdt (blockOffset + offset) bytes) (ends : offset + bytes.length = blockLength)
    (pending : Option PendingIvhdRange) :
    table.entryRound blockOffset blockLength ⟨offset, pending⟩ =
      match rawRound bytes with
      | .error stop => .error stop
      | .ok (.next (some raw) (.ok rest)) =>
          match raw.pair pending with
          | .error stop => .error stop
          | .ok (reported, after) =>
              .ok (.next reported (.ok ⟨offset + (bytes.length - rest.length), after⟩))
      | .ok _ => .ok .done := by
  have short := table.short
  have limited : limit = 2 ^ 64 := rfl
  rw [entryRound]
  cases bytes with
  | nil =>
      have finished : blockLength ≤ offset := Nat.le_of_eq ends.symm
      rw [if_pos finished]
      rfl
  | cons entryType rest =>
      have positive : 0 < (entryType :: rest).length := Nat.succ_pos _
      have typed : table.readU8 (blockOffset + offset) 0 = .ok entryType :=
        (readU8_held holds positive).trans (congrArg Except.ok (Memory.byte_bytes entryType))
      rw [if_neg (by dsimp only; omega), Parse.sum_of_lt (by dsimp only; omega), Parse.ok_bind, typed,
        Parse.ok_bind, entrySize_bytes fits holds ends, rawRound]
      cases found : entryLength (entryType :: rest) entryType with
      | error stop => rfl
      | ok length =>
          cases length with
          | none => rfl
          | some size =>
              obtain ⟨least, large, named, small⟩ :=
                entrySize_ok ((entrySize_bytes fits holds ends).trans found)
              rw [Parse.ok_bind, Parse.ok_bind]
              dsimp only
              rw [Parse.sum_of_lt (by omega), Parse.ok_bind]
              by_cases cut : (entryType :: rest).length < size
              · rw [if_pos (by omega), if_pos cut]
                rfl
              · have within : size ≤ (entryType :: rest).length := Nat.le_of_not_lt cut
                rw [if_neg (by omega), if_neg cut, entryHeader_bytes holds (by omega), Parse.ok_bind,
                  readEntry_bytes holds within large named]
                have passed : (entryType :: rest).length - ((entryType :: rest).drop size).length = size := by
                  rw [List.length_drop]
                  omega
                simp only [pure, Except.pure, passed]
                cases (rawEntry (entryType :: rest) entryType size).pair pending with
                | error stop => rfl
                | ok read => rfl

theorem transcript_bytes (fits : blockOffset + blockLength ≤ table.sdt.length)
    (holds : HoldsAt table.sdt (blockOffset + offset) bytes) (ends : offset + bytes.length = blockLength)
    {rounds : Nat} (enough : bytes.length < rounds) (pending : Option PendingIvhdRange) :
    transcript (table.entryRound blockOffset blockLength) rounds ⟨offset, pending⟩ =
      pairUp (rawEntries bytes).2 (rawEntries bytes).1 pending := by
  induction rounds generalizing offset bytes pending with
  | zero => omega
  | succ rounds ih =>
      have round := entryRound_bytes fits holds ends pending
      match ran : rawRound bytes with
      | .error stop =>
          rw [ran] at round
          rw [transcript_failed round, rawEntries, transcript_failed ran]
          rfl
      | .ok .done =>
          rw [ran] at round
          rw [transcript_done round, rawEntries, transcript_done ran]
          rfl
      | .ok (.next raw after) =>
          obtain ⟨entryType, rest, size, front, sized, whole, rfl, rfl⟩ := rawRound_next ran
          obtain ⟨least, _⟩ := entryLength_ok sized
          rw [ran] at round
          rw [rawEntries_next ran, pairUp]
          dsimp only at round ⊢
          cases paired : (rawEntry bytes entryType size).pair pending with
          | error stop =>
              rw [paired] at round
              rw [transcript_failed round]
          | ok read =>
              rw [paired] at round
              have taken : (bytes.take size).length = size := List.length_take_of_le whole
              have left : (bytes.drop size).length = bytes.length - size := List.length_drop
              have behind : HoldsAt table.sdt (blockOffset + (offset + size)) (bytes.drop size) := by
                rw [← Nat.add_assoc]
                rw [← List.take_append_drop size bytes] at holds
                have later := holds.split.2
                rwa [taken] at later
              have passed : bytes.length - (bytes.drop size).length = size := by omega
              rw [passed] at round
              rw [transcript_next round, ih behind (by omega) (by omega)]

/-- The walk over a block is a walk over its bytes behind the fixed part. -/
theorem deviceEntries_bytes {entriesOffset : Nat} (fits : blockOffset + blockLength ≤ table.sdt.length)
    (inside : entriesOffset ≤ blockLength) :
    table.deviceEntries blockOffset entriesOffset blockLength =
      walkBytes (window table.sdt (blockOffset + entriesOffset) (blockLength - entriesOffset)) := by
  have length : (window table.sdt (blockOffset + entriesOffset) (blockLength - entriesOffset)).length =
      blockLength - entriesOffset := window_length (by omega)
  refine transcript_bytes fits ⟨?_, ?_⟩ (by omega) (by omega) none
  · omega
  · rw [length]

end IvrsTable

end Iommu
