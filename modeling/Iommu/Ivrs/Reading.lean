import Iommu.Ivrs.Layout

/-!
What the walk over device entries makes of entries that are laid out as specified. It
reads the device id and the data setting one byte off, and so the source of an alias.
-/

namespace Iommu

open MachineWord FirmwareTable

namespace AmdDeviceEntry

def completed (pending : PendingIvhdRange) (last : Bdf) : Except IvrsError IvhdDeviceEntry :=
  if (Bdf.ofBytes last.highByte 0).raw < pending.start.raw then
    .error (.malformed "IVHD device range is reversed")
  else .ok (pending.ending (.ofBytes last.highByte 0))

/-- What the walk makes of the entry's bytes. -/
def misread : AmdDeviceEntry → Except IvrsError IvhdDeviceEntry
  | pad => .ok .pad
  | all _ => .ok (.all 0)
  | select deviceId dataSetting =>
      .ok (.select (.ofBytes deviceId.highByte dataSetting) deviceId.lowByte)
  | range start last dataSetting =>
      completed ⟨.ofBytes start.highByte dataSetting, .plain, start.lowByte⟩ last
  | aliasSelect deviceId source dataSetting =>
      .ok (.aliasSelect (.ofBytes deviceId.highByte dataSetting) (.ofBytes source.highByte 0)
        deviceId.lowByte)
  | aliasRange start last source dataSetting =>
      completed ⟨.ofBytes start.highByte dataSetting, .aliased (.ofBytes source.highByte 0),
        start.lowByte⟩ last
  | extendedSelect deviceId dataSetting extendedDataSetting =>
      .ok (.extendedSelect (.ofBytes deviceId.highByte dataSetting) deviceId.lowByte
        extendedDataSetting)
  | extendedRange start last dataSetting extendedDataSetting =>
      completed ⟨.ofBytes start.highByte dataSetting, .extended extendedDataSetting,
        start.lowByte⟩ last
  | special _ source _ variety => .ok (.special (.ofBytes source.highByte variety) 0)
  | acpiNamed deviceId dataSetting hardwareId compatibleId uidFormat uid =>
      .ok (.acpiNamed deviceId dataSetting hardwareId compatibleId uidFormat uid.1)

theorem shifted_iff (deviceId : Bdf) (dataSetting : UInt8) :
    Bdf.ofBytes deviceId.highByte dataSetting = deviceId ∧ deviceId.lowByte = dataSetting ↔
      deviceId.lowByte = dataSetting ∧ deviceId.highByte = dataSetting := by
  rw [Bdf.ofBytes_eq_iff]
  constructor
  · rintro ⟨⟨_, high⟩, low⟩
    exact ⟨low, high⟩
  · rintro ⟨low, high⟩
    exact ⟨⟨low.trans high.symm, high⟩, low⟩

theorem ending_inj {first second : PendingIvhdRange} {firstLast secondLast : Bdf} :
    first.ending firstLast = second.ending secondLast ↔ first = second ∧ firstLast = secondLast := by
  obtain ⟨start, kind, dataSetting⟩ := first
  obtain ⟨otherStart, otherKind, otherSetting⟩ := second
  cases kind <;> cases otherKind <;> simp [PendingIvhdRange.ending] <;> grind

theorem lowByte_zero {bdf : Bdf} (zero : bdf.raw = 0) : bdf.lowByte = 0 := by
  rw [Bdf.lowByte, zero]
  rfl

theorem completed_eq_iff (start last : Bdf) (readKind kind : PendingIvhdRangeKind)
    (dataSetting : UInt8) :
    completed ⟨.ofBytes start.highByte dataSetting, readKind, start.lowByte⟩ last =
        .ok (PendingIvhdRange.ending ⟨start, kind, dataSetting⟩ last) ↔
      start.raw = 0 ∧ last.raw = 0 ∧ readKind = kind ∧ dataSetting = 0 := by
  constructor
  · intro ended
    rw [completed] at ended
    split at ended
    · cases ended
    · next ordered =>
      obtain ⟨pending, ends⟩ := ending_inj.mp (Except.ok.inj ended)
      obtain ⟨starts, rfl, setting⟩ := PendingIvhdRange.mk.inj pending
      rw [starts, ends] at ordered
      have lastZero := (Bdf.ofBytes_high_zero_iff last).mp ends
      have startZero : start.raw = 0 := by
        rw [lastZero] at ordered
        exact UInt16.le_zero_iff.mp (UInt16.not_lt.mp ordered)
      exact ⟨startZero, lastZero, rfl, setting.symm.trans (lowByte_zero startZero)⟩
  · obtain ⟨start⟩ := start
    obtain ⟨last⟩ := last
    rintro ⟨rfl, rfl, rfl, rfl⟩
    rfl

/-- An entry is read for what it is exactly when its fields are the same one byte off. -/
theorem misread_eq_iff (entry : AmdDeviceEntry) :
    entry.misread = .ok entry.reported ↔ entry.Survives := by
  cases entry with
  | pad => simp [misread, reported, Survives]
  | all dataSetting => simp [misread, reported, Survives, eq_comm]
  | select deviceId dataSetting =>
      simp only [misread, reported, Survives, Except.ok.injEq, IvhdDeviceEntry.select.injEq]
      exact shifted_iff deviceId dataSetting
  | range start last dataSetting =>
      refine (completed_eq_iff start last .plain .plain dataSetting).trans ?_
      simp only [Survives, true_and]
  | aliasSelect deviceId source dataSetting =>
      simp only [misread, reported, Survives, Except.ok.injEq, IvhdDeviceEntry.aliasSelect.injEq,
        Bdf.ofBytes_high_zero_iff]
      rw [and_left_comm, and_comm (a := source.raw = 0), shifted_iff, and_assoc]
  | aliasRange start last source dataSetting =>
      refine (completed_eq_iff start last (.aliased (.ofBytes source.highByte 0)) (.aliased source)
        dataSetting).trans ?_
      simp only [Survives, PendingIvhdRangeKind.aliased.injEq, Bdf.ofBytes_high_zero_iff]
  | extendedSelect deviceId dataSetting extendedDataSetting =>
      simp only [misread, reported, Survives, Except.ok.injEq, IvhdDeviceEntry.extendedSelect.injEq,
        and_true]
      exact shifted_iff deviceId dataSetting
  | extendedRange start last dataSetting extendedDataSetting =>
      refine (completed_eq_iff start last (.extended extendedDataSetting)
        (.extended extendedDataSetting) dataSetting).trans ?_
      simp only [Survives, true_and]
  | special handle source dataSetting variety =>
      simp only [misread, reported, Survives, Except.ok.injEq, IvhdDeviceEntry.special.injEq]
      constructor
      · rintro ⟨same, rfl⟩
        exact ⟨(Bdf.ofBytes_high_zero_iff source).mp same, rfl⟩
      · rintro ⟨zero, rfl⟩
        exact ⟨(Bdf.ofBytes_high_zero_iff source).mpr zero, rfl⟩
  | acpiNamed deviceId dataSetting hardwareId compatibleId uidFormat uid =>
      simp [misread, reported, Survives]

end AmdDeviceEntry

namespace IvrsTable

variable {table : IvrsTable} {blockOffset blockLength offset : Nat} {entryType : UInt8}

theorem entryRound_held {first second third : UInt8} {rest : List UInt8} {size : Nat}
    (fits : blockOffset + blockLength ≤ table.sdt.length)
    (holds : HoldsAt table.sdt (blockOffset + offset) (entryType :: first :: second :: third :: rest))
    (total : 4 + rest.length = size) (whole : offset + size ≤ blockLength)
    (sized : entrySize table blockLength offset (blockOffset + offset) entryType = .ok (some size))
    (pending : Option PendingIvhdRange) :
    entryRound table blockOffset blockLength ⟨offset, pending⟩ = (do
      let read ← readEntry table (blockOffset + offset) size entryType
        (if entryType = DEVENTRY_ACPI_NAMED then .ofBytes first second else .ofBytes second third)
        (if entryType = DEVENTRY_ACPI_NAMED then third else first) pending
      pure (.next read.1 (.ok ⟨offset + size, read.2⟩))) := by
  have short := table.length_lt_limit
  have length : (entryType :: first :: second :: third :: rest).length = size := by
    simp only [List.length_cons]
    omega
  have typed : table.readU8 (blockOffset + offset) 0 = .ok entryType :=
    (readU8_held holds (by omega)).trans (congrArg Except.ok (Memory.byte_bytes entryType))
  have header : entryHeader table (blockOffset + offset) entryType =
      .ok (if entryType = DEVENTRY_ACPI_NAMED then .ofBytes first second else .ofBytes second third,
        if entryType = DEVENTRY_ACPI_NAMED then third else first) := by
    rw [entryHeader]
    split
    · rw [readU16_held holds (by omega), Parse.ok_bind, readU8_held holds (by omega), Parse.ok_bind]
      exact congrArg (fun value => Except.ok (Bdf.ofBytes first second, value)) (Memory.byte_bytes third)
    · rw [readU16_held holds (by omega), Parse.ok_bind, readU8_held holds (by omega), Parse.ok_bind]
      exact congrArg (fun value => Except.ok (Bdf.ofBytes second third, value)) (Memory.byte_bytes first)
  have stop : (Parse.sum offset size : Parse IvrsError Nat) = .ok (offset + size) :=
    Parse.sum_of_lt (by omega)
  rw [entryRound, if_neg (by dsimp only; omega), Parse.sum_of_lt (by dsimp only; omega), Parse.ok_bind,
    typed, Parse.ok_bind, sized, Parse.ok_bind]
  dsimp only
  rw [stop, Parse.ok_bind, if_neg (by omega), header, Parse.ok_bind]
  rfl

theorem entryRound_single {first second third : UInt8} {rest : List UInt8}
    (fits : blockOffset + blockLength ≤ table.sdt.length)
    (holds : HoldsAt table.sdt (blockOffset + offset) (entryType :: first :: second :: third :: rest))
    (whole : offset + (4 + rest.length) ≤ blockLength)
    (sized : entrySize table blockLength offset (blockOffset + offset) entryType =
      .ok (some (4 + rest.length)))
    (unnamed : entryType ≠ DEVENTRY_ACPI_NAMED) (pending : Option PendingIvhdRange)
    {after : Option PendingIvhdRange} {entry : Option IvhdDeviceEntry}
    (read : readEntry table (blockOffset + offset) (4 + rest.length) entryType
      (.ofBytes second third) first pending = .ok (entry, after)) :
    entryRound table blockOffset blockLength ⟨offset, pending⟩ =
      .ok (.next entry (.ok ⟨offset + (4 + rest.length), after⟩)) := by
  rw [entryRound_held fits holds rfl whole sized, if_neg unnamed, if_neg unnamed, read]
  rfl

theorem entryRound_rangeEnd (fits : blockOffset + blockLength ≤ table.sdt.length) {last : Bdf}
    (holds : HoldsAt table.sdt (blockOffset + offset) (AmdDeviceEntry.rangeEnd last))
    (whole : offset + 4 ≤ blockLength) (pending : PendingIvhdRange) :
    entryRound table blockOffset blockLength ⟨offset, some pending⟩ =
      match AmdDeviceEntry.completed pending last with
      | .ok found => .ok (.next (some found) (.ok ⟨offset + 4, none⟩))
      | .error failure => .error (.failed failure) := by
  rw [AmdDeviceEntry.rangeEnd] at holds
  have ran := entryRound_held fits holds rfl whole rfl (some pending)
  rw [ran, AmdDeviceEntry.completed]
  have read : readEntry table (blockOffset + offset) 4 DEVENTRY_RANGE_END
      (.ofBytes last.highByte 0) last.lowByte (some pending) =
      if (Bdf.ofBytes last.highByte 0).raw < pending.start.raw then
        malformed "IVHD device range is reversed"
      else pure (some (pending.ending (.ofBytes last.highByte 0)), none) := rfl
  have unnamed : DEVENTRY_RANGE_END ≠ DEVENTRY_ACPI_NAMED := by decide
  rw [if_neg unnamed, if_neg unnamed, List.length_nil, read]
  split
  · rfl
  · rfl

theorem source_held {entryOffset : Nat} {first second third fourth fifth behind : UInt8} {source : Bdf}
    (holds : HoldsAt table.sdt entryOffset
      [first, second, third, fourth, fifth, source.lowByte, source.highByte, behind]) :
    table.readU16 entryOffset 6 = .ok (Bdf.ofBytes source.highByte behind).raw :=
  readU16_held holds (Nat.le_refl 8)

theorem extended_held {entryOffset : Nat} {first second third fourth : UInt8} {extended : UInt32}
    (holds : HoldsAt table.sdt entryOffset
      (first :: second :: third :: fourth :: Memory.toBytesLE 4 extended.toNat)) :
    table.readU32 entryOffset 4 = .ok extended := by
  rw [readU32_held holds (by simp)]
  exact congrArg Except.ok (Memory.word32_bytes extended)

section Fields

variable {entryOffset entrySize : Nat} {deviceId : Bdf} {dataSetting : UInt8}
  {pending : Option PendingIvhdRange} {source : UInt16} {extended : UInt32}

theorem readEntry_aliasRangeStart (read : table.readU16 entryOffset 6 = .ok source) :
    readEntry table entryOffset entrySize DEVENTRY_ALIAS_RANGE_START deviceId dataSetting pending =
      .ok (none, some ⟨deviceId, .aliased ⟨source⟩, dataSetting⟩) :=
  Parse.bind_eq_ok.mpr ⟨source, read, rfl⟩

theorem readEntry_extendedRangeStart (read : table.readU32 entryOffset 4 = .ok extended) :
    readEntry table entryOffset entrySize DEVENTRY_EXTENDED_RANGE_START deviceId dataSetting pending =
      .ok (none, some ⟨deviceId, .extended extended, dataSetting⟩) :=
  Parse.bind_eq_ok.mpr ⟨extended, read, rfl⟩

theorem readEntry_aliasSelect (read : table.readU16 entryOffset 6 = .ok source) :
    readEntry table entryOffset entrySize DEVENTRY_ALIAS_SELECT deviceId dataSetting pending =
      .ok (some (.aliasSelect deviceId ⟨source⟩ dataSetting), pending) :=
  Parse.bind_eq_ok.mpr ⟨source, read, rfl⟩

theorem readEntry_extendedSelect (read : table.readU32 entryOffset 4 = .ok extended) :
    readEntry table entryOffset entrySize DEVENTRY_EXTENDED_SELECT deviceId dataSetting pending =
      .ok (some (.extendedSelect deviceId dataSetting extended), pending) :=
  Parse.bind_eq_ok.mpr ⟨extended, read, rfl⟩

theorem readEntry_special (read : table.readU16 entryOffset 6 = .ok source) :
    readEntry table entryOffset entrySize DEVENTRY_SPECIAL deviceId dataSetting pending =
      .ok (some (.special ⟨source⟩ dataSetting), pending) :=
  Parse.bind_eq_ok.mpr ⟨source, read, rfl⟩

end Fields

section Rounds

variable {rounds size : Nat}

theorem transcript_single {found : IvhdDeviceEntry}
    (ran : entryRound table blockOffset blockLength ⟨offset, none⟩ =
      .ok (.next (some found) (.ok ⟨offset + size, none⟩))) (positive : 0 < size)
    (whole : offset + size ≤ blockLength) (enough : blockLength - offset < rounds) :
    ∃ fewer, blockLength - (offset + size) < fewer ∧
      transcript (entryRound table blockOffset blockLength) rounds ⟨offset, none⟩ =
        prepend (.ok found)
          (transcript (entryRound table blockOffset blockLength) fewer ⟨offset + size, none⟩) := by
  obtain ⟨fewer, rfl⟩ : ∃ fewer, rounds = fewer + 1 := ⟨rounds - 1, by omega⟩
  exact ⟨fewer, by omega, transcript_next ran⟩

theorem transcript_range (fits : blockOffset + blockLength ≤ table.sdt.length)
    {pending : PendingIvhdRange} {last : Bdf}
    (ran : entryRound table blockOffset blockLength ⟨offset, none⟩ =
      .ok (.next none (.ok ⟨offset + size, some pending⟩)))
    (holds : HoldsAt table.sdt (blockOffset + (offset + size)) (AmdDeviceEntry.rangeEnd last))
    (whole : offset + size + 4 ≤ blockLength) (enough : blockLength - offset < rounds) :
    ∃ fewer, blockLength - (offset + size + 4) < fewer ∧
      transcript (entryRound table blockOffset blockLength) rounds ⟨offset, none⟩ =
        prepend (AmdDeviceEntry.completed pending last)
          (transcript (entryRound table blockOffset blockLength) fewer
            ⟨offset + size + 4, none⟩) := by
  obtain ⟨fewer, rfl⟩ : ∃ fewer, rounds = fewer + 1 + 1 := ⟨rounds - 2, by omega⟩
  refine ⟨fewer, by omega, ?_⟩
  rw [transcript_next ran, Option.toList_none, List.nil_append]
  have ended := entryRound_rangeEnd fits holds whole pending
  cases completed : AmdDeviceEntry.completed pending last with
  | ok found =>
      rw [completed] at ended
      exact transcript_next ended
  | error failure =>
      rw [completed] at ended
      exact transcript_failed ended

section Named

variable {deviceId : Bdf} {dataSetting : UInt8} {hardwareId compatibleId : UInt64} {uidFormat : UInt8}
  {uid : { uid : List UInt8 // uid.length < 256 }}

theorem acpiNamed_length (deviceId : Bdf) (dataSetting : UInt8) (hardwareId compatibleId : UInt64)
    (uidFormat : UInt8) (uid : { uid : List UInt8 // uid.length < 256 }) :
    (AmdDeviceEntry.bytes (.acpiNamed deviceId dataSetting hardwareId compatibleId uidFormat
      uid)).length = DEVENTRY_ACPI_NAMED_MIN_LENGTH + uid.1.length := by
  rw [DEVENTRY_ACPI_NAMED_MIN_LENGTH]
  simp only [AmdDeviceEntry.bytes, List.length_cons, List.length_append, Memory.toBytesLE_length,
    List.length_nil]
  omega

variable (holds : HoldsAt table.sdt (blockOffset + offset) (AmdDeviceEntry.bytes
  (.acpiNamed deviceId dataSetting hardwareId compatibleId uidFormat uid)))

include holds

theorem readEntry_acpiNamed (pending : Option PendingIvhdRange) :
    readEntry table (blockOffset + offset) (DEVENTRY_ACPI_NAMED_MIN_LENGTH + uid.1.length)
      DEVENTRY_ACPI_NAMED deviceId dataSetting pending =
      .ok (some (.acpiNamed deviceId dataSetting hardwareId compatibleId uidFormat uid.1), pending) := by
  have short := table.length_lt_limit
  have size := acpiNamed_length deviceId dataSetting hardwareId compatibleId uidFormat uid
  have least : DEVENTRY_ACPI_NAMED_MIN_LENGTH = 22 := rfl
  have inside := holds.inside
  have hardware : table.readU64 (blockOffset + offset) 4 = .ok hardwareId := by
    rw [readU64_held holds (by omega)]
    exact congrArg Except.ok (Memory.word64_bytes hardwareId)
  have compatible : table.readU64 (blockOffset + offset) 12 = .ok compatibleId := by
    rw [readU64_held holds (by omega)]
    exact congrArg Except.ok (Memory.word64_bytes compatibleId)
  have format : table.readU8 (blockOffset + offset) 20 = .ok uidFormat := by
    rw [readU8_held holds (by omega)]
    exact congrArg Except.ok (Memory.byte_bytes uidFormat)
  have name : window table.sdt (blockOffset + offset + DEVENTRY_ACPI_NAMED_MIN_LENGTH) uid.1.length =
      uid.1 := by
    rw [holds.window_eq (by omega)]
    exact List.take_length
  refine Parse.bind_eq_ok.mpr ⟨_, hardware, Parse.bind_eq_ok.mpr ⟨_, compatible,
    Parse.bind_eq_ok.mpr ⟨_, format, ?_⟩⟩⟩
  rw [Parse.sum_of_lt (by omega), Parse.ok_bind, Parse.sum_of_lt (by omega), Parse.ok_bind,
    sliceOf_inside (by omega) (by omega), Parse.ok_bind]
  rw [show blockOffset + offset + (DEVENTRY_ACPI_NAMED_MIN_LENGTH + uid.1.length) -
    (blockOffset + offset + DEVENTRY_ACPI_NAMED_MIN_LENGTH) = uid.1.length by omega, name]
  rfl

variable (fits : blockOffset + blockLength ≤ table.sdt.length)
  (whole : offset + (DEVENTRY_ACPI_NAMED_MIN_LENGTH + uid.1.length) ≤ blockLength)

include fits whole

theorem entrySize_acpiNamed :
    entrySize table blockLength offset (blockOffset + offset) DEVENTRY_ACPI_NAMED =
      .ok (some (DEVENTRY_ACPI_NAMED_MIN_LENGTH + uid.1.length)) := by
  have short := table.length_lt_limit
  have size := acpiNamed_length deviceId dataSetting hardwareId compatibleId uidFormat uid
  have count : table.readU8 (blockOffset + offset) 21 = .ok (.ofNat uid.1.length) := by
    rw [DEVENTRY_ACPI_NAMED_MIN_LENGTH] at size
    rw [readU8_held holds (by omega)]
    exact congrArg Except.ok (Memory.byte_bytes _)
  rw [entrySize, if_neg (by decide), if_neg (by decide), if_pos rfl, Parse.sum_of_lt (by omega),
    Parse.ok_bind, if_neg (by omega), count, Parse.ok_bind, UInt8.toNat_ofNat_of_lt' uid.2]
  rfl

theorem entryRound_acpiNamed :
    entryRound table blockOffset blockLength ⟨offset, none⟩ =
      .ok (.next (some (.acpiNamed deviceId dataSetting hardwareId compatibleId uidFormat uid.1))
        (.ok ⟨offset + (DEVENTRY_ACPI_NAMED_MIN_LENGTH + uid.1.length), none⟩)) := by
  have sized := entrySize_acpiNamed holds fits whole
  have read := readEntry_acpiNamed holds none
  have size := acpiNamed_length deviceId dataSetting hardwareId compatibleId uidFormat uid
  rw [entryRound_held fits holds ((Nat.add_comm 4 _).trans size) whole sized, if_pos rfl, if_pos rfl,
    Bdf.ofBytes_bytes, read]
  rfl

end Named

theorem transcript_entry (fits : blockOffset + blockLength ≤ table.sdt.length)
    (entry : AmdDeviceEntry) (holds : HoldsAt table.sdt (blockOffset + offset) entry.bytes)
    (whole : offset + entry.bytes.length ≤ blockLength) (enough : blockLength - offset < rounds) :
    ∃ fewer, blockLength - (offset + entry.bytes.length) < fewer ∧
      transcript (entryRound table blockOffset blockLength) rounds ⟨offset, none⟩ =
        prepend entry.misread (transcript (entryRound table blockOffset blockLength) fewer
          ⟨offset + entry.bytes.length, none⟩) := by
  cases entry with
  | pad =>
      have ran := entryRound_single fits holds whole rfl (by decide) none rfl
      exact transcript_single ran (Nat.succ_pos _) whole enough
  | all dataSetting =>
      have ran := entryRound_single fits holds whole rfl (by decide) none rfl
      exact transcript_single ran (Nat.succ_pos _) whole enough
  | select deviceId dataSetting =>
      have ran := entryRound_single fits holds whole rfl (by decide) none rfl
      exact transcript_single ran (Nat.succ_pos _) whole enough
  | range start last dataSetting =>
      obtain ⟨starts, ends⟩ := holds.split
      have size : offset + 4 + 4 ≤ blockLength := whole
      have ran := entryRound_single fits starts (Nat.le_of_add_right_le size) rfl (by decide) none rfl
      rw [Nat.add_assoc] at ends
      exact transcript_range fits ran ends whole enough
  | aliasSelect deviceId source dataSetting =>
      have ran := entryRound_single fits holds whole rfl (by decide) none
        (readEntry_aliasSelect (source_held holds))
      exact transcript_single ran (Nat.succ_pos _) whole enough
  | aliasRange start last source dataSetting =>
      obtain ⟨starts, ends⟩ := holds.split
      have size : offset + 8 + 4 ≤ blockLength := whole
      have ran := entryRound_single fits starts (Nat.le_of_add_right_le size) rfl (by decide) none
        (readEntry_aliasRangeStart (source_held starts))
      rw [Nat.add_assoc] at ends
      exact transcript_range fits ran ends whole enough
  | extendedSelect deviceId dataSetting extendedDataSetting =>
      have ran := entryRound_single fits holds whole rfl (by decide) none
        (readEntry_extendedSelect (extended_held holds))
      exact transcript_single ran (Nat.succ_pos _) whole enough
  | extendedRange start last dataSetting extendedDataSetting =>
      obtain ⟨starts, ends⟩ := holds.split
      have size : offset + 8 + 4 ≤ blockLength := whole
      have ran := entryRound_single fits starts (Nat.le_of_add_right_le size) rfl (by decide) none
        (readEntry_extendedRangeStart (extended_held starts))
      rw [Nat.add_assoc] at ends
      exact transcript_range fits ran ends whole enough
  | special handle source dataSetting variety =>
      have ran := entryRound_single fits holds whole rfl (by decide) none
        (readEntry_special (source_held holds))
      exact transcript_single ran (Nat.succ_pos _) whole enough
  | acpiNamed deviceId dataSetting hardwareId compatibleId uidFormat uid =>
      rw [acpiNamed_length] at whole ⊢
      exact transcript_single (entryRound_acpiNamed holds fits whole) (Nat.add_pos_left (by decide) _)
        whole enough

theorem transcript_entries (fits : blockOffset + blockLength ≤ table.sdt.length)
    (entries : List AmdDeviceEntry)
    (holds : HoldsAt table.sdt (blockOffset + offset) (AmdDeviceEntry.listBytes entries))
    (whole : offset + (AmdDeviceEntry.listBytes entries).length = blockLength)
    (enough : blockLength - offset < rounds) :
    transcript (entryRound table blockOffset blockLength) rounds ⟨offset, none⟩ =
      untilFailure (entries.map AmdDeviceEntry.misread) := by
  induction entries generalizing offset rounds with
  | nil =>
      obtain ⟨fewer, rfl⟩ : ∃ fewer, rounds = fewer + 1 := ⟨rounds - 1, by omega⟩
      exact transcript_done (if_pos (Nat.le_of_eq whole.symm))
  | cons entry rest ih =>
      rw [AmdDeviceEntry.listBytes, List.flatMap_cons] at holds whole
      rw [List.length_append, ← Nat.add_assoc] at whole
      obtain ⟨first, others⟩ := holds.split
      obtain ⟨fewer, left, walked⟩ :=
        transcript_entry fits entry first (Nat.le.intro whole) enough
      rw [Nat.add_assoc] at others
      rw [walked, ih others whole left, List.map_cons, untilFailure_cons]

end Rounds

end IvrsTable

end Iommu
