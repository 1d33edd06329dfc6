import Iommu.Ivrs.Blocks

/-!
Every IVRS table can be gone through: its blocks tile it up to a framing failure, each is
read from its own bytes, and so are the device entries of each unit.
-/

namespace Iommu

open MachineWord FirmwareTable

theorem physRangeFromStartSize_eq (start size : UInt64) (addrError rangeError : String) :
    physRangeFromStartSize start size addrError rangeError =
      if bounded : size.toNat ≠ 0 ∧ start.toNat + size.toNat < limit then
        .ok (.fromStartSize start.toNat size.toNat bounded.2)
      else malformed rangeError := by
  rw [physRangeFromStartSize, usizeTryFrom_eq, usizeTryFrom_eq]
  dsimp only
  by_cases empty : size.toNat = 0
  · rw [if_pos empty, dif_neg (fun both => both.1 empty)]
  · rw [if_neg empty, AddrRange.tryFromStartSize]
    by_cases bounded : start.toNat + size.toNat < limit
    · rw [dif_pos bounded, dif_pos ⟨empty, bounded⟩]
    · rw [dif_neg bounded, dif_neg (fun both => bounded both.2)]

theorem physRangeFromStartSize_returns (start size : UInt64) (addrError rangeError : String) :
    (physRangeFromStartSize start size addrError rangeError).Returns := by
  rw [physRangeFromStartSize_eq]
  split
  · exact .ok _
  · exact .fail _

namespace IvrsTable

variable {table : IvrsTable} {blockOffset blockLength offset entryOffset size : Nat}
  {entryType : UInt8}

theorem entrySize_ok (sized : entrySize table blockLength offset entryOffset entryType =
    .ok (some size)) : 4 ≤ size ∧ (entryType ∈ [0x42, 0x43, 0x46, 0x47, 0x48] → size = 8) ∧
      (entryType = DEVENTRY_ACPI_NAMED → DEVENTRY_ACPI_NAMED_MIN_LENGTH ≤ size) ∧ size < 278 := by
  rw [entrySize] at sized
  split at sized
  · next small =>
    cases sized
    refine ⟨Nat.le_refl 4, ?_, ?_, by decide⟩
    · intro large
      simp only [List.mem_cons, List.not_mem_nil, or_false] at large
      rcases large with rfl | rfl | rfl | rfl | rfl <;> exact absurd small (by decide)
    · rintro rfl
      exact absurd small (by decide)
  · split at sized
    · next large =>
      cases sized
      refine ⟨by decide, fun _ => rfl, ?_, by decide⟩
      rintro rfl
      exact absurd large (by decide)
    · next other =>
      split at sized
      · obtain ⟨least, _, sized⟩ := Parse.bind_eq_ok.mp sized
        split at sized
        · exact absurd ⟨_, sized⟩ malformed_ne_ok
        · obtain ⟨uidLength, _, built⟩ := Parse.bind_eq_ok.mp sized
          cases built
          have small := uidLength.toNat_lt
          rw [DEVENTRY_ACPI_NAMED_MIN_LENGTH]
          exact ⟨by omega, fun large => absurd large other, fun _ => by omega, by omega⟩
      · next unnamed =>
        split at sized
        · cases sized
        · cases sized
          exact ⟨Nat.le_refl 4, fun large => absurd large other, fun named => absurd named unnamed,
            by decide⟩

theorem entrySize_within (fits : blockOffset + blockLength ≤ table.sdt.length)
    (inside : offset < blockLength) :
    ReadsWithin blockOffset (blockOffset + blockLength) table fun table =>
      entrySize table blockLength offset (blockOffset + offset) entryType := by
  have short := table.length_lt_limit
  have room : DEVENTRY_ACPI_NAMED_MIN_LENGTH = 22 := rfl
  have limited : limit = 2 ^ 64 := rfl
  have table_short := table.short
  apply ReadsWithin.ite (fun _ => .pure _)
  intro _
  apply ReadsWithin.ite (fun _ => .pure _)
  intro _
  apply ReadsWithin.ite
  · intro _
    apply ReadsWithin.afterSum (by omega)
    apply ReadsWithin.ite (fun _ => .malformed _)
    intro least
    apply ReadsWithin.bind (.readU8 (by omega) (by omega) fits)
    intro uidLength _
    exact .pure _
  · intro _
    exact .ite (fun _ => .pure _) fun _ => .pure _

theorem entryHeader_within (fits : blockOffset + blockLength ≤ table.sdt.length)
    (whole : offset + 4 ≤ blockLength) :
    ReadsWithin blockOffset (blockOffset + blockLength) table fun table =>
      entryHeader table (blockOffset + offset) entryType := by
  apply ReadsWithin.ite
  · intro _
    apply ReadsWithin.bind (.readU16 (by omega) (by omega) fits)
    intro deviceId _
    apply ReadsWithin.bind (.readU8 (by omega) (by omega) fits)
    intro dataSetting _
    exact .pure _
  · intro _
    apply ReadsWithin.bind (.readU16 (by omega) (by omega) fits)
    intro deviceId _
    apply ReadsWithin.bind (.readU8 (by omega) (by omega) fits)
    intro dataSetting _
    exact .pure _

theorem readEntry_within (fits : blockOffset + blockLength ≤ table.sdt.length)
    (whole : offset + size ≤ blockLength)
    (large : entryType ∈ [0x42, 0x43, 0x46, 0x47, 0x48] → size = 8)
    (named : entryType = DEVENTRY_ACPI_NAMED → DEVENTRY_ACPI_NAMED_MIN_LENGTH ≤ size)
    (deviceId : Bdf) (dataSetting : UInt8) (pending : Option PendingIvhdRange) :
    ReadsWithin blockOffset (blockOffset + blockLength) table fun table =>
      readEntry table (blockOffset + offset) size entryType deviceId dataSetting pending := by
  have short := table.length_lt_limit
  apply ReadsWithin.ite (fun _ => .pure _)
  intro _
  apply ReadsWithin.ite (fun _ => .pure _)
  intro _
  apply ReadsWithin.ite (fun _ => .pure _)
  intro _
  apply ReadsWithin.ite (fun _ => .pure _)
  intro _
  apply ReadsWithin.ite
  · rintro rfl
    have eight := large (by decide)
    apply ReadsWithin.bind (.readU16 (by omega) (by omega) fits)
    intro source _
    exact .pure _
  intro _
  apply ReadsWithin.ite
  · rintro rfl
    have eight := large (by decide)
    apply ReadsWithin.bind (.readU32 (by omega) (by omega) fits)
    intro extendedDataSetting _
    exact .pure _
  intro _
  apply ReadsWithin.ite
  · intro _
    cases pending with
    | none => exact .pure _
    | some start => exact .ite (fun _ => .malformed _) fun _ => .pure _
  intro _
  apply ReadsWithin.ite
  · rintro rfl
    have eight := large (by decide)
    apply ReadsWithin.bind (.readU16 (by omega) (by omega) fits)
    intro source _
    exact .pure _
  intro _
  apply ReadsWithin.ite
  · rintro rfl
    have eight := large (by decide)
    apply ReadsWithin.bind (.readU32 (by omega) (by omega) fits)
    intro extendedDataSetting _
    exact .pure _
  intro _
  apply ReadsWithin.ite
  · rintro rfl
    have eight := large (by decide)
    apply ReadsWithin.bind (.readU16 (by omega) (by omega) fits)
    intro source _
    exact .pure _
  intro _
  apply ReadsWithin.ite
  · intro acpi
    have least := named acpi
    rw [DEVENTRY_ACPI_NAMED_MIN_LENGTH] at least
    apply ReadsWithin.bind (.readU64 (by omega) (by omega) fits)
    intro hardwareId _
    apply ReadsWithin.bind (.readU64 (by omega) (by omega) fits)
    intro compatibleId _
    apply ReadsWithin.bind (.readU8 (by omega) (by omega) fits)
    intro uidFormat _
    rw [DEVENTRY_ACPI_NAMED_MIN_LENGTH]
    apply ReadsWithin.afterSum (by omega)
    apply ReadsWithin.afterSum (by omega)
    apply ReadsWithin.bind (.sliced (by omega) (by omega) (by omega) fits)
    intro uid _
    exact .pure _
  · intro _
    exact .pure _

theorem entryRound_within (fits : blockOffset + blockLength ≤ table.sdt.length) (state : EntryWalk) :
    ReadsWithin blockOffset (blockOffset + blockLength) table fun table =>
      entryRound table blockOffset blockLength state := by
  have short := table.short
  have limited : limit = 2 ^ 64 := rfl
  apply ReadsWithin.ite (fun _ => .pure _)
  intro inside
  apply ReadsWithin.afterSum (by omega)
  apply ReadsWithin.bind (.readU8 (by omega) (by omega) fits)
  intro entryType _
  apply ReadsWithin.bind (entrySize_within fits (Nat.lt_of_not_le inside))
  rintro (_ | size) sized
  · exact .pure _
  · obtain ⟨least, large, named, small⟩ := entrySize_ok sized
    apply ReadsWithin.afterSum (by omega)
    apply ReadsWithin.ite (fun _ => .malformed _)
    intro whole
    apply ReadsWithin.bind (entryHeader_within fits (by omega))
    rintro ⟨deviceId, dataSetting⟩ _
    apply ReadsWithin.bind (readEntry_within fits (by omega) large named _ _ _)
    rintro ⟨entry, pending⟩ _
    exact .pure _

theorem entryRound_advances {state : EntryWalk} {entry : Option IvhdDeviceEntry}
    {after : Parse IvrsError EntryWalk}
    (ran : entryRound table blockOffset blockLength state = .ok (.next entry after)) :
    ∃ next, after = .ok next ∧ state.offset < next.offset ∧ next.offset ≤ blockLength := by
  rw [entryRound] at ran
  split at ran
  · cases ran
  obtain ⟨entryOffset, _, ran⟩ := Parse.bind_eq_ok.mp ran
  obtain ⟨entryType, _, ran⟩ := Parse.bind_eq_ok.mp ran
  obtain ⟨size, sized, ran⟩ := Parse.bind_eq_ok.mp ran
  cases size with
  | none => cases ran
  | some size =>
      obtain ⟨least, _⟩ := entrySize_ok sized
      obtain ⟨stop, summed, ran⟩ := Parse.bind_eq_ok.mp ran
      have ends := Parse.sum_eq_ok summed
      split at ran
      · exact absurd ⟨_, ran⟩ malformed_ne_ok
      · next whole =>
        obtain ⟨⟨deviceId, dataSetting⟩, _, ran⟩ := Parse.bind_eq_ok.mp ran
        obtain ⟨⟨found, pending⟩, _, built⟩ := Parse.bind_eq_ok.mp ran
        cases built
        refine ⟨⟨stop, pending⟩, ?_, ?_, Nat.le_of_not_lt whole⟩
        · rw [summed]
          rfl
        · rw [ends]
          exact Nat.lt_add_of_pos_right (Nat.lt_of_lt_of_le (by decide) least)

theorem deviceEntries_returns (fits : blockOffset + blockLength ≤ table.sdt.length)
    (entriesOffset : Nat) :
    (deviceEntries table blockOffset entriesOffset blockLength).2.Returns := by
  apply transcript_returns (fun state => blockLength - state.offset)
  · intro state
    exact (entryRound_within fits state).returns
  · intro state entry after ran
    obtain ⟨next, same, further, inside⟩ := entryRound_advances ran
    exact ⟨next, same, by omega⟩
  · dsimp only
    omega

theorem deviceEntries_only (fits : blockOffset + blockLength ≤ table.sdt.length)
    (entriesOffset : Nat) {other : IvrsTable}
    (agree : AgreeOn table.sdt other.sdt blockOffset (blockOffset + blockLength)) :
    deviceEntries other blockOffset entriesOffset blockLength =
      deviceEntries table blockOffset entriesOffset blockLength := by
  have same : entryRound other blockOffset blockLength = entryRound table blockOffset blockLength :=
    funext fun state => (entryRound_within fits state).only other agree
  rw [deviceEntries, deviceEntries, same]

end IvrsTable

def IvhdDeviceEntry.Ordered : IvhdDeviceEntry → Prop
  | .range start last _ => start.raw ≤ last.raw
  | .aliasRange start last _ _ => start.raw ≤ last.raw
  | .extendedRange start last _ _ => start.raw ≤ last.raw
  | _ => True

namespace IvrsTable

variable {table : IvrsTable} {blockOffset blockLength offset length entryOffset size : Nat}
  {entryType : UInt8}

theorem readEntry_ordered (deviceId : Bdf) (dataSetting : UInt8)
    (before : Option PendingIvhdRange) :
    (readEntry table entryOffset size entryType deviceId dataSetting before).Ensures
      fun read => ∀ entry, read.1 = some entry → entry.Ordered := by
  have nothing : ∀ entry : IvhdDeviceEntry, none = some entry → entry.Ordered := by
    rintro entry ⟨⟩
  have unordered : ∀ found : IvhdDeviceEntry, found.Ordered →
      ∀ entry, some found = some entry → entry.Ordered := by
    rintro found ordered entry ⟨⟩
    exact ordered
  refine .ite (fun _ => .pure (unordered _ trivial)) fun _ => ?_
  refine .ite (fun _ => .pure (unordered _ trivial)) fun _ => ?_
  refine .ite (fun _ => .pure (unordered _ trivial)) fun _ => ?_
  refine .ite (fun _ => .pure nothing) fun _ => ?_
  refine .ite (fun _ => .bind fun _ _ => .pure nothing) fun _ => ?_
  refine .ite (fun _ => .bind fun _ _ => .pure nothing) fun _ => ?_
  apply Parse.Ensures.ite
  · intro _
    cases before with
    | none => exact .pure nothing
    | some start =>
        refine .ite (fun _ => .fail _) fun ordered => ?_
        apply Parse.Ensures.pure
        apply unordered
        rw [PendingIvhdRange.ending]
        cases start.kind <;> exact UInt16.not_lt.mp ordered
  intro _
  refine .ite (fun _ => .bind fun _ _ => .pure (unordered _ trivial)) fun _ => ?_
  refine .ite (fun _ => .bind fun _ _ => .pure (unordered _ trivial)) fun _ => ?_
  refine .ite (fun _ => .bind fun _ _ => .pure (unordered _ trivial)) fun _ => ?_
  apply Parse.Ensures.ite
  · intro _
    exact .bind fun _ _ => .bind fun _ _ => .bind fun _ _ => .bind fun _ _ => .bind fun _ _ =>
      .bind fun _ _ => .pure (unordered _ trivial)
  · intro _
    exact .pure nothing

theorem entryRound_ordered (state : EntryWalk) :
    (entryRound table blockOffset blockLength state).Ensures
      fun round => ∀ entry after, round = .next (some entry) after → entry.Ordered := by
  have done : ∀ entry after, (Round.done : Round IvrsError IvhdDeviceEntry EntryWalk) =
      .next (some entry) after → entry.Ordered := by
    rintro entry after ⟨⟩
  refine .ite (fun _ => .ok done) fun _ => ?_
  refine .bind fun entryOffset _ => .bind fun entryType _ => .bind fun size _ => ?_
  cases size with
  | none => exact .pure done
  | some size =>
      refine .bind fun stop _ => .ite (fun _ => .fail _) fun _ => ?_
      refine .bind fun header _ => .bind fun read found => .pure ?_
      rintro entry after built
      exact readEntry_ordered _ _ _ _ found entry (Round.next.inj built).1

theorem deviceEntries_ordered {entriesOffset : Nat} {entry : IvhdDeviceEntry}
    (member : entry ∈ (deviceEntries table blockOffset entriesOffset blockLength).1) :
    entry.Ordered := by
  obtain ⟨state, after, ran⟩ := mem_transcript member
  exact entryRound_ordered state _ ran entry after rfl

theorem EntryFlags.visitEntry_succeeds (entry : IvhdDeviceEntry) (flags : EntryFlags) :
    ∃ final, EntryFlags.visitEntry entry flags = (.ok (), final) := by
  cases entry <;> exact ⟨_, rfl⟩

theorem entryFlags_within (fits : offset + length ≤ table.sdt.length) (blockType : UInt8) :
    ReadsWithin offset (offset + length) table fun table =>
      entryFlags table offset length blockType := by
  apply ReadsWithin.ite (fun _ => .pure _)
  intro behind
  constructor
  · obtain ⟨final, visited⟩ := visitEach_total EntryFlags.visitEntry_succeeds
      (deviceEntries table offset (deviceEntriesOffset blockType) length).1 ⟨false, false⟩
    have returned := deviceEntries_returns fits (deviceEntriesOffset blockType)
    rw [walkDeviceEntries_eq, visitAll, Effect.bind_of_ok visited, Effect.ofExcept_apply]
    cases outcome : (deviceEntries table offset (deviceEntriesOffset blockType) length).2 with
    | error stop =>
        rw [outcome] at returned
        exact returned.error
    | ok value => exact .ok _
  · intro other agree
    simp only [walkDeviceEntries_eq, deviceEntries_only fits _ agree]

theorem ivhdMinLength_ok {blockType : UInt8} {least : Nat}
    (known : ivhdMinLength blockType = .ok least) : least = deviceEntriesOffset blockType := by
  rw [ivhdMinLength] at known
  split at known
  · next ten =>
    cases known
    rw [ten]
    rfl
  · split at known
    · next either =>
      cases known
      exact (if_pos either).symm
    · exact absurd ⟨_, known⟩ malformed_ne_ok

theorem fixed_length (blockType : UInt8) : 24 ≤ deviceEntriesOffset blockType ∧
    (blockType = IVHD_TYPE_11H ∨ blockType = IVHD_TYPE_40H → deviceEntriesOffset blockType = 40) := by
  rw [deviceEntriesOffset]
  constructor
  · split <;> decide
  · intro either
    rw [if_pos either]
    rfl

theorem parseIvhd_within (fits : offset + length ≤ table.sdt.length) (blockType : UInt8) :
    ReadsWithin offset (offset + length) table fun table =>
      parseIvhd table offset length blockType := by
  have known : (ivhdMinLength blockType).Returns := by
    rw [ivhdMinLength]
    split
    · exact .ok _
    · split
      · exact .ok _
      · exact .fail _
  apply ReadsWithin.bind (.constant known)
  intro least found
  apply ReadsWithin.ite (fun _ => .malformed _)
  intro enough
  obtain ⟨fixed, extended⟩ := fixed_length blockType
  rw [ivhdMinLength_ok found] at enough
  apply ReadsWithin.bind (entryFlags_within fits blockType)
  intro entries _
  apply ReadsWithin.bind (.readU8 (by omega) (by rw [IVHD_FLAGS_OFFSET]; omega) fits)
  intro flags _
  apply ReadsWithin.bind (.readU16 (by omega) (by rw [IVHD_CAP_OFFSET]; omega) fits)
  intro capabilityOffset _
  apply ReadsWithin.bind (.readU64 (by omega) (by rw [IVHD_BASE_ADDR_OFFSET]; omega) fits)
  intro base _
  apply ReadsWithin.bind (.constant (mmioRegisterWindow_returns _ _ _ _))
  intro registers _
  apply ReadsWithin.bind (.readU16 (by omega) (by rw [IVHD_SEGMENT_OFFSET]; omega) fits)
  intro segment _
  apply ReadsWithin.bind (.readU16 (by omega) (by rw [IVHD_DEVICE_ID_OFFSET]; omega) fits)
  intro deviceId _
  apply ReadsWithin.bind (.readU16 (by omega) (by rw [IVHD_INFO_OFFSET]; omega) fits)
  intro iommuInfo _
  apply ReadsWithin.bind
  · apply ReadsWithin.readWhen
    intro _
    exact .readU32 (by omega) (by rw [IVHD_10H_FEATURE_OFFSET]; omega) fits
  intro featureInfo _
  apply ReadsWithin.bind
  · apply ReadsWithin.readWhen
    intro either
    have long := extended either
    exact .readU64 (by omega) (by rw [IVHD_11H_EFR_OFFSET]; omega) fits
  intro efr _
  exact .pure _

theorem parseIvmd_within (fits : offset + length ≤ table.sdt.length) (blockType : UInt8) :
    ReadsWithin offset (offset + length) table fun table =>
      parseIvmd table offset length blockType := by
  apply ReadsWithin.ite (fun _ => .malformed _)
  intro enough
  rw [IVMD_MIN_LENGTH] at enough
  apply ReadsWithin.bind (.readU8 (by omega) (by rw [IVMD_FLAGS_OFFSET]; omega) fits)
  intro flags _
  apply ReadsWithin.bind (.readU16 (by omega) (by rw [IVMD_DEVICE_ID_OFFSET]; omega) fits)
  intro deviceId _
  apply ReadsWithin.bind (.readU16 (by omega) (by rw [IVMD_AUX_OFFSET]; omega) fits)
  intro auxDeviceId _
  apply ReadsWithin.bind (.readU64 (by omega) (by rw [IVMD_START_ADDR_OFFSET]; omega) fits)
  intro start _
  apply ReadsWithin.bind (.readU64 (by omega) (by rw [IVMD_MEM_LENGTH_OFFSET]; omega) fits)
  intro size _
  apply ReadsWithin.bind (.constant (physRangeFromStartSize_returns _ _ _ _))
  intro memory _
  exact .pure _

theorem parseBlock_within (fits : offset + length ≤ table.sdt.length) (kind : UInt8) :
    ReadsWithin offset (offset + length) table fun table => parseBlock table offset length kind := by
  apply ReadsWithin.ite
  · intro _
    exact (parseIvhd_within fits kind).bind fun _ _ => .pure _
  intro _
  apply ReadsWithin.ite
  · intro _
    exact (parseIvmd_within fits kind).bind fun _ _ => .pure _
  intro _
  exact .pure _

def kindOf (table : IvrsTable) (offset : Nat) : UInt8 := .ofNat (fieldLE table.sdt offset 1)

theorem framing_readable (table : IvrsTable) : table.framing.Readable table.kindOf :=
  fun _ header => readU8_inside (by simp only [framing] at header; omega)

theorem blocks_tiled (table : IvrsTable) : ∃ items, table.blocks = .ok items ∧
    table.framing.Tiled table.kindOf IVRS_BLOCKS_OFFSET items := by
  apply Framing.drain_next table.framing_readable
  · intro offset frames
    exact (parseBlock_within frames.2 _).returns
  · exact table.long
  · exact Nat.lt_succ_of_le (Nat.sub_le _ _)

theorem parseIvhd_region (blockType : UInt8) :
    (parseIvhd table offset length blockType).Ensures fun unit =>
      unit.blockType = blockType ∧ unit.blockOffset = offset ∧ unit.length = length ∧
        deviceEntriesOffset unit.blockType ≤ unit.length := by
  refine .bind fun least known => .ite (fun _ => .fail _) fun enough => ?_
  rw [ivhdMinLength_ok known] at enough
  refine .bind fun entries _ => .bind fun flags _ => .bind fun capability _ => .bind fun base _ => ?_
  refine .bind fun registers _ => .bind fun segment _ => .bind fun deviceId _ => ?_
  refine .bind fun info _ => .bind fun feature _ => .bind fun efr _ => .pure ?_
  exact ⟨rfl, rfl, rfl, Nat.le_of_not_lt enough⟩

theorem parseBlock_region (kind : UInt8) :
    (parseBlock table offset length kind).Ensures fun block => ∀ unit, block = .ivhd unit →
      unit.blockOffset = offset ∧ unit.length = length ∧
        deviceEntriesOffset unit.blockType ≤ unit.length := by
  apply Parse.Ensures.ite
  · intro _
    refine .bind fun unit parsed => .pure ?_
    rintro _ ⟨⟩
    exact (parseIvhd_region kind unit parsed).2
  intro _
  apply Parse.Ensures.ite
  · intro _
    refine .bind fun memory _ => .pure ?_
    rintro _ ⟨⟩
  · intro _
    apply Parse.Ensures.ok
    rintro _ ⟨⟩

/-- Walking the device entries of a unit visits entries that its own bytes decide, ranges the right way
round among them, and ends with a failure or without. -/
structure WalksEntries (table : IvrsTable) (unit : Ivhd) : Prop where
  visits : ∀ (World : Type) (visit : IvhdDeviceEntry → Effect World (Stop IvrsError) Unit),
    table.walkDeviceEntries unit.blockOffset (deviceEntriesOffset unit.blockType) unit.length visit =
      visitAll visit (table.entriesOf unit)
  returns : (table.entriesOf unit).2.Returns
  only : ∀ other : IvrsTable,
    AgreeOn table.sdt other.sdt unit.blockOffset (unit.blockOffset + unit.length) →
      other.entriesOf unit = table.entriesOf unit
  ordered : ∀ entry ∈ (table.entriesOf unit).1, entry.Ordered

theorem walksEntries {unit : Ivhd} (fits : unit.blockOffset + unit.length ≤ table.sdt.length) :
    table.WalksEntries unit where
  visits _ visit := table.walkDeviceEntries_eq _ _ _ visit
  returns := deviceEntries_returns fits _
  only _ agree := deviceEntries_only fits _ agree
  ordered _ member := deviceEntries_ordered member

end IvrsTable

/-- Every accepted IVRS table is gone through without a panic. Its blocks tile it from its fixed header
to its end or up to one framing failure; each depends on its own bytes only; and the device entries of
each unit are walked inside its block. -/
theorem ivrs_parsing_total (validate : SdtValidation) (bytes : List UInt8) (table : IvrsTable)
    (accepted : IvrsTable.parse validate bytes = .ok table) :
    (table.sdt = window bytes 0 (fieldLE bytes 4 4) ∧ table.sdt.length = fieldLE bytes 4 4 ∧
      IVRS_BLOCKS_OFFSET ≤ table.sdt.length ∧ table.sdt.length ≤ bytes.length) ∧
    ∃ items, table.blocks = .ok items ∧
      table.framing.Tiled table.kindOf IVRS_BLOCKS_OFFSET items ∧
      (∀ offset length kind, offset + length ≤ table.sdt.length →
        ∀ other : IvrsTable, AgreeOn table.sdt other.sdt offset (offset + length) →
          other.parseBlock offset length kind = table.parseBlock offset length kind) ∧
      ∀ unit, .ok (.ivhd unit) ∈ items →
        unit.blockOffset + unit.length ≤ table.sdt.length ∧
        deviceEntriesOffset unit.blockType ≤ unit.length ∧ table.WalksEntries unit := by
  obtain ⟨same, fits⟩ := FirmwareTable.parse_ok accepted
  have length : table.sdt.length = fieldLE bytes 4 4 := by
    rw [same, window_length (by omega)]
  obtain ⟨items, drained, tiled⟩ := table.blocks_tiled
  refine ⟨⟨same, length, table.long, by omega⟩, items, drained, tiled, ?_, ?_⟩
  · intro offset length kind fits
    exact (IvrsTable.parseBlock_within fits kind).only
  · intro unit member
    obtain ⟨offset, frames, success⟩ := tiled.ok_mem member
    obtain ⟨rfl, size, behind⟩ := IvrsTable.parseBlock_region _ _ success unit rfl
    have inside := frames.2
    rw [← size] at inside
    exact ⟨inside, behind, IvrsTable.walksEntries inside⟩

def ivrsSampleBytes : List UInt8 :=
  IVRS.signature ++ [80, 0, 0, 0] ++ List.replicate 40 0 ++
    [0x10, 0, 32, 0, 0, 1, 0x40, 0, 0, 0, 0xd8, 0xfe, 0, 0, 0, 0, 2, 0, 0, 0, 0, 0, 0, 0] ++
    [3, 0, 0x10, 2, 4, 0, 0x18, 2]

theorem ivrs_parsing_total_sample : ∃ table : IvrsTable,
    IvrsTable.parse (fun _ => .ok ()) ivrsSampleBytes = .ok table ∧
      ∃ items, table.blocks = .ok items ∧
        table.framing.Tiled table.kindOf IVRS_BLOCKS_OFFSET items := by
  refine ⟨⟨ivrsSampleBytes, by decide, by decide⟩, rfl, ?_⟩
  obtain ⟨_, items, drained, tiled, _⟩ :=
    ivrs_parsing_total (fun _ => .ok ()) ivrsSampleBytes ⟨ivrsSampleBytes, by decide, by decide⟩ rfl
  exact ⟨items, drained, tiled⟩

end Iommu
