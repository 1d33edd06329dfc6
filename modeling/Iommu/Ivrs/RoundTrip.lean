import Iommu.Ivrs.Reading

/-!
Whether a table that is laid out as specified parses to what it means. That is so for no
region of memory, and for a unit when each of its entries reads the same one byte off.
-/

namespace Iommu

open MachineWord FirmwareTable

namespace AmdIvhd

theorem fixed_length (unit : AmdIvhd) : unit.fixed.length = deviceEntriesOffset unit.blockType := by
  have extension : unit.extension.length = deviceEntriesOffset unit.blockType - 24 := by
    rw [extension, deviceEntriesOffset]
    split
    · rfl
    · rfl
  have least := (IvrsTable.fixed_length unit.blockType).1
  simp only [fixed, List.length_append, Memory.toBytesLE_length, List.length_cons, List.length_nil,
    extension]
  omega

theorem bytes_length (unit : AmdIvhd) : unit.bytes.length = unit.length := by
  rw [bytes, List.length_append, fixed_length, length]

theorem length_lt (unit : AmdIvhd) : unit.length < 2 ^ 16 := unit.short

end AmdIvhd

namespace AmdBlock

def kind : AmdBlock → UInt8
  | ivhd unit => unit.blockType
  | ivmd memory => memory.ivmdType

theorem bytes_length (block : AmdBlock) : 24 ≤ block.bytes.length ∧ block.bytes.length < 2 ^ 16 := by
  cases block with
  | ivhd unit =>
      have least := (IvrsTable.fixed_length unit.blockType).1
      have short := unit.length_lt
      rw [bytes, unit.bytes_length]
      rw [AmdIvhd.length] at short ⊢
      omega
  | ivmd memory =>
      have length : (ivmd memory).bytes.length = 32 := rfl
      omega

end AmdBlock

namespace IvrsTable

variable {table : IvrsTable} {offset length : Nat}

theorem block_header (block : AmdBlock) (holds : HoldsAt table.sdt offset block.bytes) :
    table.kindOf offset = block.kind ∧ table.framing.declared offset = block.bytes.length := by
  obtain ⟨least, short⟩ := block.bytes_length
  have kind := holds.fieldLE_eq (Nat.le_trans (by decide : 0 + 1 ≤ 24) least)
  have size := holds.fieldLE_eq (Nat.le_trans (by decide : 2 + 2 ≤ 24) least)
  rw [Nat.add_zero] at kind
  have laid : window block.bytes 0 1 = [block.kind] ∧
      window block.bytes 2 2 = Memory.toBytesLE 2 block.bytes.length := by
    cases block with
    | ivhd unit =>
        rw [AmdBlock.bytes, unit.bytes_length]
        exact ⟨rfl, rfl⟩
    | ivmd memory => exact ⟨rfl, rfl⟩
  constructor
  · rw [kindOf, kind, laid.1]
    exact Memory.byte_bytes block.kind
  · have small : block.bytes.length < 256 ^ 2 := short
    rw [laid.2, Memory.ofBytesLE_toBytesLE_of_lt small] at size
    exact size

theorem block_frames (block : AmdBlock) (holds : HoldsAt table.sdt offset block.bytes) :
    table.framing.Frames offset := by
  have least := block.bytes_length.1
  rw [Framing.Frames, (block_header block holds).2]
  exact ⟨by omega, holds.inside⟩

theorem entryFlags_ok {blockType : UInt8}
    (walked : (deviceEntries table offset (deviceEntriesOffset blockType) length).2 = .ok ()) :
    ∃ flags, entryFlags table offset length blockType = .ok flags := by
  rw [entryFlags]
  split
  · exact ⟨_, rfl⟩
  · obtain ⟨final, visited⟩ := visitEach_total EntryFlags.visitEntry_succeeds
      (deviceEntries table offset (deviceEntriesOffset blockType) length).1 ⟨false, false⟩
    rw [walkDeviceEntries_eq, visitAll, Effect.bind_of_ok visited, Effect.ofExcept_apply, walked]
    exact ⟨final, rfl⟩

theorem readWhen_ok {Value : Type} {condition : Prop} [Decidable condition]
    {read : Parse IvrsError Value} (found : condition → ∃ value, read = .ok value) :
    ∃ value, readWhen condition read = .ok value := by
  rw [readWhen]
  split
  · next holds =>
    obtain ⟨value, same⟩ := found holds
    rw [same]
    exact ⟨some value, rfl⟩
  · exact ⟨none, rfl⟩

theorem parseIvhd_ok (fits : offset + length ≤ table.sdt.length) {blockType : UInt8}
    (known : ivhdMinLength blockType = .ok (deviceEntriesOffset blockType))
    (enough : deviceEntriesOffset blockType ≤ length)
    (walked : (deviceEntries table offset (deviceEntriesOffset blockType) length).2 = .ok ())
    (mapped : fieldLE table.sdt (offset + 8) 8 + AMD_VI_REGISTER_WINDOW_SIZE < limit) :
    ∃ parsed, parseIvhd table offset length blockType = .ok parsed := by
  obtain ⟨least, extended⟩ := fixed_length blockType
  obtain ⟨flags, flagged⟩ := entryFlags_ok walked
  have feature : ∃ value, readWhen (blockType = IVHD_TYPE_10H)
      (table.readU32 offset IVHD_10H_FEATURE_OFFSET) = .ok value := by
    apply readWhen_ok
    intro _
    exact ⟨_, readU32_inside (by rw [IVHD_10H_FEATURE_OFFSET]; omega)⟩
  have efr : ∃ value, readWhen (blockType = IVHD_TYPE_11H ∨ blockType = IVHD_TYPE_40H)
      (table.readU64 offset IVHD_11H_EFR_OFFSET) = .ok value := by
    apply readWhen_ok
    intro either
    have long := extended either
    exact ⟨_, readU64_inside (by rw [IVHD_11H_EFR_OFFSET]; omega)⟩
  obtain ⟨feature, featured⟩ := feature
  obtain ⟨efr, reported⟩ := efr
  refine Parse.exists_bind known ?_
  rw [if_neg (Nat.not_lt_of_le enough)]
  refine Parse.exists_bind flagged ?_
  refine Parse.exists_bind (readU8_inside (by rw [IVHD_FLAGS_OFFSET]; omega)) ?_
  refine Parse.exists_bind (readU16_inside (by rw [IVHD_CAP_OFFSET]; omega)) ?_
  refine Parse.exists_bind (readU64_inside (by rw [IVHD_BASE_ADDR_OFFSET]; omega)) ?_
  rw [mmioRegisterWindow_eq, dif_pos (by
    rw [IVHD_BASE_ADDR_OFFSET, UInt64.toNat_ofNat_of_lt' (fieldLE_lt _ _ 8)]
    exact mapped)]
  refine Parse.exists_bind rfl ?_
  refine Parse.exists_bind (readU16_inside (by rw [IVHD_SEGMENT_OFFSET]; omega)) ?_
  refine Parse.exists_bind (readU16_inside (by rw [IVHD_DEVICE_ID_OFFSET]; omega)) ?_
  refine Parse.exists_bind (readU16_inside (by rw [IVHD_INFO_OFFSET]; omega)) ?_
  exact Parse.exists_bind featured (Parse.exists_bind reported ⟨_, rfl⟩)

theorem deviceEntries_laidOut (unit : AmdIvhd) (holds : HoldsAt table.sdt offset unit.bytes) :
    deviceEntries table offset (deviceEntriesOffset unit.blockType) unit.length =
      untilFailure (unit.entries.map AmdDeviceEntry.misread) := by
  have fits := holds.inside
  rw [unit.bytes_length] at fits
  have entries := holds.split.2
  rw [unit.fixed_length] at entries
  exact transcript_entries fits unit.entries entries rfl (by omega)

theorem entries_survive_iff (entries : List AmdDeviceEntry) :
    untilFailure (entries.map AmdDeviceEntry.misread) =
        (entries.map AmdDeviceEntry.reported, .ok ()) ↔ ∀ entry ∈ entries, entry.Survives := by
  rw [untilFailure_eq_ok, List.map_map, List.map_inj_left]
  exact forall_congr' fun entry => imp_congr_right fun _ => entry.misread_eq_iff

theorem parseBlock_ivhd (unit : AmdIvhd) (holds : HoldsAt table.sdt offset unit.bytes) :
    (∃ parsed, parseBlock table offset unit.length unit.blockType = .ok (.ivhd parsed) ∧
      table.entriesOf parsed = (unit.entries.map AmdDeviceEntry.reported, .ok ())) ↔
    ∀ entry ∈ unit.entries, entry.Survives := by
  have fits := holds.inside
  rw [unit.bytes_length] at fits
  have laid := deviceEntries_laidOut unit holds
  have parse : parseBlock table offset unit.length unit.blockType =
      .ivhd <$> parseIvhd table offset unit.length unit.blockType := if_pos unit.known
  rw [← entries_survive_iff, ← laid, parse]
  constructor
  · rintro ⟨parsed, success, entries⟩
    obtain ⟨_, found, same⟩ := Parse.map_eq_ok.mp success
    cases same
    obtain ⟨kind, start, size, _⟩ := parseIvhd_region _ _ found
    rw [entriesOf, kind, start, size] at entries
    exact entries
  · intro entries
    have least : 24 ≤ unit.bytes.length := (AmdBlock.bytes_length (.ivhd unit)).1
    have base := holds.fieldLE_eq (Nat.le_trans (by decide : 8 + 8 ≤ 24) least)
    have mapped : fieldLE table.sdt (offset + 8) 8 + AMD_VI_REGISTER_WINDOW_SIZE < limit := by
      have laidBase : window unit.bytes 8 8 = Memory.toBytesLE 8 unit.base.toNat := rfl
      have small : unit.base.toNat < 256 ^ 8 := unit.base.toNat_lt
      rw [base, laidBase, Memory.ofBytesLE_toBytesLE_of_lt small]
      exact unit.mapped
    have known : ivhdMinLength unit.blockType = .ok (deviceEntriesOffset unit.blockType) := by
      rcases unit.known with ten | eleven | forty
      · rw [ten]
        rfl
      · rw [eleven]
        rfl
      · rw [forty]
        rfl
    obtain ⟨parsed, success⟩ := parseIvhd_ok fits known (Nat.le_add_right _ _)
      (congrArg Prod.snd entries) mapped
    refine ⟨parsed, Parse.map_eq_ok.mpr ⟨parsed, success, rfl⟩, ?_⟩
    obtain ⟨kind, start, size, _⟩ := parseIvhd_region _ _ success
    rw [entriesOf, kind, start, size]
    exact entries

/-- What is taken for the start of a region is zero, and for its length the start; a length of zero is
refused. -/
theorem parseIvmd_misplaced (memory : AmdIvmd) (holds : HoldsAt table.sdt offset memory.bytes) :
    (parseIvmd table offset 32 memory.ivmdType).Ensures fun parsed =>
      parsed.memory.start = 0 ∧ parsed.memory.endAddr = memory.start.toNat ∧ memory.start.toNat ≠ 0 := by
  have length : memory.bytes.length = 32 := rfl
  have start : table.readU64 offset IVMD_START_ADDR_OFFSET = .ok 0 := by
    have laid : window memory.bytes 8 8 = List.replicate 8 0 := rfl
    rw [IVMD_START_ADDR_OFFSET, readU64_held holds (by omega), laid]
    rfl
  have size : table.readU64 offset IVMD_MEM_LENGTH_OFFSET = .ok memory.start := by
    have laid : window memory.bytes 16 8 = Memory.toBytesLE 8 memory.start.toNat := rfl
    rw [IVMD_MEM_LENGTH_OFFSET, readU64_held holds (by omega), laid, Memory.word64_bytes]
  refine .ite (fun _ => .fail _) fun _ => ?_
  refine .bind fun flags _ => .bind fun deviceId _ => .bind fun auxDeviceId _ => ?_
  rw [start, Parse.ok_bind, size, Parse.ok_bind]
  refine .bind fun found range => .pure ?_
  rw [physRangeFromStartSize_eq] at range
  split at range
  · next bounded =>
    cases range
    exact ⟨rfl, Nat.zero_add _, bounded.1⟩
  · exact absurd ⟨_, range⟩ malformed_ne_ok

theorem parseBlock_ivmd (memory : AmdIvmd) (holds : HoldsAt table.sdt offset memory.bytes) :
    parseBlock table offset 32 memory.ivmdType ≠ .ok (.ivmd memory.reported) := by
  have other : ¬(memory.ivmdType = IVHD_TYPE_10H ∨ memory.ivmdType = IVHD_TYPE_11H ∨
      memory.ivmdType = IVHD_TYPE_40H) := by
    rcases memory.known with every | specified | range
    · rw [every]
      decide
    · rw [specified]
      decide
    · rw [range]
      decide
  rw [parseBlock, if_neg other, if_pos memory.known]
  intro success
  obtain ⟨parsed, found, same⟩ := Parse.map_eq_ok.mp success
  cases same
  obtain ⟨starts, _, filled⟩ := parseIvmd_misplaced memory holds _ found
  exact filled starts

theorem block_parsed (block : AmdBlock) (holds : HoldsAt table.sdt offset block.bytes) :
    ∃ outcome, parseBlock table offset block.bytes.length block.kind = outcome.mapError .failed ∧
      (block.Yields table outcome ↔ block.Survives) := by
  obtain ⟨outcome, parsed⟩ := (parseBlock_within holds.inside block.kind).returns.outcome
  refine ⟨outcome, parsed, ?_⟩
  have success : ∀ block, outcome = .ok block ↔ outcome.mapError Stop.failed = .ok block := by
    intro block
    cases outcome <;> simp [Except.mapError]
  cases block with
  | ivhd unit =>
      simp only [AmdBlock.Yields, AmdBlock.Survives, success, ← parsed, AmdBlock.kind, AmdBlock.bytes,
        unit.bytes_length]
      exact parseBlock_ivhd unit holds
  | ivmd memory =>
      simp only [AmdBlock.Yields, AmdBlock.Survives, success, ← parsed, iff_false]
      exact parseBlock_ivmd memory holds

theorem blocks_drained (blocks : List AmdBlock) {rounds : Nat}
    (holds : HoldsAt table.sdt offset (blocks.flatMap AmdBlock.bytes))
    (whole : offset + (blocks.flatMap AmdBlock.bytes).length = table.sdt.length)
    (enough : table.sdt.length - offset < rounds) :
    ∃ items, drain table.nextBlock rounds offset = .ok items ∧
      List.Forall₂ (fun block outcome => block.Yields table outcome ↔ block.Survives) blocks items := by
  induction blocks generalizing offset rounds with
  | nil =>
      obtain ⟨fewer, rfl⟩ : ∃ fewer, rounds = fewer + 1 := ⟨rounds - 1, by omega⟩
      exact ⟨[], drain_done (Framing.next_done (Nat.le_of_eq whole.symm)), .nil⟩
  | cons block rest ih =>
      rw [List.flatMap_cons] at holds whole
      rw [List.length_append, ← Nat.add_assoc] at whole
      obtain ⟨first, others⟩ := holds.split
      obtain ⟨fewer, rfl⟩ : ∃ fewer, rounds = fewer + 1 := ⟨rounds - 1, by omega⟩
      obtain ⟨kind, size⟩ := block_header block first
      have least := block.bytes_length.1
      have left : table.sdt.length - (offset + block.bytes.length) < fewer := by omega
      obtain ⟨items, drained, yields⟩ := ih others whole left
      obtain ⟨outcome, parsed, yielded⟩ := block_parsed block first
      have ran := Framing.next_frames (block_frames block first) table.framing_readable
      rw [kind, size, show table.framing.parse = table.parseBlock from rfl, parsed] at ran
      refine ⟨outcome :: items, ?_, .cons yielded yields⟩
      cases outcome with
      | ok item => exact drain_item ran drained
      | error failure => exact drain_failed ran drained

theorem parse_laidOut {validate : SdtValidation} {image : AmdTable}
    (accepted : parse validate image.bytes = .ok table) : table.sdt = image.bytes := by
  have short := image.short
  have self := HoldsAt.self image.bytes
  obtain ⟨headed, _⟩ := self.split.1.split
  have declared := headed.split.2.fieldLE_eq (Nat.le_of_eq (Nat.zero_add 4) : 0 + 4 ≤ 4)
  have sized : fieldLE image.bytes 4 4 = 48 + (image.blocks.flatMap AmdBlock.bytes).length := by
    have small : 48 + (image.blocks.flatMap AmdBlock.bytes).length < 256 ^ 4 := short
    exact declared.trans (Memory.ofBytesLE_toBytesLE_of_lt small)
  have length : image.bytes.length = 48 + (image.blocks.flatMap AmdBlock.bytes).length := by
    have fixed := image.whole
    have signature : IVRS.signature.length = 4 := rfl
    simp only [AmdTable.bytes, List.length_append, Memory.toBytesLE_length, fixed, signature]
  rw [(FirmwareTable.parse_ok accepted).1, sized, ← length]
  exact self.same

end IvrsTable

/-- A table that is laid out as specified parses to its blocks exactly when they hold no region of
memory, and only device entries whose fields are the same one byte off. -/
theorem ivrs_round_trip_iff (validate : SdtValidation) (image : AmdTable) (table : IvrsTable)
    (accepted : IvrsTable.parse validate image.bytes = .ok table) :
    table.RoundTrips image.blocks ↔ ∀ block ∈ image.blocks, block.Survives := by
  have sdt := IvrsTable.parse_laidOut accepted
  obtain ⟨headed, laid⟩ := (HoldsAt.self image.bytes).split
  have start : (IVRS.signature ++ Memory.toBytesLE 4
      (48 + (image.blocks.flatMap AmdBlock.bytes).length) ++ image.header).length = 48 := by
    have fixed := image.whole
    have signature : IVRS.signature.length = 4 := rfl
    simp only [List.length_append, Memory.toBytesLE_length, fixed, signature]
  rw [Nat.zero_add, start, ← sdt] at laid
  have whole : IVRS_BLOCKS_OFFSET + (image.blocks.flatMap AmdBlock.bytes).length =
      table.sdt.length := by
    rw [sdt, AmdTable.bytes, List.length_append, start]
    rfl
  obtain ⟨items, drained, yields⟩ := IvrsTable.blocks_drained image.blocks laid whole
    (Nat.lt_succ_of_le (Nat.sub_le _ _))
  rw [← forall₂_iff_forall yields]
  constructor
  · rintro ⟨others, same, found⟩
    obtain rfl := Except.ok.inj (drained.symm.trans same)
    exact found
  · intro found
    exact ⟨items, drained, found⟩

def amdSelectUnit (deviceId : Bdf) (dataSetting : UInt8) : AmdIvhd where
  blockType := IVHD_TYPE_10H
  flags := 0
  deviceId := ⟨0x0002⟩
  capabilityOffset := 0x40
  base := 0xfed80000
  segment := 0
  info := 0
  feature := 0
  efr := 0
  secondEfr := 0
  entries := [.select deviceId dataSetting]
  known := Or.inl rfl
  mapped := by decide
  short := show 24 + 4 < 2 ^ 16 by decide

def amdSelect (deviceId : Bdf) (dataSetting : UInt8) : AmdTable where
  header := List.replicate 40 0
  blocks := [.ivhd (amdSelectUnit deviceId dataSetting)]
  whole := rfl
  short := show 48 + 28 < 2 ^ 32 by decide

theorem ivrs_round_trip_iff_same_bytes : ∃ table : IvrsTable,
    IvrsTable.parse (fun _ => .ok ()) (amdSelect ⟨0x0101⟩ 1).bytes = .ok table ∧
      table.RoundTrips (amdSelect ⟨0x0101⟩ 1).blocks := by
  refine ⟨⟨(amdSelect ⟨0x0101⟩ 1).bytes, by decide, by decide⟩, rfl, ?_⟩
  apply (ivrs_round_trip_iff (fun _ => .ok ()) (amdSelect ⟨0x0101⟩ 1) _ rfl).mpr
  rintro _ (_ | ⟨_, ⟨⟩⟩) _ (_ | ⟨_, ⟨⟩⟩)
  exact ⟨rfl, rfl⟩

/-- The entry for 02:02.0 is taken for one of 00:00.2 that has settings. -/
theorem amd_select_misread : ∃ (table : IvrsTable) (unit : Ivhd),
    IvrsTable.parse (fun _ => .ok ()) (amdSelect ⟨0x0210⟩ 0).bytes = .ok table ∧
      table.blocks = .ok [.ok (.ivhd unit)] ∧
      table.entriesOf unit = ([.select ⟨0x0002⟩ 0x10], .ok ()) ∧
      ¬table.RoundTrips (amdSelect ⟨0x0210⟩ 0).blocks := by
  let unit : Ivhd := {
    blockType := IVHD_TYPE_10H
    flags := 0
    registers := .fromStartSize 0xfed80000 0x4000 (by decide)
    device := .fromSegmentBdf 0 ⟨0x0002⟩
    capabilityOffset := 0x40
    iommuInfo := 0
    featureInfo := some 0
    efr := none
    includeAll := false
    hasDeviceScopes := true
    blockOffset := 48
    length := 28
  }
  let table : IvrsTable := ⟨(amdSelect ⟨0x0210⟩ 0).bytes, by decide, by decide⟩
  have parsed : table.blocks = .ok [.ok (.ivhd unit)] := by decide +kernel
  have entries : table.entriesOf unit = ([.select ⟨0x0002⟩ 0x10], .ok ()) := by decide +kernel
  refine ⟨table, unit, rfl, parsed, entries, ?_⟩
  rintro ⟨items, same, yields⟩
  obtain rfl := Except.ok.inj (parsed.symm.trans same)
  obtain ⟨⟨_, found, reported⟩, _⟩ := List.forall₂_cons.mp yields
  cases found
  rw [entries] at reported
  exact absurd reported (by decide)

end Iommu
