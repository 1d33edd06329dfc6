import Iommu.Dmar.Layout
import Iommu.Firmware.LaidOut

/-!
A DMAR table that is laid out as specified parses to exactly what it means: every structure, with
its fields, and every device scope behind it, in the order of the table.
-/

namespace Iommu

open MachineWord FirmwareTable

namespace VtdScope

theorem pathBytes_length (scope : VtdScope) : scope.pathBytes.length = 2 * scope.path.length := by
  rw [pathBytes]
  induction scope.path with
  | nil => rfl
  | cons entry rest ih =>
      simp only [List.flatMap_cons, List.length_append, ih, List.length_cons, List.length_nil]
      omega

theorem bytes_length (scope : VtdScope) : scope.bytes.length = 6 + 2 * scope.path.length := by
  rw [bytes, List.length_append, pathBytes_length]
  rfl

theorem declares (scope : VtdScope) : ScopeEntry scope.bytes := by
  have length := scope.bytes_length
  have short := scope.short
  refine ⟨by omega, ?_⟩
  have field : scopeLength scope.bytes 0 =
      Memory.ofBytesLE [UInt8.ofNat (6 + 2 * scope.path.length)] := rfl
  rw [field, length]
  simp only [Memory.ofBytesLE]
  rw [UInt8.toNat_ofNat_of_lt' short]
  omega

theorem wellFormed (scope : VtdScope) : WellFormed scope.bytes := by
  have length := scope.bytes_length
  rw [WellFormed, DEVICE_SCOPE_HEADER_LENGTH, length]
  omega

theorem singleRequester_eq (scope : VtdScope) :
    ((⟨scope.pathBytes⟩ : DmarDeviceScopePath).singleRequester scope.startBus).toOption.map
      BdfRange.single = scope.requester := by
  have length := scope.pathBytes_length
  rw [DmarDeviceScopePath.singleRequester, DmarDeviceScopePath.depth, requester]
  split
  · rename_i other
    split
    · rename_i entry single
      rw [single] at length
      simp [length] at other
    · rfl
  · rename_i one
    have steps : scope.pathBytes.length / 2 = 1 := not_not.mp one
    obtain ⟨entry, single⟩ : ∃ entry, scope.path = [entry] := by
      apply List.length_eq_one_iff.mp
      omega
    have bytes : scope.pathBytes = [entry.device, entry.function] := by
      rw [pathBytes, single]
      rfl
    have first : (⟨scope.pathBytes⟩ : DmarDeviceScopePath).entry 0 = some entry := by
      rw [bytes]
      rfl
    rw [first, single]
    dsimp only
    cases Bdf.new scope.startBus entry.device entry.function with
    | error error => rfl
    | ok bdf => rfl

theorem entryScope_bytes (scope : VtdScope) : entryScope scope.bytes = scope.reported := by
  have path : window scope.bytes 6 (scope.bytes.length - 6) = scope.pathBytes := by
    have behind : scope.bytes.drop 6 = scope.pathBytes := rfl
    have size := scope.pathBytes_length
    rw [window, behind, List.take_of_length_le]
    rw [bytes_length]
    omega
  have kind : UInt8.ofNat (fieldLE scope.bytes 0 1) = scope.kind := Memory.byte_bytes scope.kind
  have flags : UInt8.ofNat (fieldLE scope.bytes 2 1) = scope.flags := Memory.byte_bytes scope.flags
  have enumerationId : UInt8.ofNat (fieldLE scope.bytes 4 1) = scope.enumerationId :=
    Memory.byte_bytes scope.enumerationId
  have startBus : UInt8.ofNat (fieldLE scope.bytes 5 1) = scope.startBus :=
    Memory.byte_bytes scope.startBus
  simp only [entryScope, scopeIn, Nat.zero_add]
  rw [path, kind, flags, enumerationId, startBus, singleRequester_eq]
  rfl

end VtdScope

namespace VtdStructure

theorem length_eq (found : VtdStructure) : found.bytes.length = found.length := by
  simp only [bytes, length, List.length_append, Memory.toBytesLE_length]

end VtdStructure

namespace DmarTable

variable {table : DmarTable} {offset : Nat}

theorem deviceScopes_laidOut {scopes : List VtdScope} {fixed size : Nat}
    (fits : offset + size ≤ table.sdt.length)
    (holds : HoldsAt table.sdt (offset + fixed) (scopes.flatMap VtdScope.bytes))
    (whole : fixed + (scopes.flatMap VtdScope.bytes).length = size) :
    table.deviceScopes offset fixed size = (scopes.map VtdScope.reported, .ok ()) := by
  have flattened : (scopes.map VtdScope.bytes).flatten = scopes.flatMap VtdScope.bytes :=
    List.flatMap_def.symm
  have declared : ∀ entry ∈ scopes.map VtdScope.bytes, ScopeEntry entry :=
    List.forall_mem_map.mpr fun scope _ => scope.declares
  have formed : ∀ entry ∈ scopes.map VtdScope.bytes, WellFormed entry :=
    List.forall_mem_map.mpr fun scope _ => scope.wellFormed
  have few := entries_le declared
  rw [flattened] at few
  obtain ⟨rounds, enough⟩ : ∃ rounds, size + 1 = (scopes.map VtdScope.bytes).length + (rounds + 1) :=
    ⟨size - (scopes.map VtdScope.bytes).length, by omega⟩
  rw [← flattened] at holds whole
  rw [deviceScopes, enough, transcript_entries fits declared formed holds (Nat.le_of_eq whole)]
  dsimp only
  rw [whole, transcript_done (scopeRound_done (Nat.le_refl size)), List.append_nil, List.map_map]
  simp only [Function.comp_def, VtdScope.entryScope_bytes]

theorem hasDeviceScopes_eq (scopes : List VtdScope) (fixed : Nat) :
    decide (fixed < fixed + (scopes.flatMap VtdScope.bytes).length) = decide (scopes ≠ []) := by
  cases scopes with
  | nil => simp
  | cons scope rest =>
      have first := scope.bytes_length
      rw [decide_eq_decide, List.flatMap_cons, List.length_append]
      exact iff_of_true (by omega) (List.cons_ne_nil _ _)

theorem parseDrhd_laidOut
    {flags size : UInt8} {segment : UInt16} {base : RegisterBase} {scopes : List VtdScope}
    (holds : HoldsAt table.sdt offset (VtdStructure.drhd flags size segment base scopes).bytes) :
    .drhd <$> table.parseDrhd offset (VtdStructure.drhd flags size segment base scopes).length =
      .ok ((VtdStructure.drhd flags size segment base scopes).reported offset) := by
  have flagged := readU8_laid holds (rfl : window _ 4 1 = [flags])
  have segmented := readU16_laid holds (rfl : window _ 6 2 = Memory.toBytesLE 2 segment.toNat)
  have based := readU64_laid holds (rfl : window _ 8 8 = Memory.toBytesLE 8 base.1.toNat)
  have enough : ¬(VtdStructure.drhd flags size segment base scopes).length < DRHD_MIN_LENGTH :=
    Nat.not_lt_of_le (Nat.le_add_right DRHD_MIN_LENGTH _)
  rw [parseDrhd, if_neg enough, flagged, Parse.ok_bind, segmented,
    Parse.ok_bind, based, Parse.ok_bind, mmioRegisterWindow_eq, dif_pos base.2, Parse.ok_bind,
    VtdStructure.reported]
  simp only [← hasDeviceScopes_eq scopes DRHD_MIN_LENGTH]
  rfl

theorem parseRmrr_laidOut
    {segment : UInt16} {memory : ReservedMemory} {scopes : List VtdScope}
    (holds : HoldsAt table.sdt offset (VtdStructure.rmrr segment memory scopes).bytes) :
    .rmrr <$> table.parseRmrr offset (VtdStructure.rmrr segment memory scopes).length =
      .ok ((VtdStructure.rmrr segment memory scopes).reported offset) := by
  have based := readU64_laid holds (rfl : window _ 8 8 = Memory.toBytesLE 8 memory.base.toNat)
  have ended := readU64_laid holds (rfl : window _ 16 8 = Memory.toBytesLE 8 memory.last.toNat)
  have segmented := readU16_laid holds (rfl : window _ 6 2 = Memory.toBytesLE 2 segment.toNat)
  have enough : ¬(VtdStructure.rmrr segment memory scopes).length < RMRR_MIN_LENGTH :=
    Nat.not_lt_of_le (Nat.le_add_right RMRR_MIN_LENGTH _)
  have ordered : ¬memory.last < memory.base :=
    UInt64.not_lt.mpr (UInt64.le_iff_toNat_le.mpr memory.ordered)
  rw [parseRmrr, if_neg enough, based, Parse.ok_bind, ended,
    Parse.ok_bind, if_neg ordered, segmented, Parse.ok_bind,
    inclusivePhysRange_of_le memory.ordered, dif_pos memory.mapped, Parse.ok_bind,
    VtdStructure.reported]
  simp only [← hasDeviceScopes_eq scopes RMRR_MIN_LENGTH]
  rfl

theorem parseAtsr_laidOut
    {flags : UInt8} {segment : UInt16} {scopes : List VtdScope}
    (holds : HoldsAt table.sdt offset (VtdStructure.atsr flags segment scopes).bytes) :
    .atsr <$> table.parseAtsr offset (VtdStructure.atsr flags segment scopes).length =
      .ok ((VtdStructure.atsr flags segment scopes).reported offset) := by
  have flagged := readU8_laid holds (rfl : window _ 4 1 = [flags])
  have segmented := readU16_laid holds (rfl : window _ 6 2 = Memory.toBytesLE 2 segment.toNat)
  have enough : ¬(VtdStructure.atsr flags segment scopes).length < ATSR_MIN_LENGTH :=
    Nat.not_lt_of_le (Nat.le_add_right ATSR_MIN_LENGTH _)
  rw [parseAtsr, if_neg enough, flagged, Parse.ok_bind, segmented,
    Parse.ok_bind, VtdStructure.reported]
  simp only [← hasDeviceScopes_eq scopes ATSR_MIN_LENGTH]
  rfl

theorem parseRhsa_laidOut
    {base : RegisterBase} {proximityDomain : UInt32}
    (holds : HoldsAt table.sdt offset (VtdStructure.rhsa base proximityDomain).bytes) :
    .rhsa <$> table.parseRhsa offset (VtdStructure.rhsa base proximityDomain).length =
      .ok ((VtdStructure.rhsa base proximityDomain).reported offset) := by
  have based := readU64_laid holds (rfl : window _ 8 8 = Memory.toBytesLE 8 base.1.toNat)
  have near := readU32_laid holds
    (rfl : window _ 16 4 = Memory.toBytesLE 4 proximityDomain.toNat)
  have enough : ¬(VtdStructure.rhsa base proximityDomain).length < RHSA_MIN_LENGTH :=
    Nat.not_lt_of_le (Nat.le_add_right RHSA_MIN_LENGTH _)
  rw [parseRhsa, if_neg enough, based, Parse.ok_bind,
    mmioRegisterWindow_eq, dif_pos base.2, Parse.ok_bind, near, Parse.ok_bind]
  rfl

theorem parseAndd_laidOut
    {acpiDeviceNumber : UInt8} {objectName : List UInt8}
    (holds : HoldsAt table.sdt offset (VtdStructure.andd acpiDeviceNumber objectName).bytes) :
    .andd <$> table.parseAndd offset (VtdStructure.andd acpiDeviceNumber objectName).length =
      .ok ((VtdStructure.andd acpiDeviceNumber objectName).reported offset) := by
  have numbered := readU8_laid holds (rfl : window _ 7 1 = [acpiDeviceNumber])
  have enough : ¬(VtdStructure.andd acpiDeviceNumber objectName).length < ANDD_MIN_LENGTH :=
    Nat.not_lt_of_le (Nat.le_add_right ANDD_MIN_LENGTH _)
  have inside := holds.inside
  rw [VtdStructure.length_eq] at inside
  have named : (sliceOf table.sdt (offset + ANDD_MIN_LENGTH)
      (offset + (VtdStructure.andd acpiDeviceNumber objectName).length) :
        Parse DmarError (List UInt8)) = .ok objectName := by
    have length : (VtdStructure.andd acpiDeviceNumber objectName).length =
        ANDD_MIN_LENGTH + objectName.length := rfl
    have behind : HoldsAt table.sdt (offset + ANDD_MIN_LENGTH) objectName := holds.split.2
    rw [sliceOf_inside (by omega) inside, length, Nat.add_sub_add_left, Nat.add_sub_cancel_left,
      behind.same]
  have fixed : (Parse.sum offset ANDD_MIN_LENGTH : Parse DmarError Nat) =
      .ok (offset + ANDD_MIN_LENGTH) :=
    sum_inside (show offset + ANDD_MIN_LENGTH ≤ table.sdt.length by omega)
  rw [parseAndd, if_neg enough, numbered, Parse.ok_bind, fixed, Parse.ok_bind, sum_inside inside,
    Parse.ok_bind, named, Parse.ok_bind]
  rfl

theorem parseSatc_laidOut
    {flags : UInt8} {segment : UInt16} {scopes : List VtdScope}
    (holds : HoldsAt table.sdt offset (VtdStructure.satc flags segment scopes).bytes) :
    .satc <$> table.parseSatc offset (VtdStructure.satc flags segment scopes).length =
      .ok ((VtdStructure.satc flags segment scopes).reported offset) := by
  have flagged := readU8_laid holds (rfl : window _ 4 1 = [flags])
  have segmented := readU16_laid holds (rfl : window _ 6 2 = Memory.toBytesLE 2 segment.toNat)
  have enough : ¬(VtdStructure.satc flags segment scopes).length < SATC_MIN_LENGTH :=
    Nat.not_lt_of_le (Nat.le_add_right SATC_MIN_LENGTH _)
  rw [parseSatc, if_neg enough, flagged, Parse.ok_bind, segmented,
    Parse.ok_bind, VtdStructure.reported]
  simp only [← hasDeviceScopes_eq scopes SATC_MIN_LENGTH]
  rfl

theorem parseSidp_laidOut
    {segment : UInt16} {scopes : List VtdScope}
    (holds : HoldsAt table.sdt offset (VtdStructure.sidp segment scopes).bytes) :
    .sidp <$> table.parseSidp offset (VtdStructure.sidp segment scopes).length =
      .ok ((VtdStructure.sidp segment scopes).reported offset) := by
  have segmented := readU16_laid holds (rfl : window _ 6 2 = Memory.toBytesLE 2 segment.toNat)
  have enough : ¬(VtdStructure.sidp segment scopes).length < SIDP_MIN_LENGTH :=
    Nat.not_lt_of_le (Nat.le_add_right SIDP_MIN_LENGTH _)
  rw [parseSidp, if_neg enough, segmented, Parse.ok_bind,
    VtdStructure.reported]
  simp only [← hasDeviceScopes_eq scopes SIDP_MIN_LENGTH]
  rfl

theorem parseStructure_laidOut (found : VtdStructure) (holds : HoldsAt table.sdt offset found.bytes) :
    table.parseStructure offset found.length found.kind = .ok (found.reported offset) := by
  cases found with
  | drhd flags size segment base scopes => exact parseDrhd_laidOut holds
  | rmrr segment memory scopes => exact parseRmrr_laidOut holds
  | atsr flags segment scopes => exact parseAtsr_laidOut holds
  | rhsa base proximityDomain => exact parseRhsa_laidOut holds
  | andd acpiDeviceNumber objectName => exact parseAndd_laidOut holds
  | satc flags segment scopes => exact parseSatc_laidOut holds
  | sidp segment scopes => exact parseSidp_laidOut holds
  | other kind body =>
      have unknown : ∀ known : UInt16, known.toNat ≤ 6 → kind.1 ≠ known := by
        rintro known low same
        exact absurd kind.2 (Nat.not_lt_of_le (same ▸ low))
      rw [VtdStructure.kind, parseStructure, if_neg (unknown DMAR_DRHD (by decide)),
        if_neg (unknown DMAR_RMRR (by decide)), if_neg (unknown DMAR_ATSR (by decide)),
        if_neg (unknown DMAR_RHSA (by decide)), if_neg (unknown DMAR_ANDD (by decide)),
        if_neg (unknown DMAR_SATC (by decide)), if_neg (unknown DMAR_SIDP (by decide))]
      rfl

theorem structure_header (found : VtdStructure) (holds : HoldsAt table.sdt offset found.bytes)
    (fits : found.length < 2 ^ 16) :
    table.kindOf offset = found.kind ∧ table.framing.declared offset = found.length := by
  have least : 4 ≤ found.bytes.length := by
    rw [found.length_eq, VtdStructure.length]
    omega
  have kind := holds.fieldLE_eq (show 0 + 2 ≤ found.bytes.length by omega)
  have size := holds.fieldLE_eq (show 2 + 2 ≤ found.bytes.length by omega)
  rw [Nat.add_zero] at kind
  have laidKind : window found.bytes 0 2 = Memory.toBytesLE 2 found.kind.toNat := rfl
  have laidSize : window found.bytes 2 2 = Memory.toBytesLE 2 found.length := rfl
  have small : found.length < 256 ^ 2 := fits
  constructor
  · rw [kindOf, kind, laidKind, word16_bytes]
  · rw [laidSize, Memory.ofBytesLE_toBytesLE_of_lt small] at size
    exact size

theorem structure_frames (found : VtdStructure) (holds : HoldsAt table.sdt offset found.bytes)
    (fits : found.length < 2 ^ 16) : table.framing.Frames offset := by
  have inside := holds.inside
  rw [found.length_eq] at inside
  rw [Framing.Frames, (structure_header found holds fits).2]
  refine ⟨?_, inside⟩
  rw [VtdStructure.length]
  omega

theorem structures_drained (meant : List VtdStructure) {rounds : Nat}
    (fits : ∀ found ∈ meant, found.length < 2 ^ 16)
    (holds : HoldsAt table.sdt offset (meant.flatMap VtdStructure.bytes))
    (whole : offset + (meant.flatMap VtdStructure.bytes).length = table.sdt.length)
    (enough : table.sdt.length - offset < rounds) :
    drain table.nextStructure rounds offset =
      .ok ((VtdStructure.placed offset meant).map fun placed =>
        .ok (placed.2.reported placed.1)) := by
  induction meant generalizing offset rounds with
  | nil =>
      obtain ⟨fewer, rfl⟩ : ∃ fewer, rounds = fewer + 1 := ⟨rounds - 1, by omega⟩
      exact drain_done (Framing.next_done (Nat.le_of_eq whole.symm))
  | cons found rest ih =>
      obtain ⟨own, others⟩ := List.forall_mem_cons.mp fits
      rw [List.flatMap_cons] at holds whole
      rw [List.length_append, ← Nat.add_assoc, found.length_eq] at whole
      obtain ⟨first, later⟩ := holds.split
      rw [found.length_eq] at later
      obtain ⟨fewer, rfl⟩ : ∃ fewer, rounds = fewer + 1 := ⟨rounds - 1, by omega⟩
      obtain ⟨kind, size⟩ := structure_header found first own
      have frames := structure_frames found first own
      have large := frames.1
      rw [size] at large
      have drained := ih others later whole (show _ < fewer by omega)
      have ran := Framing.next_frames frames table.framing_readable
      rw [kind, size, show table.framing.parse = table.parseStructure from rfl,
        parseStructure_laidOut found first] at ran
      exact drain_item ran drained

theorem placed_holds {meant : List VtdStructure}
    (holds : HoldsAt table.sdt offset (meant.flatMap VtdStructure.bytes)) {placed : Nat × VtdStructure}
    (member : placed ∈ VtdStructure.placed offset meant) :
    HoldsAt table.sdt placed.1 placed.2.bytes := by
  induction meant generalizing offset with
  | nil => cases member
  | cons found rest ih =>
      rw [List.flatMap_cons] at holds
      obtain ⟨first, later⟩ := holds.split
      rw [found.length_eq] at later
      rcases List.mem_cons.mp member with rfl | among
      · exact first
      · exact ih later among

theorem scopeRegion_reported {found : VtdStructure} {region : Nat × Nat × Nat}
    (located : (found.reported offset).scopeRegion = some region) :
    region = (offset, 4 + found.fixed.length, found.length) ∧
      found.behind = found.scopes.flatMap VtdScope.bytes := by
  cases found with
  | drhd flags size segment base scopes => exact ⟨(Option.some.inj located).symm, rfl⟩
  | rmrr segment memory scopes => exact ⟨(Option.some.inj located).symm, rfl⟩
  | atsr flags segment scopes => exact ⟨(Option.some.inj located).symm, rfl⟩
  | rhsa base proximityDomain => cases located
  | andd acpiDeviceNumber objectName => cases located
  | satc flags segment scopes => exact ⟨(Option.some.inj located).symm, rfl⟩
  | sidp segment scopes => exact ⟨(Option.some.inj located).symm, rfl⟩
  | other kind body => cases located

theorem scopes_laidOut {found : VtdStructure} (holds : HoldsAt table.sdt offset found.bytes)
    {region : Nat × Nat × Nat} (located : (found.reported offset).scopeRegion = some region) :
    table.deviceScopes region.1 region.2.1 region.2.2 =
      (found.scopes.map VtdScope.reported, .ok ()) := by
  obtain ⟨rfl, behind⟩ := scopeRegion_reported located
  have inside := holds.inside
  rw [found.length_eq] at inside
  have scopes := holds.split.2
  simp only [List.length_append, Memory.toBytesLE_length] at scopes
  rw [behind] at scopes
  apply deviceScopes_laidOut inside scopes
  rw [VtdStructure.length, behind]

theorem structures_roundTrip {meant : List VtdStructure} (fits : ∀ found ∈ meant, found.length < 2 ^ 16)
    (laid : HoldsAt table.sdt DMAR_STRUCTURES_OFFSET (meant.flatMap VtdStructure.bytes))
    (whole : DMAR_STRUCTURES_OFFSET + (meant.flatMap VtdStructure.bytes).length = table.sdt.length) :
    table.RoundTrips meant := by
  constructor
  · exact structures_drained meant fits laid whole (Nat.lt_succ_of_le (Nat.sub_le _ _))
  · intro placed member region located
    exact scopes_laidOut (placed_holds laid member) located

theorem parse_laidOut {validate : SdtValidation} {image : VtdTable}
    (accepted : parse validate image.bytes = .ok table) : table.sdt = image.bytes := by
  have short := image.short
  have whole := image.whole
  have signature : DMAR.signature.length = 4 := rfl
  have bytes : image.bytes = DMAR.signature ++ Memory.toBytesLE 4
      (48 + (image.structures.flatMap VtdStructure.bytes).length) ++
        (image.header ++ image.structures.flatMap VtdStructure.bytes) := List.append_assoc _ _ _
  rw [bytes] at accepted ⊢
  refine FirmwareTable.sdt_laidOut rfl short ?_ accepted
  simp only [List.length_append, Memory.toBytesLE_length, whole, signature]
  omega

theorem structures_held {validate : SdtValidation} {image : VtdTable}
    (accepted : parse validate image.bytes = .ok table) :
    HoldsAt table.sdt DMAR_STRUCTURES_OFFSET (image.structures.flatMap VtdStructure.bytes) ∧
      DMAR_STRUCTURES_OFFSET + (image.structures.flatMap VtdStructure.bytes).length =
        table.sdt.length := by
  have sdt := parse_laidOut accepted
  have start : (DMAR.signature ++ Memory.toBytesLE 4
      (48 + (image.structures.flatMap VtdStructure.bytes).length) ++ image.header).length =
      DMAR_STRUCTURES_OFFSET := by
    have fixed := image.whole
    have signature : DMAR.signature.length = 4 := rfl
    simp only [List.length_append, Memory.toBytesLE_length, fixed, signature]
    rfl
  have laid := (HoldsAt.self image.bytes).split.2
  rw [Nat.zero_add, start, ← sdt] at laid
  refine ⟨laid, ?_⟩
  rw [sdt, VtdTable.bytes, List.length_append, start]

end DmarTable

/-- Whatever a table is to say of units, reserved memory, root ports, affinity, namespace devices and
integrated devices, and whatever unknown structures it has: laid out as specified, it parses to that. -/
theorem dmar_round_trip (validate : SdtValidation) (image : VtdTable) (table : DmarTable)
    (accepted : DmarTable.parse validate image.bytes = .ok table) :
    table.RoundTrips image.structures := by
  obtain ⟨laid, whole⟩ := DmarTable.structures_held accepted
  exact DmarTable.structures_roundTrip image.fits laid whole

def vtdSample : VtdTable where
  header := List.replicate 40 1
  structures := [
    .drhd 0 0 0 ⟨0xfed90000, by decide⟩ [⟨DEVICE_SCOPE_ENDPOINT, 0, 0, 0, [⟨0x1f, 2⟩], by decide⟩],
    .rmrr 0 ⟨0x7d000000, 0x7f7fffff, by decide, by decide⟩
      [⟨DEVICE_SCOPE_ENDPOINT, 0, 0, 0, [⟨0x1c, 0⟩, ⟨0, 0⟩], by decide⟩],
    .other ⟨7, by decide⟩ [1, 2, 3, 4]]
  whole := rfl
  fits := by decide
  short := by decide

theorem dmar_round_trip_sample : ∃ table : DmarTable,
    DmarTable.parse (fun _ => .ok ()) vtdSample.bytes = .ok table ∧
      table.RoundTrips vtdSample.structures :=
  ⟨⟨vtdSample.bytes, by decide, by decide⟩, rfl, dmar_round_trip (fun _ => .ok ()) vtdSample _ rfl⟩

end Iommu
