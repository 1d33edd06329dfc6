import Iommu.Ivrs.Pairing

/-!
Reserved entries among the device entries of a block. The walk takes every type it does not
interpret for four bytes, so the second half of a longer one is read as an entry.
-/

namespace Iommu

open MachineWord FirmwareTable

def isUninterpreted (entryType : UInt8) : Bool :=
  0x04 < entryType && entryType < 0xf0 && !decide (entryType ∈ [0x42, 0x43, 0x46, 0x47, 0x48])

def Whole (entry : List UInt8) : Prop :=
  ∃ raw, rawRound entry = .ok (.next (some raw) (.ok []))

section Locality

variable {bytes rest : List UInt8} {entryType : UInt8} {size : Nat}

theorem window_append_left {offset count : Nat} (within : offset + count ≤ bytes.length) :
    window (bytes ++ rest) offset count = window bytes offset count := by
  have held : HoldsAt (bytes ++ rest) 0 bytes := by
    refine ⟨?_, ?_⟩
    · rw [List.length_append]
      omega
    · rw [window, List.drop_zero, List.take_left]
  rw [← held.window_eq within, Nat.zero_add]

theorem entryLength_append (sized : entryLength bytes entryType = .ok (some size)) :
    entryLength (bytes ++ rest) entryType = .ok (some size) := by
  rw [entryLength] at sized ⊢
  split at sized
  · next small => rw [if_pos small, sized]
  · next large =>
    rw [if_neg large]
    split at sized
    · next listed => rw [if_pos listed, sized]
    · next other =>
      rw [if_neg other]
      split at sized
      · next named =>
        have least : DEVENTRY_ACPI_NAMED_MIN_LENGTH = 22 := rfl
        split at sized
        · exact absurd ⟨_, sized⟩ malformed_ne_ok
        · next long =>
          rw [if_pos named, if_neg (by rw [List.length_append]; omega), fieldLE,
            window_append_left (by omega), ← fieldLE, sized]
      · next unnamed => rw [if_neg unnamed, sized]

theorem rawEntry_append (whole : size ≤ bytes.length) (least : 4 ≤ size)
    (large : entryType ∈ [0x42, 0x43, 0x46, 0x47, 0x48] → size = 8)
    (named : entryType = DEVENTRY_ACPI_NAMED → DEVENTRY_ACPI_NAMED_MIN_LENGTH ≤ size) :
    rawEntry (bytes ++ rest) entryType size = rawEntry bytes entryType size := by
  have field : ∀ {offset count}, offset + count ≤ size →
      fieldLE (bytes ++ rest) offset count = fieldLE bytes offset count := by
    intro offset count within
    rw [fieldLE, fieldLE, window_append_left (by omega)]
  have device : entryDevice (bytes ++ rest) entryType = entryDevice bytes entryType := by
    rw [entryDevice, entryDevice, field (by split <;> omega)]
  have setting : entrySetting (bytes ++ rest) entryType = entrySetting bytes entryType := by
    rw [entrySetting, entrySetting, field (by split <;> omega)]
  have source : size = 8 → entrySource (bytes ++ rest) = entrySource bytes := by
    intro eight
    rw [entrySource, entrySource, field (by omega)]
  have extended : size = 8 → entryExtended (bytes ++ rest) = entryExtended bytes := by
    intro eight
    rw [entryExtended, entryExtended, field (by omega)]
  have minimum : DEVENTRY_ACPI_NAMED_MIN_LENGTH = 22 := rfl
  rw [rawEntry, rawEntry, device, setting]
  refine ite_congr rfl (fun _ => rfl) fun _ => ?_
  refine ite_congr rfl (fun _ => rfl) fun _ => ?_
  refine ite_congr rfl (fun _ => rfl) fun _ => ?_
  refine ite_congr rfl (fun _ => rfl) fun _ => ?_
  refine ite_congr rfl (fun alias_start => ?_) fun _ => ?_
  · rw [source (large (by rw [alias_start]; decide))]
  refine ite_congr rfl (fun extended_start => ?_) fun _ => ?_
  · rw [extended (large (by rw [extended_start]; decide))]
  refine ite_congr rfl (fun _ => rfl) fun _ => ?_
  refine ite_congr rfl (fun alias_select => ?_) fun _ => ?_
  · rw [source (large (by rw [alias_select]; decide))]
  refine ite_congr rfl (fun extended_select => ?_) fun _ => ?_
  · rw [extended (large (by rw [extended_select]; decide))]
  refine ite_congr rfl (fun special => ?_) fun _ => ?_
  · rw [source (large (by rw [special]; decide))]
  refine ite_congr rfl (fun acpi => ?_) fun _ => rfl
  have enough := named acpi
  rw [field (by omega), field (by omega), field (by omega), window_append_left (by omega)]

theorem rawRound_append {raw : RawEntry} (whole : rawRound bytes = .ok (.next (some raw) (.ok []))) :
    rawRound (bytes ++ rest) = .ok (.next (some raw) (.ok rest)) := by
  obtain ⟨entryType, others, size, rfl, sized, inside, same, left⟩ := rawRound_next whole
  obtain rfl := Option.some.inj same
  obtain ⟨least, large, named⟩ := entryLength_ok sized
  have ends : (entryType :: others).length ≤ size := List.drop_eq_nil_iff.mp (Except.ok.inj left).symm
  have sameSize : (entryType :: others).length = size := Nat.le_antisymm ends inside
  have longer : size ≤ (entryType :: others ++ rest).length := by
    rw [List.length_append]
    omega
  have read : rawEntry (entryType :: others ++ rest) entryType size = _ :=
    rawEntry_append inside least large named
  have sizedLonger : entryLength (entryType :: others ++ rest) entryType = _ := entryLength_append sized
  rw [List.cons_append] at read sizedLonger longer
  rw [List.cons_append, rawRound, sizedLonger, Parse.ok_bind]
  dsimp only
  rw [if_neg (Nat.not_lt_of_le longer), read, ← List.cons_append, ← sameSize, List.drop_left]
  rfl

end Locality

section Insertion

variable {entries : List (List UInt8)} {rest : List UInt8}

theorem rawEntries_whole (whole : ∀ entry ∈ entries, Whole entry) :
    ∃ raws, ∀ rest, rawEntries (entries.flatten ++ rest) =
      (raws ++ (rawEntries rest).1, (rawEntries rest).2) := by
  induction entries with
  | nil => exact ⟨[], fun rest => rfl⟩
  | cons entry others ih =>
      obtain ⟨raw, ran⟩ := whole entry (List.mem_cons_self ..)
      obtain ⟨raws, read⟩ := ih fun other member => whole other (List.mem_cons_of_mem _ member)
      refine ⟨raw :: raws, fun rest => ?_⟩
      rw [List.flatten_cons, List.append_assoc, rawEntries_next (rawRound_append ran), read]
      rfl

theorem rawRound_uninterpreted {entryType first second third : UInt8}
    (passed : isUninterpreted entryType = true) :
    rawRound (entryType :: first :: second :: third :: rest) =
      .ok (.next (some (.other none)) (.ok rest)) := by
  simp only [isUninterpreted, Bool.and_eq_true, decide_eq_true_eq, Bool.not_eq_true',
    decide_eq_false_iff_not] at passed
  obtain ⟨⟨low, high⟩, unlisted⟩ := passed
  have unequal : ∀ other : UInt8, isUninterpreted other = false → entryType ≠ other := by
    rintro other interpreted rfl
    simp [isUninterpreted, low, high, unlisted] at interpreted
  have size : entryLength (entryType :: first :: second :: third :: rest) entryType = .ok (some 4) := by
    rw [entryLength, if_neg (UInt8.not_le.mpr low), if_neg unlisted, if_neg (unequal _ rfl)]
    rw [if_neg]
    rw [UInt8.not_le]
    exact UInt8.lt_trans high (by decide)
  have read : rawEntry (entryType :: first :: second :: third :: rest) entryType 4 = .other none := by
    rw [rawEntry, if_neg (unequal DEVENTRY_PAD rfl), if_neg (unequal DEVENTRY_ALL rfl),
      if_neg (unequal DEVENTRY_SELECT rfl), if_neg (unequal DEVENTRY_RANGE_START rfl),
      if_neg (unequal DEVENTRY_ALIAS_RANGE_START rfl), if_neg (unequal DEVENTRY_EXTENDED_RANGE_START rfl),
      if_neg (unequal DEVENTRY_RANGE_END rfl), if_neg (unequal DEVENTRY_ALIAS_SELECT rfl),
      if_neg (unequal DEVENTRY_EXTENDED_SELECT rfl), if_neg (unequal DEVENTRY_SPECIAL rfl),
      if_neg (unequal DEVENTRY_ACPI_NAMED rfl)]
  rw [rawRound, size, Parse.ok_bind]
  dsimp only
  rw [if_neg (by simp), read]
  rfl

theorem pairUp_other_none (outcome : Parse IvrsError Unit) (before after : List RawEntry)
    (pending : Option PendingIvhdRange) :
    pairUp outcome (before ++ .other none :: after) pending = pairUp outcome (before ++ after) pending := by
  induction before generalizing pending with
  | nil => rfl
  | cons raw rest ih =>
      rw [List.cons_append, List.cons_append, pairUp, pairUp]
      cases raw.pair pending with
      | error stop => rfl
      | ok read => simp only [ih]

end Insertion

/-- A reserved entry of a type below 80h: of four bytes, or from type 40h on of eight. -/
structure ReservedEntry where
  entryType : UInt8
  payload : List UInt8
  small : entryType < 0x80
  reserved : isUninterpreted entryType = true
  whole : payload.length = if entryType < 0x40 then 3 else 7

namespace ReservedEntry

def bytes (entry : ReservedEntry) : List UInt8 := entry.entryType :: entry.payload

/-- A block walks alike with the entry between two of its entries and without it. -/
def Harmless (entry : ReservedEntry) : Prop :=
  ∀ (table other : IvrsTable) (offset length otherOffset otherLength : Nat) (blockType : UInt8),
    offset + length ≤ table.sdt.length → otherOffset + otherLength ≤ other.sdt.length →
    ∀ (before : List (List UInt8)) (after tail : List UInt8), before ≠ [] →
      (∀ part ∈ before, Whole part) → Whole after →
      table.entryBytes offset length blockType = before.flatten ++ (after ++ tail) →
      other.entryBytes otherOffset otherLength blockType =
        before.flatten ++ (entry.bytes ++ (after ++ tail)) →
      other.deviceEntries otherOffset (deviceEntriesOffset blockType) otherLength =
        table.deviceEntries offset (deviceEntriesOffset blockType) length

theorem rawEntries_bytes {entry : ReservedEntry}
    (passed : ∀ second, entry.bytes[4]? = some second → isUninterpreted second = true)
    (rest : List UInt8) : ∃ halves : List RawEntry, (∀ half ∈ halves, half = .other none) ∧
      rawEntries (entry.bytes ++ rest) = (halves ++ (rawEntries rest).1, (rawEntries rest).2) := by
  obtain ⟨entryType, payload, small, reserved, whole⟩ := entry
  have first : ∀ one two three behind, rawEntries (entryType :: one :: two :: three :: behind) =
      (.other none :: (rawEntries behind).1, (rawEntries behind).2) :=
    fun one two three behind => rawEntries_next (rawRound_uninterpreted reserved)
  split at whole
  · match payload, whole with
    | [one, two, three], _ => exact ⟨[.other none], by simp, first one two three rest⟩
  · match payload, whole with
    | [one, two, three, second, five, six, seven], _ =>
        have later : rawEntries (second :: five :: six :: seven :: rest) = _ :=
          rawEntries_next (rawRound_uninterpreted (passed second rfl))
        have both := first one two three (second :: five :: six :: seven :: rest)
        rw [later] at both
        exact ⟨[.other none, .other none], by simp, both⟩

theorem pairUp_halves {outcome : Parse IvrsError Unit} {halves : List RawEntry}
    (nothing : ∀ half ∈ halves, half = .other none) (before after : List RawEntry)
    (pending : Option PendingIvhdRange) :
    pairUp outcome (before ++ (halves ++ after)) pending = pairUp outcome (before ++ after) pending := by
  induction halves with
  | nil => rfl
  | cons half others ih =>
      obtain rfl := nothing half (List.mem_cons_self ..)
      rw [List.cons_append, pairUp_other_none]
      exact ih fun other member => nothing other (List.mem_cons_of_mem _ member)

theorem harmless_of_passed {entry : ReservedEntry}
    (passed : ∀ second, entry.bytes[4]? = some second → isUninterpreted second = true) :
    entry.Harmless := by
  intro table other offset length otherOffset otherLength blockType fits otherFits before after tail _
    whole _ content inserted
  obtain ⟨raws, read⟩ := rawEntries_whole whole
  obtain ⟨halves, nothing, skipped⟩ := rawEntries_bytes passed (after ++ tail)
  rw [IvrsTable.deviceEntries_walkBytes fits, IvrsTable.deviceEntries_walkBytes otherFits, content,
    inserted, walkBytes, walkBytes, read, read, skipped, pairUp_halves nothing]

end ReservedEntry

def ivrsOfBytes (entries : List UInt8) : List UInt8 :=
  IVRS.signature ++ [.ofNat (72 + entries.length), 0, 0, 0] ++ List.replicate 40 0 ++
    [0x10, 0, .ofNat (24 + entries.length), 0, 0, 1, 0x40, 0, 0, 0, 0xd8, 0xfe, 0, 0, 0, 0,
      2, 0, 0, 0, 0, 0, 0, 0] ++ entries

theorem ivrsOfBytes_length (entries : List UInt8) :
    (ivrsOfBytes entries).length = 72 + entries.length := by
  simp [ivrsOfBytes, IVRS]
  omega

theorem ivrsOfBytes_long (entries : List UInt8) : IVRS.fixed ≤ (ivrsOfBytes entries).length := by
  rw [ivrsOfBytes_length]
  exact Nat.le_add_right_of_le (by decide)

theorem ivrsOfBytes_short (entries : List UInt8) (small : entries.length < 128) :
    (ivrsOfBytes entries).length < 2 ^ 32 := by
  rw [ivrsOfBytes_length]
  omega

def ivrsOf (entries : List UInt8) (small : entries.length < 128) : IvrsTable :=
  ⟨ivrsOfBytes entries, ivrsOfBytes_long entries, ivrsOfBytes_short entries small⟩

theorem ivrsOf_fits (entries : List UInt8) (small : entries.length < 128) :
    48 + (24 + entries.length) ≤ (ivrsOf entries small).sdt.length := by
  rw [ivrsOf, ivrsOfBytes_length]
  omega

theorem ivrsOf_entryBytes (entries : List UInt8) (small : entries.length < 128) :
    (ivrsOf entries small).entryBytes 48 (24 + entries.length) IVHD_TYPE_10H = entries := by
  have fixed : deviceEntriesOffset IVHD_TYPE_10H = 24 := rfl
  have content : (ivrsOf entries small).sdt = ivrsOfBytes entries := rfl
  rw [IvrsTable.entryBytes, fixed, Nat.add_sub_cancel_left, window, content, ivrsOfBytes,
    List.drop_left' (by simp [IVRS]), List.take_length]

theorem ivrsOf_walk (entries : List UInt8) (small : entries.length < 128) :
    (ivrsOf entries small).deviceEntries 48 (deviceEntriesOffset IVHD_TYPE_10H) (24 + entries.length) =
      walkBytes entries := by
  rw [IvrsTable.deviceEntries_walkBytes (ivrsOf_fits entries small), ivrsOf_entryBytes]

namespace ReservedEntry

variable {entry : ReservedEntry} {first second : RawEntry} {before after : List UInt8}

theorem bytes_length_le (entry : ReservedEntry) : entry.bytes.length ≤ 8 := by
  have whole := entry.whole
  rw [bytes, List.length_cons]
  split at whole <;> omega

theorem Harmless.walks (harmless : entry.Harmless)
    (front : rawRound before = .ok (.next (some first) (.ok [])))
    (back : rawRound after = .ok (.next (some second) (.ok [])))
    (short : before.length ≤ 8) (shortAfter : after.length ≤ 8) :
    walkBytes (before ++ (entry.bytes ++ after)) = walkBytes (before ++ after) := by
  have reservedShort := entry.bytes_length_le
  have small : (before ++ after).length < 128 := by
    rw [List.length_append]
    omega
  have smallInserted : (before ++ (entry.bytes ++ after)).length < 128 := by
    rw [List.length_append, List.length_append]
    omega
  rw [← ivrsOf_walk _ small, ← ivrsOf_walk _ smallInserted]
  apply harmless _ _ _ _ _ _ _ (ivrsOf_fits _ small) (ivrsOf_fits _ smallInserted) [before] after []
    (List.cons_ne_nil _ _)
  · rintro _ (_ | ⟨_, ⟨⟩⟩)
    exact ⟨first, front⟩
  · exact ⟨second, back⟩
  · rw [ivrsOf_entryBytes, List.flatten_singleton, List.append_nil]
  · rw [ivrsOf_entryBytes, List.flatten_singleton, List.append_nil]

theorem walk_front (front : rawRound before = .ok (.next (some first) (.ok []))) (rest : List UInt8) :
    walkBytes (before ++ rest) = pairUp (rawEntries rest).2 (first :: (rawEntries rest).1) none := by
  rw [walkBytes, rawEntries_next (rawRound_append front)]

theorem Harmless.halves {one two three half five six seven : UInt8} (harmless : entry.Harmless)
    (long : entry.payload = [one, two, three, half, five, six, seven])
    (front : rawRound before = .ok (.next (some first) (.ok [])))
    (back : rawRound after = .ok (.next (some second) (.ok [])))
    (short : before.length ≤ 8) (shortAfter : after.length ≤ 8) :
    pairUp (rawEntries (half :: five :: six :: seven :: after)).2
        (first :: (rawEntries (half :: five :: six :: seven :: after)).1) none =
      pairUp (rawEntries after).2 (first :: (rawEntries after).1) none := by
  have walks := harmless.walks front back short shortAfter
  have inner : rawEntries (entry.bytes ++ after) =
      (.other none :: (rawEntries (half :: five :: six :: seven :: after)).1,
        (rawEntries (half :: five :: six :: seven :: after)).2) := by
    rw [bytes, long]
    exact rawEntries_next (rawRound_uninterpreted entry.reserved)
  rw [walk_front front, walk_front front, inner] at walks
  exact (pairUp_other_none _ [first] _ none).symm.trans walks

end ReservedEntry

theorem interpreted_cases {entryType : UInt8} (interpreted : isUninterpreted entryType = false) :
    entryType ∈ [0x00, 0x01, 0x02, 0x03, 0x04] ∨ entryType ∈ [0x42, 0x43, 0x46, 0x47, 0x48] ∨
      entryType = DEVENTRY_ACPI_NAMED ∨ 0xf1 ≤ entryType := by
  by_cases listed : entryType ∈ [0x42, 0x43, 0x46, 0x47, 0x48]
  · exact Or.inr (Or.inl listed)
  have outside : entryType.toNat ≤ 4 ∨ 0xf0 ≤ entryType.toNat := by
    simp only [isUninterpreted, listed, decide_false, Bool.not_false, Bool.and_true, Bool.and_eq_false_iff,
      decide_eq_false_iff_not, UInt8.not_lt, UInt8.le_iff_toNat_le] at interpreted
    exact interpreted
  rcases outside with low | high
  · left
    simp only [List.mem_cons, List.not_mem_nil, or_false, ← UInt8.toNat_inj]
    change entryType.toNat = 0 ∨ entryType.toNat = 1 ∨ entryType.toNat = 2 ∨ entryType.toNat = 3 ∨
      entryType.toNat = 4
    omega
  · right; right
    rw [UInt8.le_iff_toNat_le, ← UInt8.toNat_inj]
    change entryType.toNat = 0xf0 ∨ 0xf1 ≤ entryType.toNat
    omega

theorem rawRound_last {entryType : UInt8} {rest : List UInt8} (last : 0xf1 ≤ entryType) :
    rawRound (entryType :: rest) = .ok .done := by
  have unequal : ∀ other : UInt8, other < 0xf1 → entryType ≠ other := by
    rintro other small rfl
    exact absurd small (UInt8.not_lt.mpr last)
  have low : ¬entryType ≤ 0x04 := by
    rw [UInt8.not_le]
    exact UInt8.lt_of_lt_of_le (by decide) last
  have unlisted : entryType ∉ [0x42, 0x43, 0x46, 0x47, 0x48] := by
    simp only [List.mem_cons, List.not_mem_nil, or_false, not_or]
    exact ⟨unequal _ (by decide), unequal _ (by decide), unequal _ (by decide), unequal _ (by decide),
      unequal _ (by decide)⟩
  rw [rawRound, entryLength, if_neg low, if_neg unlisted, if_neg (unequal _ (by decide)), if_pos last]
  rfl

theorem rawEntries_lone_end : rawEntries [4, 0, 0xff, 0xff] = ([.stop ⟨0xffff⟩], .ok ()) := rfl

theorem half_disturbs {half five six seven : UInt8} (interpreted : isUninterpreted half = false)
    (same : ∀ before after first second, rawRound before = .ok (.next (some first) (.ok [])) →
      rawRound after = .ok (.next (some second) (.ok [])) → before.length ≤ 8 → after.length ≤ 8 →
      pairUp (rawEntries (half :: five :: six :: seven :: after)).2
          (first :: (rawEntries (half :: five :: six :: seven :: after)).1) none =
        pairUp (rawEntries after).2 (first :: (rawEntries after).1) none) : False := by
  have pads := same [0, 0, 0, 0] [0, 0, 0, 0] (.other (some .pad)) (.other (some .pad)) rfl rfl
    (by decide) (by decide)
  rcases interpreted_cases interpreted with low | eight | rfl | last
  · simp only [List.mem_cons, List.not_mem_nil, or_false] at low
    rcases low with rfl | rfl | rfl | rfl | rfl
    · cases pads
    · cases pads
    · cases pads
    · -- A start: an end behind it, which closes nothing on its own, now closes a range.
      have ends := same [0, 0, 0, 0] [4, 0, 0xff, 0xff] (.other (some .pad)) (.stop ⟨0xffff⟩) rfl rfl
        (by decide) (by decide)
      obtain ⟨pending, read⟩ : ∃ pending, rawEntries [0x03, five, six, seven, 4, 0, 0xff, 0xff] =
          ([.start pending, .stop ⟨0xffff⟩], .ok ()) := ⟨_, rfl⟩
      rw [read] at ends
      by_cases reversed : (0xffff : UInt16) < pending.start.raw
      · simp [pairUp, RawEntry.pair, reversed, rawEntries_lone_end, malformed, Parse.fail] at ends
      · simp [pairUp, RawEntry.pair, reversed, rawEntries_lone_end] at ends
    · -- An end: a start before it is closed there, and not by its own end behind.
      obtain ⟨last, ran⟩ : ∃ last, rawRound [0x04, five, six, seven] =
          .ok (.next (some (.stop last)) (.ok [])) := ⟨_, rfl⟩
      have closes : ∀ bytes other, rawRound bytes = .ok (.next (some (.stop other)) (.ok [])) →
          bytes.length ≤ 8 → rawEntries bytes = ([.stop other], .ok ()) → last = other := by
        intro bytes other closing short read
        have range := same [3, 0, 0, 0] bytes (.start ⟨⟨0⟩, .plain, 0⟩) (.stop other) rfl closing
          (by decide) short
        have both : rawEntries (0x04 :: five :: six :: seven :: bytes) =
            (.stop last :: (rawEntries bytes).1, (rawEntries bytes).2) :=
          rawEntries_next (rawRound_append ran)
        rw [both, read] at range
        simpa [pairUp, RawEntry.pair, PendingIvhdRange.ending] using range
      have zero := closes [4, 0, 0, 0] ⟨0⟩ rfl (by decide) rfl
      have one := closes [4, 0, 1, 0] ⟨1⟩ rfl (by decide) rfl
      rw [zero] at one
      cases one
  · simp only [List.mem_cons, List.not_mem_nil, or_false] at eight
    rcases eight with rfl | rfl | rfl | rfl | rfl <;> cases pads
  · cases pads
  · have ended : ∀ rest, rawEntries (half :: rest) = ([], .ok ()) :=
      fun rest => transcript_done (rawRound_last last)
    rw [ended] at pads
    cases pads

/-- A reserved entry is harmless just where it is of four bytes, or its second half has a type that is
passed over as well. -/
theorem reserved_harmless_iff (entry : ReservedEntry) :
    entry.Harmless ↔
      entry.entryType < 0x40 ∨ ∃ half, entry.bytes[4]? = some half ∧ isUninterpreted half = true := by
  by_cases small : entry.entryType < 0x40
  · have whole := entry.whole
    rw [if_pos small] at whole
    have short : entry.bytes[4]? = none := by
      rw [List.getElem?_eq_none_iff, ReservedEntry.bytes, List.length_cons, whole]
    refine iff_of_true (ReservedEntry.harmless_of_passed ?_) (Or.inl small)
    intro half found
    rw [short] at found
    cases found
  · have whole := entry.whole
    rw [if_neg small] at whole
    match long : entry.payload, whole with
    | [one, two, three, half, five, six, seven], _ =>
        have second : entry.bytes[4]? = some half := by
          rw [ReservedEntry.bytes, long]
          rfl
        rw [or_iff_right small, second]
        constructor
        · intro harmless
          refine ⟨half, rfl, ?_⟩
          by_contra interpreted
          rw [Bool.not_eq_true] at interpreted
          exact half_disturbs interpreted fun before after first second front back short shortAfter =>
            harmless.halves long front back short shortAfter
        · rintro ⟨_, ⟨⟩, passed⟩
          apply ReservedEntry.harmless_of_passed
          intro other found
          rw [second] at found
          cases found
          exact passed

def reservedAll : ReservedEntry where
  entryType := 0x40
  payload := [0, 0, 0, 1, 0, 0, 0]
  small := by decide
  reserved := by decide
  whole := by decide

def twoSelects : IvrsTable := ivrsOf [2, 0, 8, 0, 2, 0, 0x10, 0] (by decide)

def twoSelectsApart : IvrsTable := ivrsOf ([2, 0, 8, 0] ++ (reservedAll.bytes ++ [2, 0, 0x10, 0])) (by decide)

theorem reserved_entry_read :
    (∃ unit, twoSelects.blocks = .ok [.ok (.ivhd unit)] ∧ unit.includeAll = false ∧
      twoSelects.entriesOf unit = ([.select ⟨8⟩ 0, .select ⟨0x10⟩ 0], .ok ())) ∧
    (∃ unit, twoSelectsApart.blocks = .ok [.ok (.ivhd unit)] ∧ unit.includeAll = true ∧
      twoSelectsApart.entriesOf unit = ([.select ⟨8⟩ 0, .all 0, .select ⟨0x10⟩ 0], .ok ())) ∧
    ¬reservedAll.Harmless := by
  refine ⟨⟨_, rfl, rfl, rfl⟩, ⟨_, rfl, rfl, rfl⟩, fun harmless => ?_⟩
  have walks : walkBytes ([2, 0, 8, 0] ++ (reservedAll.bytes ++ [2, 0, 0x10, 0])) =
      walkBytes ([2, 0, 8, 0] ++ [2, 0, 0x10, 0]) := harmless.walks rfl rfl (by decide) (by decide)
  cases walks

end Iommu
