import Iommu.Dmar.Scopes

/-!
Every DMAR table can be gone through: its structures tile it up to a framing failure,
each is read from its own bytes, and what fails is known beforehand.
-/

namespace Iommu

open MachineWord FirmwareTable

theorem inclusivePhysRange_of_le {base last : UInt64} (ordered : base.toNat ≤ last.toNat)
    (addrError limitError : String) :
    inclusivePhysRange base last addrError limitError =
      if bounded : last.toNat + 1 < limit then
        .ok ⟨base.toNat, last.toNat + 1, Nat.le_succ_of_le ordered, bounded⟩
      else malformed limitError := by
  rw [inclusivePhysRange, usizeTryFrom_eq]
  dsimp only
  split
  · next overflow =>
    rw [dif_neg]
    intro bounded
    rw [checkedAdd_of_lt bounded] at overflow
    simp at overflow
  · next endAddr sum =>
    obtain ⟨bounded, rfl⟩ := checkedAdd_eq_some.mp sum
    rw [dif_pos bounded, usizeTryFrom_eq]
    dsimp only
    rw [UInt64.toNat_ofNat_of_lt' bounded, AddrRange.new, dif_pos ⟨Nat.le_succ_of_le ordered, bounded⟩]

theorem inclusivePhysRange_returns {base last : UInt64} (ordered : base.toNat ≤ last.toNat)
    (addrError limitError : String) :
    (inclusivePhysRange base last addrError limitError).Returns := by
  rw [inclusivePhysRange_of_le ordered]
  split
  · exact .ok _
  · exact .fail _

namespace DmarTable

variable {table : DmarTable} {offset length : Nat}

theorem parseDrhd_fixed (fits : offset + DRHD_MIN_LENGTH ≤ table.sdt.length) (length : Nat) :
    ReadsWithin offset (offset + DRHD_MIN_LENGTH) table fun table =>
      parseDrhd table offset length := by
  apply ReadsWithin.ite
  · intro short
    exact .malformed _
  · intro enough
    rw [DRHD_MIN_LENGTH] at fits ⊢
    apply ReadsWithin.bind (.readU8 (by omega) (by omega) fits)
    intro flags _
    apply ReadsWithin.bind (.readU16 (by omega) (by omega) fits)
    intro segment _
    apply ReadsWithin.bind (.readU64 (by omega) (by omega) fits)
    intro base _
    apply ReadsWithin.bind (.constant (mmioRegisterWindow_returns _ _ _ _))
    intro registers _
    exact .pure _

theorem parseDrhd_within (fits : offset + length ≤ table.sdt.length) :
    ReadsWithin offset (offset + length) table fun table => parseDrhd table offset length := by
  by_cases short : length < DRHD_MIN_LENGTH
  · have refused : (fun table => parseDrhd table offset length) = fun _ =>
        malformed "DMAR DRHD structure shorter than minimum" := funext fun _ => if_pos short
    rw [refused]
    exact .malformed _
  · have enough : offset + DRHD_MIN_LENGTH ≤ offset + length := by omega
    exact (parseDrhd_fixed (Nat.le_trans enough fits) length).widen enough

theorem parseAndd_within (fits : offset + length ≤ table.sdt.length) :
    ReadsWithin offset (offset + length) table fun table => parseAndd table offset length := by
  apply ReadsWithin.ite
  · intro short
    exact .malformed _
  · intro enough
    rw [ANDD_MIN_LENGTH] at enough
    apply ReadsWithin.bind (.readU8 (by omega) (by omega) fits)
    intro number _
    rw [ANDD_MIN_LENGTH]
    have small := table.length_lt_limit
    apply ReadsWithin.afterSum (by omega)
    apply ReadsWithin.afterSum (by omega)
    apply ReadsWithin.bind (.sliced (by omega) (by omega) (by omega) fits)
    intro name _
    exact .pure _

theorem parseRmrr_within (fits : offset + length ≤ table.sdt.length) :
    ReadsWithin offset (offset + length) table fun table => parseRmrr table offset length := by
  apply ReadsWithin.ite
  · intro short
    exact .malformed _
  · intro enough
    rw [RMRR_MIN_LENGTH] at enough
    apply ReadsWithin.bind (.readU64 (by omega) (by omega) fits)
    intro base _
    apply ReadsWithin.bind (.readU64 (by omega) (by omega) fits)
    intro last _
    apply ReadsWithin.ite
    · intro reversed
      exact .malformed _
    · intro ordered
      apply ReadsWithin.bind (.readU16 (by omega) (by omega) fits)
      intro segment _
      have bounds := UInt64.le_iff_toNat_le.mp (UInt64.not_lt.mp ordered)
      apply ReadsWithin.bind (.constant (inclusivePhysRange_returns bounds _ _))
      intro memory _
      exact .pure _

theorem parseAtsr_within (fits : offset + length ≤ table.sdt.length) :
    ReadsWithin offset (offset + length) table fun table => parseAtsr table offset length := by
  apply ReadsWithin.ite
  · intro short
    exact .malformed _
  · intro enough
    rw [ATSR_MIN_LENGTH] at enough
    apply ReadsWithin.bind (.readU8 (by omega) (by omega) fits)
    intro flags _
    apply ReadsWithin.bind (.readU16 (by omega) (by omega) fits)
    intro segment _
    exact .pure _

theorem parseRhsa_within (fits : offset + length ≤ table.sdt.length) :
    ReadsWithin offset (offset + length) table fun table => parseRhsa table offset length := by
  apply ReadsWithin.ite
  · intro short
    exact .malformed _
  · intro enough
    rw [RHSA_MIN_LENGTH] at enough
    apply ReadsWithin.bind (.readU64 (by omega) (by omega) fits)
    intro base _
    apply ReadsWithin.bind (.constant (mmioRegisterWindow_returns _ _ _ _))
    intro registers _
    apply ReadsWithin.bind (.readU32 (by omega) (by omega) fits)
    intro proximityDomain _
    exact .pure _

theorem parseSatc_within (fits : offset + length ≤ table.sdt.length) :
    ReadsWithin offset (offset + length) table fun table => parseSatc table offset length := by
  apply ReadsWithin.ite
  · intro short
    exact .malformed _
  · intro enough
    rw [SATC_MIN_LENGTH] at enough
    apply ReadsWithin.bind (.readU8 (by omega) (by omega) fits)
    intro flags _
    apply ReadsWithin.bind (.readU16 (by omega) (by omega) fits)
    intro segment _
    exact .pure _

theorem parseSidp_within (fits : offset + length ≤ table.sdt.length) :
    ReadsWithin offset (offset + length) table fun table => parseSidp table offset length := by
  apply ReadsWithin.ite
  · intro short
    exact .malformed _
  · intro enough
    rw [SIDP_MIN_LENGTH] at enough
    apply ReadsWithin.bind (.readU16 (by omega) (by omega) fits)
    intro segment _
    exact .pure _

theorem parseStructure_within (fits : offset + length ≤ table.sdt.length) (kind : UInt16) :
    ReadsWithin offset (offset + length) table fun table =>
      parseStructure table offset length kind := by
  have mapped : ∀ {Value : Type} {parse : DmarTable → Parse DmarError Value}
      (construct : Value → DmarStructure), ReadsWithin offset (offset + length) table parse →
      ReadsWithin offset (offset + length) table fun table => construct <$> parse table := by
    intro Value parse construct within
    exact ReadsWithin.bind within fun _ _ => .pure _
  apply ReadsWithin.ite (fun _ => mapped .drhd (parseDrhd_within fits))
  intro _
  apply ReadsWithin.ite (fun _ => mapped .rmrr (parseRmrr_within fits))
  intro _
  apply ReadsWithin.ite (fun _ => mapped .atsr (parseAtsr_within fits))
  intro _
  apply ReadsWithin.ite (fun _ => mapped .rhsa (parseRhsa_within fits))
  intro _
  apply ReadsWithin.ite (fun _ => mapped .andd (parseAndd_within fits))
  intro _
  apply ReadsWithin.ite (fun _ => mapped .satc (parseSatc_within fits))
  intro _
  apply ReadsWithin.ite (fun _ => mapped .sidp (parseSidp_within fits))
  intro _
  exact .pure _

def minLength (kind : UInt16) : Nat :=
  if kind = DMAR_DRHD then DRHD_MIN_LENGTH
  else if kind = DMAR_RMRR then RMRR_MIN_LENGTH
  else if kind = DMAR_ATSR then ATSR_MIN_LENGTH
  else if kind = DMAR_RHSA then RHSA_MIN_LENGTH
  else if kind = DMAR_ANDD then ANDD_MIN_LENGTH
  else if kind = DMAR_SATC then SATC_MIN_LENGTH
  else if kind = DMAR_SIDP then SIDP_MIN_LENGTH
  else 0

/-- What is wrong with a structure that is not parsed. -/
def Faulty (table : DmarTable) (offset length : Nat) (kind : UInt16) : Prop :=
  length < minLength kind ∨
    (kind = DMAR_DRHD ∨ kind = DMAR_RHSA) ∧
      limit ≤ fieldLE table.sdt (offset + 8) 8 + VTD_REGISTER_WINDOW_SIZE ∨
    kind = DMAR_RMRR ∧
      (fieldLE table.sdt (offset + 16) 8 < fieldLE table.sdt (offset + 8) 8 ∨
        limit ≤ fieldLE table.sdt (offset + 16) 8 + 1)

theorem registers_ok_iff {base size : Nat} {addrError rangeError : String} (small : base < 2 ^ 64)
    {Value : Type} (finish : AddrRange → Parse DmarError Value)
    (finishes : ∀ range, ∃ value, finish range = .ok value) :
    (∃ value, (mmioRegisterWindow (.ofNat base) size addrError rangeError >>= finish) = .ok value) ↔
      base + size < limit := by
  rw [mmioRegisterWindow_eq, UInt64.toNat_ofNat_of_lt' small]
  split
  · next bounded => exact ⟨fun _ => bounded, fun _ => finishes _⟩
  · next overflow =>
    constructor
    · exact fun found => absurd found malformed_ne_ok
    · exact fun bounded => absurd bounded overflow

theorem parseDrhd_ok_iff (fits : offset + length ≤ table.sdt.length) :
    (∃ unit, parseDrhd table offset length = .ok unit) ↔
      DRHD_MIN_LENGTH ≤ length ∧
        fieldLE table.sdt (offset + 8) 8 + VTD_REGISTER_WINDOW_SIZE < limit := by
  by_cases enough : DRHD_MIN_LENGTH ≤ length
  · rw [parseDrhd, if_neg (Nat.not_lt_of_le enough)]
    rw [DRHD_MIN_LENGTH] at enough
    rw [readU8_inside (by omega), Parse.ok_bind, readU16_inside (by omega), Parse.ok_bind,
      readU64_inside (by omega), Parse.ok_bind, registers_ok_iff (fieldLE_lt _ _ 8)]
    · exact (and_iff_right enough).symm
    · intro registers
      exact ⟨_, rfl⟩
  · rw [parseDrhd, if_pos (Nat.lt_of_not_le enough)]
    exact ⟨fun found => absurd found malformed_ne_ok, fun both => absurd both.1 enough⟩

theorem parseRhsa_ok_iff (fits : offset + length ≤ table.sdt.length) :
    (∃ affinity, parseRhsa table offset length = .ok affinity) ↔
      RHSA_MIN_LENGTH ≤ length ∧
        fieldLE table.sdt (offset + 8) 8 + VTD_REGISTER_WINDOW_SIZE < limit := by
  by_cases enough : RHSA_MIN_LENGTH ≤ length
  · rw [parseRhsa, if_neg (Nat.not_lt_of_le enough)]
    rw [RHSA_MIN_LENGTH] at enough
    rw [readU64_inside (by omega), Parse.ok_bind, readU32_inside (by omega),
      registers_ok_iff (fieldLE_lt _ _ 8)]
    · exact (and_iff_right enough).symm
    · intro registers
      exact ⟨_, rfl⟩
  · rw [parseRhsa, if_pos (Nat.lt_of_not_le enough)]
    exact ⟨fun found => absurd found malformed_ne_ok, fun both => absurd both.1 enough⟩

theorem parseRmrr_ok_iff (fits : offset + length ≤ table.sdt.length) :
    (∃ region, parseRmrr table offset length = .ok region) ↔
      RMRR_MIN_LENGTH ≤ length ∧
        fieldLE table.sdt (offset + 8) 8 ≤ fieldLE table.sdt (offset + 16) 8 ∧
        fieldLE table.sdt (offset + 16) 8 + 1 < limit := by
  by_cases enough : RMRR_MIN_LENGTH ≤ length
  · have base := UInt64.toNat_ofNat_of_lt' (fieldLE_lt table.sdt (offset + 8) 8)
    have last := UInt64.toNat_ofNat_of_lt' (fieldLE_lt table.sdt (offset + 16) 8)
    rw [parseRmrr, if_neg (Nat.not_lt_of_le enough)]
    rw [RMRR_MIN_LENGTH] at enough
    rw [readU64_inside (by omega), Parse.ok_bind, readU64_inside (by omega), Parse.ok_bind]
    split
    · next reversed =>
      rw [UInt64.lt_iff_toNat_lt, base, last] at reversed
      constructor
      · exact fun found => absurd found malformed_ne_ok
      · exact fun all => absurd all.2.1 (Nat.not_le_of_lt reversed)
    · next ordered =>
      have le := UInt64.le_iff_toNat_le.mp (UInt64.not_lt.mp ordered)
      rw [base, last] at le
      rw [readU16_inside (by omega), Parse.ok_bind,
        inclusivePhysRange_of_le (UInt64.le_iff_toNat_le.mp (UInt64.not_lt.mp ordered))]
      split
      · next bounded => exact ⟨fun _ => ⟨enough, le, last ▸ bounded⟩, fun _ => ⟨_, rfl⟩⟩
      · next overflow =>
        constructor
        · exact fun found => absurd found malformed_ne_ok
        · intro all
          rw [last] at overflow
          exact absurd all.2.2 overflow
  · rw [parseRmrr, if_pos (Nat.lt_of_not_le enough)]
    exact ⟨fun found => absurd found malformed_ne_ok, fun all => absurd all.1 enough⟩

theorem length_ok_iff {Value : Type} {least : Nat} {message : String}
    {parse : Parse DmarError Value} (succeeds : least ≤ length → ∃ value, parse = .ok value) :
    (∃ value, (if length < least then malformed message else parse) = .ok value) ↔
      least ≤ length := by
  split
  · next short =>
    constructor
    · exact fun found => absurd found malformed_ne_ok
    · exact fun enough => absurd short (Nat.not_lt_of_le enough)
  · next enough => exact ⟨fun _ => Nat.le_of_not_lt enough, fun least => succeeds least⟩

theorem parseAtsr_ok_iff (fits : offset + length ≤ table.sdt.length) :
    (∃ unit, parseAtsr table offset length = .ok unit) ↔ ATSR_MIN_LENGTH ≤ length := by
  apply length_ok_iff
  intro enough
  rw [ATSR_MIN_LENGTH] at enough
  rw [readU8_inside (by omega), Parse.ok_bind, readU16_inside (by omega), Parse.ok_bind]
  exact ⟨_, rfl⟩

theorem parseAndd_ok_iff (fits : offset + length ≤ table.sdt.length) :
    (∃ device, parseAndd table offset length = .ok device) ↔ ANDD_MIN_LENGTH ≤ length := by
  apply length_ok_iff
  intro enough
  have name := Nat.le_trans (Nat.add_le_add_left enough offset) fits
  rw [ANDD_MIN_LENGTH] at enough name ⊢
  rw [readU8_inside (by omega), Parse.ok_bind, sum_inside name, Parse.ok_bind, sum_inside fits,
    Parse.ok_bind, sliceOf_inside (by omega) fits, Parse.ok_bind]
  exact ⟨_, rfl⟩

theorem parseSatc_ok_iff (fits : offset + length ≤ table.sdt.length) :
    (∃ unit, parseSatc table offset length = .ok unit) ↔ SATC_MIN_LENGTH ≤ length := by
  apply length_ok_iff
  intro enough
  rw [SATC_MIN_LENGTH] at enough
  rw [readU8_inside (by omega), Parse.ok_bind, readU16_inside (by omega), Parse.ok_bind]
  exact ⟨_, rfl⟩

theorem parseSidp_ok_iff (fits : offset + length ≤ table.sdt.length) :
    (∃ unit, parseSidp table offset length = .ok unit) ↔ SIDP_MIN_LENGTH ≤ length := by
  apply length_ok_iff
  intro enough
  rw [SIDP_MIN_LENGTH] at enough
  rw [readU16_inside (by omega), Parse.ok_bind]
  exact ⟨_, rfl⟩

theorem map_ok_iff {Value Result : Type} (construct : Value → Result)
    (parse : Parse DmarError Value) :
    (∃ result, (construct <$> parse) = .ok result) ↔ ∃ value, parse = .ok value := by
  cases parse with
  | error stop => simp
  | ok value => simp

theorem parseStructure_ok_iff (fits : offset + length ≤ table.sdt.length) (kind : UInt16) :
    (∃ parsed, parseStructure table offset length kind = .ok parsed) ↔
      ¬table.Faulty offset length kind := by
  rw [parseStructure, Faulty, minLength]
  by_cases drhd : kind = DMAR_DRHD
  · have rmrr : kind ≠ DMAR_RMRR := drhd ▸ (by decide)
    simp only [if_pos drhd, map_ok_iff, parseDrhd_ok_iff fits]
    grind
  by_cases rmrr : kind = DMAR_RMRR
  · have rhsa : kind ≠ DMAR_RHSA := rmrr ▸ (by decide)
    simp only [if_neg drhd, if_pos rmrr, map_ok_iff, parseRmrr_ok_iff fits]
    grind
  by_cases atsr : kind = DMAR_ATSR
  · have rhsa : kind ≠ DMAR_RHSA := atsr ▸ (by decide)
    simp only [if_neg drhd, if_neg rmrr, if_pos atsr, map_ok_iff, parseAtsr_ok_iff fits]
    grind
  by_cases rhsa : kind = DMAR_RHSA
  · simp only [if_neg drhd, if_neg rmrr, if_neg atsr, if_pos rhsa, map_ok_iff, parseRhsa_ok_iff fits]
    grind
  by_cases andd : kind = DMAR_ANDD
  · simp only [if_neg drhd, if_neg rmrr, if_neg atsr, if_neg rhsa, if_pos andd, map_ok_iff,
      parseAndd_ok_iff fits]
    grind
  by_cases satc : kind = DMAR_SATC
  · simp only [if_neg drhd, if_neg rmrr, if_neg atsr, if_neg rhsa, if_neg andd, if_pos satc,
      map_ok_iff, parseSatc_ok_iff fits]
    grind
  by_cases sidp : kind = DMAR_SIDP
  · simp only [if_neg drhd, if_neg rmrr, if_neg atsr, if_neg rhsa, if_neg andd, if_neg satc,
      if_pos sidp, map_ok_iff, parseSidp_ok_iff fits]
    grind
  · simp only [if_neg drhd, if_neg rmrr, if_neg atsr, if_neg rhsa, if_neg andd, if_neg satc,
      if_neg sidp]
    grind

def kindOf (table : DmarTable) (offset : Nat) : UInt16 := .ofNat (fieldLE table.sdt offset 2)

theorem framing_readable (table : DmarTable) : table.framing.Readable table.kindOf :=
  fun _ header => readU16_inside (by simp only [framing] at header; omega)

theorem structures_tiled (table : DmarTable) : ∃ items, table.structures = .ok items ∧
    table.framing.Tiled table.kindOf DMAR_STRUCTURES_OFFSET items := by
  apply Framing.drain_next table.framing_readable
  · intro offset frames
    exact (parseStructure_within frames.2 _).returns
  · exact table.long
  · exact Nat.lt_succ_of_le (Nat.sub_le _ _)

end DmarTable

/-- Where the device scopes of a structure are: the structure's offset, the length of its fixed part
and its length. -/
def DmarStructure.scopeRegion : DmarStructure → Option (Nat × Nat × Nat)
  | drhd unit => some (unit.structureOffset, DRHD_MIN_LENGTH, unit.length)
  | rmrr region => some (region.structureOffset, RMRR_MIN_LENGTH, region.length)
  | atsr unit => some (unit.structureOffset, ATSR_MIN_LENGTH, unit.length)
  | satc unit => some (unit.structureOffset, SATC_MIN_LENGTH, unit.length)
  | sidp unit => some (unit.structureOffset, SIDP_MIN_LENGTH, unit.length)
  | _ => none

namespace DmarTable

variable {table : DmarTable} {offset length : Nat}

theorem parseDrhd_region {unit : DmarDrhd} (parsed : parseDrhd table offset length = .ok unit) :
    unit.structureOffset = offset ∧ unit.length = length ∧ DRHD_MIN_LENGTH ≤ length := by
  rw [parseDrhd] at parsed
  split at parsed
  · exact absurd ⟨_, parsed⟩ malformed_ne_ok
  · next enough =>
    simp only [Parse.bind_eq_ok] at parsed
    obtain ⟨flags, _, segment, _, base, _, registers, _, built⟩ := parsed
    cases built
    exact ⟨rfl, rfl, Nat.le_of_not_lt enough⟩

theorem parseRmrr_region {region : DmarRmrr} (parsed : parseRmrr table offset length = .ok region) :
    region.structureOffset = offset ∧ region.length = length ∧ RMRR_MIN_LENGTH ≤ length := by
  rw [parseRmrr] at parsed
  split at parsed
  · exact absurd ⟨_, parsed⟩ malformed_ne_ok
  · next enough =>
    simp only [Parse.bind_eq_ok] at parsed
    obtain ⟨base, _, last, _, parsed⟩ := parsed
    split at parsed
    · exact absurd ⟨_, parsed⟩ malformed_ne_ok
    · simp only [Parse.bind_eq_ok] at parsed
      obtain ⟨segment, _, memory, _, built⟩ := parsed
      cases built
      exact ⟨rfl, rfl, Nat.le_of_not_lt enough⟩

theorem parseAtsr_region {unit : DmarAtsr} (parsed : parseAtsr table offset length = .ok unit) :
    unit.structureOffset = offset ∧ unit.length = length ∧ ATSR_MIN_LENGTH ≤ length := by
  rw [parseAtsr] at parsed
  split at parsed
  · exact absurd ⟨_, parsed⟩ malformed_ne_ok
  · next enough =>
    simp only [Parse.bind_eq_ok] at parsed
    obtain ⟨flags, _, segment, _, built⟩ := parsed
    cases built
    exact ⟨rfl, rfl, Nat.le_of_not_lt enough⟩

theorem parseSatc_region {unit : DmarSatc} (parsed : parseSatc table offset length = .ok unit) :
    unit.structureOffset = offset ∧ unit.length = length ∧ SATC_MIN_LENGTH ≤ length := by
  rw [parseSatc] at parsed
  split at parsed
  · exact absurd ⟨_, parsed⟩ malformed_ne_ok
  · next enough =>
    simp only [Parse.bind_eq_ok] at parsed
    obtain ⟨flags, _, segment, _, built⟩ := parsed
    cases built
    exact ⟨rfl, rfl, Nat.le_of_not_lt enough⟩

theorem parseSidp_region {unit : DmarSidp} (parsed : parseSidp table offset length = .ok unit) :
    unit.structureOffset = offset ∧ unit.length = length ∧ SIDP_MIN_LENGTH ≤ length := by
  rw [parseSidp] at parsed
  split at parsed
  · exact absurd ⟨_, parsed⟩ malformed_ne_ok
  · next enough =>
    simp only [Parse.bind_eq_ok] at parsed
    obtain ⟨segment, _, built⟩ := parsed
    cases built
    exact ⟨rfl, rfl, Nat.le_of_not_lt enough⟩

theorem parseStructure_scopeRegion {kind : UInt16} {parsed : DmarStructure}
    (success : parseStructure table offset length kind = .ok parsed) {start fixed size : Nat}
    (region : parsed.scopeRegion = some (start, fixed, size)) :
    start = offset ∧ size = length ∧ fixed ≤ length := by
  rw [parseStructure] at success
  split at success
  · obtain ⟨unit, found, rfl⟩ := Parse.map_eq_ok.mp success
    cases region
    exact parseDrhd_region found
  split at success
  · obtain ⟨memory, found, rfl⟩ := Parse.map_eq_ok.mp success
    cases region
    exact parseRmrr_region found
  split at success
  · obtain ⟨unit, found, rfl⟩ := Parse.map_eq_ok.mp success
    cases region
    exact parseAtsr_region found
  split at success
  · obtain ⟨affinity, found, rfl⟩ := Parse.map_eq_ok.mp success
    simp [DmarStructure.scopeRegion] at region
  split at success
  · obtain ⟨device, found, rfl⟩ := Parse.map_eq_ok.mp success
    simp [DmarStructure.scopeRegion] at region
  split at success
  · obtain ⟨unit, found, rfl⟩ := Parse.map_eq_ok.mp success
    cases region
    exact parseSatc_region found
  split at success
  · obtain ⟨unit, found, rfl⟩ := Parse.map_eq_ok.mp success
    cases region
    exact parseSidp_region found
  · cases success
    simp [DmarStructure.scopeRegion] at region

/-- Walking the scopes between the fixed part and the end of a structure visits what consecutive spans
there hold, and ends with a failure unless such spans fill the structure. -/
def WalksScopes (table : DmarTable) (start fixed size : Nat) : Prop :=
  ∃ (spans : List (Span Nat)) (stop : Nat) (outcome : Parse DmarError Unit),
    Span.Tiles fixed spans stop ∧
    (∀ span ∈ spans, ScopeSpan table.sdt start span ∧ span.stop ≤ size) ∧
    (∀ (World : Type) (visit : DmarDeviceScope → Effect World (Stop DmarError) Unit),
      table.walkDeviceScopes start fixed size visit =
        visitAll visit (table.scopesIn start spans, outcome)) ∧
    outcome.Returns ∧
    (outcome = .ok () ↔ ∃ whole, Span.Tiles fixed whole size ∧
      ∀ span ∈ whole, ScopeSpan table.sdt start span)

theorem walksScopes {start fixed size : Nat} (fits : start + size ≤ table.sdt.length)
    (behind : fixed ≤ size) : table.WalksScopes start fixed size := by
  have enough : size - fixed < size + 1 := by omega
  obtain ⟨spans, stop, outcome, tiles, spanned, found, ended⟩ := transcript_tiles fits behind enough
  refine ⟨spans, stop, outcome, tiles, spanned, ?_, ?_, ?_⟩
  · intro World visit
    rw [walkDeviceScopes_eq, deviceScopes, found]
  · rcases ended with ⟨rfl, _⟩ | ⟨message, rfl⟩
    · exact .ok ()
    · exact .fail _
  · constructor
    · intro succeeded
      rcases ended with ⟨_, rfl⟩ | ⟨message, failed⟩
      · exact ⟨spans, tiles, fun span member => (spanned span member).1⟩
      · rw [failed] at succeeded
        exact absurd ⟨(), succeeded⟩ malformed_ne_ok
    · rintro ⟨whole, covers, declared⟩
      rw [transcript_of_tiles fits covers declared enough] at found
      exact (Prod.mk.inj found).2.symm

end DmarTable

/-- Every accepted DMAR table is gone through without a panic. Its structures tile it from its fixed
header to its end or up to one framing failure; each depends on its own bytes only and fails exactly
when it is faulty; and the scopes of each are walked to the end or up to one failure. -/
theorem dmar_parsing_total (validate : SdtValidation) (bytes : List UInt8) (table : DmarTable)
    (accepted : DmarTable.parse validate bytes = .ok table) :
    (table.sdt = window bytes 0 (fieldLE bytes 4 4) ∧ table.sdt.length = fieldLE bytes 4 4 ∧
      DMAR_STRUCTURES_OFFSET ≤ table.sdt.length ∧ table.sdt.length ≤ bytes.length) ∧
    ∃ items, table.structures = .ok items ∧
      table.framing.Tiled table.kindOf DMAR_STRUCTURES_OFFSET items ∧
      (∀ offset length kind, offset + length ≤ table.sdt.length →
        (∀ other : DmarTable, AgreeOn table.sdt other.sdt offset (offset + length) →
          other.parseStructure offset length kind = table.parseStructure offset length kind) ∧
        ((∃ error, table.parseStructure offset length kind = .error (.failed error)) ↔
          table.Faulty offset length kind)) ∧
      ∀ parsed, .ok parsed ∈ items → ∀ start fixed size,
        parsed.scopeRegion = some (start, fixed, size) →
          start + size ≤ table.sdt.length ∧ table.WalksScopes start fixed size := by
  obtain ⟨same, fits⟩ := FirmwareTable.parse_ok accepted
  have length : table.sdt.length = fieldLE bytes 4 4 := by
    rw [same, window_length (by omega)]
  obtain ⟨items, drained, tiled⟩ := table.structures_tiled
  refine ⟨⟨same, length, table.long, by omega⟩, items, drained, tiled, ?_, ?_⟩
  · intro offset length kind fits
    have within := DmarTable.parseStructure_within fits kind
    refine ⟨within.only, ?_⟩
    rw [within.returns.fails_iff, DmarTable.parseStructure_ok_iff fits kind]
    exact not_not
  · intro parsed member start fixed size region
    obtain ⟨offset, frames, success⟩ := tiled.ok_mem member
    obtain ⟨rfl, rfl, behind⟩ := DmarTable.parseStructure_scopeRegion success region
    exact ⟨frames.2, DmarTable.walksScopes frames.2 behind⟩

def dmarSampleBytes : List UInt8 :=
  DMAR.signature ++ [72, 0, 0, 0] ++ List.replicate 40 0 ++
    [0, 0, 24, 0, 0, 0, 3, 0, 0, 0, 0xd9, 0xfe, 0, 0, 0, 0] ++ [1, 8, 0, 0, 0, 0x2a, 5, 0]

theorem dmar_parsing_total_sample : ∃ table : DmarTable,
    DmarTable.parse (fun _ => .ok ()) dmarSampleBytes = .ok table ∧
      ∃ items, table.structures = .ok items ∧
        table.framing.Tiled table.kindOf DMAR_STRUCTURES_OFFSET items := by
  refine ⟨⟨dmarSampleBytes, by decide, by decide⟩, rfl, ?_⟩
  obtain ⟨_, items, drained, tiled, _⟩ :=
    dmar_parsing_total (fun _ => .ok ()) dmarSampleBytes ⟨dmarSampleBytes, by decide, by decide⟩ rfl
  exact ⟨items, drained, tiled⟩

end Iommu
