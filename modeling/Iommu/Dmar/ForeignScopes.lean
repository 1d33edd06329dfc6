import Iommu.Dmar.Agreement

/-!
Walks over the scopes of a structure that another table gave. The structure's offset and length fit
the table it came from, so the reads of the walk can miss the table that is walked; all of them are
checked, but the slice of a scope's path is not.
-/

namespace Iommu

open MachineWord FirmwareTable

namespace DmarTable

/-- From an offset of the structure on, whole scopes lead to one whose header is in the table and whose
declared length ends in the structure and past the table. -/
inductive Overhangs (table : DmarTable) (start size : Nat) : Nat → Prop
  | here {scope : Span Nat} (spanned : ScopeSpan table.sdt start scope) (within : scope.stop ≤ size)
      (header : start + scope.start + DEVICE_SCOPE_HEADER_LENGTH ≤ table.sdt.length)
      (past : table.sdt.length < start + scope.stop) : Overhangs table start size scope.start
  | later {scope : Span Nat} (spanned : ScopeSpan table.sdt start scope)
      (rest : Overhangs table start size scope.stop) : Overhangs table start size scope.start

variable {table : DmarTable} {start size offset : Nat}

theorem Overhangs.header (overhangs : table.Overhangs start size offset) :
    offset + DEVICE_SCOPE_HEADER_LENGTH ≤ size ∧
      start + offset + DEVICE_SCOPE_HEADER_LENGTH ≤ table.sdt.length := by
  induction overhangs with
  | here spanned within header past =>
      obtain ⟨ends, large, _⟩ := spanned
      exact ⟨by omega, header⟩
  | later spanned _ ih =>
      obtain ⟨ends, large, _⟩ := spanned
      omega

theorem overhangs_iff : table.Overhangs start size offset ↔
    ScopeSpan table.sdt start ⟨offset, offset + scopeLength table.sdt (start + offset)⟩ ∧
      (offset + scopeLength table.sdt (start + offset) ≤ size ∧
          start + offset + DEVICE_SCOPE_HEADER_LENGTH ≤ table.sdt.length ∧
          table.sdt.length < start + offset + scopeLength table.sdt (start + offset) ∨
        table.Overhangs start size (offset + scopeLength table.sdt (start + offset))) := by
  constructor
  · intro overhangs
    cases overhangs with
    | @here scope spanned within header past =>
        obtain ⟨ends, large, even⟩ := spanned
        rw [ends] at within past
        exact ⟨⟨rfl, large, even⟩, Or.inl ⟨within, header, by omega⟩⟩
    | @later scope spanned rest =>
        obtain ⟨ends, large, even⟩ := spanned
        rw [ends] at rest
        exact ⟨⟨rfl, large, even⟩, Or.inr rest⟩
  · rintro ⟨spanned, ⟨within, header, past⟩ | rest⟩
    · exact .here spanned within header (by dsimp only; omega)
    · exact .later spanned rest

theorem scopeRound_cut (room : start + size < 2 ^ 32)
    (cut : table.sdt.length < start + offset + DEVICE_SCOPE_HEADER_LENGTH) (inside : offset < size) :
    ∃ message, table.scopeRound start size offset = malformed message := by
  have header_length : DEVICE_SCOPE_HEADER_LENGTH = 6 := rfl
  by_cases truncated : size < offset + DEVICE_SCOPE_HEADER_LENGTH
  · exact ⟨_, scopeRound_truncated room inside truncated⟩
  have limited : limit = 2 ^ 64 := rfl
  rw [scopeRound, if_neg (Nat.not_le_of_lt inside), Parse.sum_of_lt (by omega), Parse.ok_bind,
    if_neg truncated, Parse.sum_of_lt (by omega), Parse.ok_bind]
  by_cases unread : table.sdt.length ≤ start + offset + 1
  · rw [readU8_outside (by omega) unread]
    exact ⟨_, rfl⟩
  rw [readU8_inside (by omega), Parse.ok_bind]
  generalize UInt8.ofNat (fieldLE table.sdt (start + offset + 1) 1) = length
  have small := length.toNat_lt
  split
  · exact ⟨_, rfl⟩
  rw [Parse.sum_of_lt (by omega), Parse.ok_bind]
  split
  · exact ⟨_, rfl⟩
  split
  · exact ⟨_, rfl⟩
  rw [readU8_outside (by omega) (by omega)]
  exact ⟨_, rfl⟩

theorem scopeRound_foreign (room : start + size < 2 ^ 32) (inside : offset < size) :
    let length := scopeLength table.sdt (start + offset)
    (DEVICE_SCOPE_HEADER_LENGTH ≤ length ∧
        (table.Overhangs start size offset ↔ table.Overhangs start size (offset + length)) ∧
        table.scopeRound start size offset =
          .ok (.next (some (scopeIn table.sdt (start + offset) length)) (.ok (offset + length)))) ∨
      (table.Overhangs start size offset ∧ table.scopeRound start size offset = .error .panicked) ∨
      (¬table.Overhangs start size offset ∧
        ∃ message, table.scopeRound start size offset = malformed message) := by
  dsimp only
  by_cases truncated : size < offset + DEVICE_SCOPE_HEADER_LENGTH
  · refine Or.inr (Or.inr ⟨fun overhangs => ?_, _, scopeRound_truncated room inside truncated⟩)
    exact Nat.not_le_of_lt truncated overhangs.header.1
  by_cases cut : table.sdt.length < start + offset + DEVICE_SCOPE_HEADER_LENGTH
  · refine Or.inr (Or.inr ⟨fun overhangs => ?_, scopeRound_cut room cut inside⟩)
    exact Nat.not_le_of_lt cut overhangs.header.2
  rw [overhangs_iff, scopeRound_header room (Nat.le_of_not_lt truncated) (Nat.le_of_not_lt cut)]
  dsimp only [ScopeSpan]
  generalize scopeLength table.sdt (start + offset) = length
  by_cases large : length < DEVICE_SCOPE_HEADER_LENGTH
  · rw [if_pos large]
    exact Or.inr (Or.inr ⟨fun overhangs => Nat.not_le_of_lt large overhangs.1.2.1, _, rfl⟩)
  rw [if_neg large]
  have least := Nat.le_of_not_lt large
  by_cases whole : size < offset + length
  · rw [if_pos whole]
    refine Or.inr (Or.inr ⟨?_, _, rfl⟩)
    rintro ⟨_, ⟨within, _⟩ | rest⟩
    · exact Nat.not_le_of_lt whole within
    · have behind := rest.header.1
      omega
  rw [if_neg whole]
  by_cases odd : length - DEVICE_SCOPE_HEADER_LENGTH &&& 1 ≠ 0
  · rw [if_pos odd]
    refine Or.inr (Or.inr ⟨fun overhangs => odd ?_, _, rfl⟩)
    exact (even_iff length least).mpr overhangs.1.2.2
  rw [if_neg odd]
  have even := (even_iff length least).mp (Decidable.of_not_not odd)
  by_cases past : table.sdt.length < start + offset + length
  · rw [if_pos past]
    refine Or.inr (Or.inl ⟨⟨⟨rfl, least, even⟩, Or.inl ⟨?_, Nat.le_of_not_lt cut, past⟩⟩, rfl⟩)
    exact Nat.le_of_not_lt whole
  · rw [if_neg past]
    refine Or.inl ⟨least, ⟨?_, fun rest => ⟨⟨rfl, least, even⟩, Or.inr rest⟩⟩, rfl⟩
    rintro ⟨_, ⟨_, _, beyond⟩ | rest⟩
    · exact absurd beyond past
    · exact rest

theorem transcript_returns_iff (room : start + size < 2 ^ 32) {rounds : Nat}
    (enough : size - offset < rounds) :
    (transcript (table.scopeRound start size) rounds offset).2.Returns ↔
      ¬table.Overhangs start size offset := by
  induction rounds generalizing offset with
  | zero => omega
  | succ rounds ih =>
      rcases Nat.lt_or_ge offset size with inside | past
      · rcases scopeRound_foreign room inside with
          ⟨least, same, found⟩ | ⟨overhangs, panicked⟩ | ⟨none, message, failed⟩
        · rw [DEVICE_SCOPE_HEADER_LENGTH] at least
          rw [transcript_next found, same]
          exact ih (by omega)
        · rw [transcript_failed panicked]
          exact iff_of_false id (not_not_intro overhangs)
        · rw [transcript_failed failed]
          exact iff_of_true True.intro none
      · rw [transcript_done (scopeRound_done past)]
        refine iff_of_true True.intro fun overhangs => ?_
        have held := overhangs.header.1
        rw [DEVICE_SCOPE_HEADER_LENGTH] at held
        omega

end DmarTable

/-- A walk that returns, with a value or a failure, whatever visitor that does so it is given. -/
def AlwaysReturns (walk : (World : Type) → (DmarDeviceScope → Effect World (Stop DmarError) Unit) →
    Effect World (Stop DmarError) Unit) : Prop :=
  ∀ (World : Type) (visit : DmarDeviceScope → Effect World (Stop DmarError) Unit),
    (∀ scope world, Parse.Returns (visit scope world).1) →
      ∀ world, Parse.Returns (walk World visit world).1

namespace DmarTable

theorem walkDeviceScopes_returns_iff (table : DmarTable) {start fixed size : Nat}
    (room : start + size < 2 ^ 32) :
    AlwaysReturns (fun _ => table.walkDeviceScopes start fixed size) ↔
      ¬table.Overhangs start size fixed := by
  rw [← transcript_returns_iff room (Nat.lt_succ_of_le (Nat.sub_le size fixed))]
  constructor
  · intro always
    have returned := always Unit (fun _ => pure ()) (fun _ _ => True.intro) ()
    have accepts : ∀ (scope : DmarDeviceScope) (world : Unit),
        ∃ final, (pure () : Effect Unit (Stop DmarError) Unit) world = (.ok (), final) :=
      fun _ world => ⟨world, rfl⟩
    obtain ⟨_, visited⟩ := visitEach_total accepts (table.deviceScopes start fixed size).1 ()
    dsimp only at returned
    rw [walkDeviceScopes_eq, visitAll, Effect.bind_of_ok visited] at returned
    exact returned
  · intro returns World visit visitor world
    dsimp only
    rw [walkDeviceScopes_eq]
    exact visitAll_returns visitor returns world

/-- A structure ends in the table that gives it, whose length has 32 bits. -/
theorem scopeRegion_room {table : DmarTable} {items : List (Except DmarError DmarStructure)}
    (given : table.structures = .ok items) {parsed : DmarStructure} (member : .ok parsed ∈ items)
    {start fixed size : Nat} (region : parsed.scopeRegion = some (start, fixed, size)) :
    start + size < 2 ^ 32 := by
  obtain ⟨others, found, tiled⟩ := table.structures_tiled
  obtain rfl := Except.ok.inj (given.symm.trans found)
  obtain ⟨offset, frames, success⟩ := tiled.ok_mem member
  obtain ⟨rfl, rfl, _⟩ := parseStructure_scopeRegion success region
  exact Nat.lt_of_le_of_lt frames.2 table.short

end DmarTable

/-- Walking a table's scopes with a structure that another table gave returns exactly when no scope
that the walk comes to reaches out of the table with its header inside. -/
theorem foreign_scopes_return_iff (first second : DmarTable)
    (items : List (Except DmarError DmarStructure)) (given : first.structures = .ok items) :
    (∀ unit, .ok (.drhd unit) ∈ items →
      (AlwaysReturns (fun _ => second.forEachDrhdDeviceScope unit) ↔
        ¬second.Overhangs unit.structureOffset unit.length DRHD_MIN_LENGTH)) ∧
    (∀ region, .ok (.rmrr region) ∈ items →
      (AlwaysReturns (fun _ => second.forEachRmrrDeviceScope region) ↔
        ¬second.Overhangs region.structureOffset region.length RMRR_MIN_LENGTH)) ∧
    (∀ unit, .ok (.atsr unit) ∈ items →
      (AlwaysReturns (fun _ => second.forEachAtsrDeviceScope unit) ↔
        ¬second.Overhangs unit.structureOffset unit.length ATSR_MIN_LENGTH)) ∧
    (∀ unit, .ok (.satc unit) ∈ items →
      (AlwaysReturns (fun _ => second.forEachSatcDeviceScope unit) ↔
        ¬second.Overhangs unit.structureOffset unit.length SATC_MIN_LENGTH)) ∧
    ∀ unit, .ok (.sidp unit) ∈ items →
      (AlwaysReturns (fun _ => second.forEachSidpDeviceScope unit) ↔
        ¬second.Overhangs unit.structureOffset unit.length SIDP_MIN_LENGTH) := by
  refine ⟨?_, ?_, ?_, ?_, ?_⟩
  · intro unit member
    exact second.walkDeviceScopes_returns_iff (DmarTable.scopeRegion_room given member rfl)
  · intro region member
    exact second.walkDeviceScopes_returns_iff (DmarTable.scopeRegion_room given member rfl)
  · intro unit member
    exact second.walkDeviceScopes_returns_iff (DmarTable.scopeRegion_room given member rfl)
  · intro unit member
    exact second.walkDeviceScopes_returns_iff (DmarTable.scopeRegion_room given member rfl)
  · intro unit member
    exact second.walkDeviceScopes_returns_iff (DmarTable.scopeRegion_room given member rfl)

theorem dmarSample_structures : dmarSample.structures = .ok [.ok (.drhd dmarSampleUnit)] := by
  decide +kernel

def dmarCutBytes : List UInt8 :=
  DMAR.signature ++ [70, 0, 0, 0] ++ List.replicate 40 0 ++
    [0, 0, 22, 0, 0, 0, 3, 0, 0, 0, 0xd9, 0xfe, 0, 0, 0, 0] ++ [1, 8, 0, 0, 0, 0x2a]

def dmarCut : DmarTable := ⟨dmarCutBytes, by decide, by decide⟩

def dmarShortBytes : List UInt8 :=
  DMAR.signature ++ [70, 0, 0, 0] ++ List.replicate 40 0 ++
    [0, 0, 22, 0, 0, 0, 3, 0, 0, 0, 0xd9, 0xfe, 0, 0, 0, 0] ++ [1, 6, 0, 0, 0, 0x2a]

def dmarShort : DmarTable := ⟨dmarShortBytes, by decide, by decide⟩

theorem foreign_scopes_return_short :
    AlwaysReturns (fun _ => dmarShort.forEachDrhdDeviceScope dmarSampleUnit) := by
  obtain ⟨units, _⟩ := foreign_scopes_return_iff dmarSample dmarShort _ dmarSample_structures
  apply (units dmarSampleUnit (by simp)).mpr
  have first : scopeLength dmarShort.sdt (48 + 16) = 6 := by decide +kernel
  have ending : dmarShort.sdt.length = 70 := by decide +kernel
  show ¬dmarShort.Overhangs 48 24 16
  rw [DmarTable.overhangs_iff, first, ending]
  rintro ⟨_, ⟨_, _, past⟩ | later⟩
  · omega
  · have inside := later.header.1
    exact absurd inside (by decide)

/-- Both tables parse, and the walk over the second one with the unit of the first one panics. -/
theorem foreign_scopes_panic :
    ¬∀ (validate : SdtValidation) (firstBytes secondBytes : List UInt8) (first second : DmarTable),
      DmarTable.parse validate firstBytes = .ok first →
      DmarTable.parse validate secondBytes = .ok second →
      ∀ items, first.structures = .ok items → ∀ unit, .ok (.drhd unit) ∈ items →
        AlwaysReturns (fun _ => second.forEachDrhdDeviceScope unit) := by
  intro safe
  have always := safe (fun _ => .ok ()) dmarSampleBytes dmarCutBytes dmarSample dmarCut
    (by decide +kernel) (by decide +kernel) _ dmarSample_structures dmarSampleUnit (by simp)
  have returned := always Unit (fun _ => pure ()) (fun _ _ => True.intro) ()
  have panicked : (dmarCut.forEachDrhdDeviceScope dmarSampleUnit (fun _ => pure ()) ()).1 =
      .error .panicked := by decide +kernel
  rw [panicked] at returned
  exact returned

end Iommu
