import Iommu.Dmar.Structures

/-!
The device scopes behind the fixed part of a structure: each names a requester by a
start bus and a path of device and function numbers.
-/

namespace Iommu

open MachineWord FirmwareTable

def DEVICE_SCOPE_HEADER_LENGTH : Nat := 6

def DEVICE_SCOPE_ENDPOINT : UInt8 := 1
def DEVICE_SCOPE_BRIDGE : UInt8 := 2
def DEVICE_SCOPE_IOAPIC : UInt8 := 3
def DEVICE_SCOPE_HPET : UInt8 := 4
def DEVICE_SCOPE_NAMESPACE_DEVICE : UInt8 := 5

inductive DmarDeviceScopeKind
  | endpoint
  | bridge
  | ioApic
  | hpet
  | namespaceDevice
  | unknown (raw : UInt8)
  deriving DecidableEq

def DmarDeviceScopeKind.fromRaw (raw : UInt8) : DmarDeviceScopeKind :=
  if raw = DEVICE_SCOPE_ENDPOINT then endpoint
  else if raw = DEVICE_SCOPE_BRIDGE then bridge
  else if raw = DEVICE_SCOPE_IOAPIC then ioApic
  else if raw = DEVICE_SCOPE_HPET then hpet
  else if raw = DEVICE_SCOPE_NAMESPACE_DEVICE then namespaceDevice
  else unknown raw

structure DmarDeviceScopePathEntry where
  device : UInt8
  function : UInt8
  deriving DecidableEq

structure DmarDeviceScopePath where
  bytes : List UInt8
  deriving DecidableEq

namespace DmarDeviceScopePath

def depth (path : DmarDeviceScopePath) : Nat := path.bytes.length / 2

def entry (path : DmarDeviceScopePath) (index : Nat) : Option DmarDeviceScopePathEntry := do
  let offset ← checkedMul index 2
  let device ← path.bytes[offset]?
  let function ← path.bytes[offset + 1]?
  pure { device, function }

def singleRequester (path : DmarDeviceScopePath) (startBus : UInt8) : Except DmarError Bdf :=
  if path.depth ≠ 1 then .error (.malformed "DMAR scope path is not a single requester")
  else
    match path.entry 0 with
    | none => .error (.malformed "DMAR scope path missing requester")
    | some entry =>
        match Bdf.new startBus entry.device entry.function with
        | .error _ => .error (.malformed "DMAR scope requester BDF is invalid")
        | .ok bdf => .ok bdf

end DmarDeviceScopePath

structure DmarDeviceScope where
  kind : DmarDeviceScopeKind
  flags : UInt8
  enumerationId : UInt8
  startBus : UInt8
  path : DmarDeviceScopePath
  requester : Option BdfRange
  deriving DecidableEq

namespace DmarTable

variable (table : DmarTable)

def scopeRound (structureOffset structureLength offset : Nat) :
    Parse DmarError (Round DmarError DmarDeviceScope Nat) :=
  if structureLength ≤ offset then .ok .done
  else do
    let header ← .sum offset DEVICE_SCOPE_HEADER_LENGTH
    if structureLength < header then malformed "DMAR device scope truncated before fixed header"
    else do
      let scopeOffset ← .sum structureOffset offset
      let scopeLength ← table.readU8 scopeOffset 1
      if scopeLength.toNat < DEVICE_SCOPE_HEADER_LENGTH then
        malformed "DMAR device scope shorter than minimum"
      else do
        let stop ← .sum offset scopeLength.toNat
        if structureLength < stop then malformed "DMAR device scope extends past structure"
        else if scopeLength.toNat - DEVICE_SCOPE_HEADER_LENGTH &&& 1 ≠ 0 then
          malformed "DMAR device scope path has odd byte length"
        else do
          let startBus ← table.readU8 scopeOffset 5
          let pathStart ← .sum scopeOffset DEVICE_SCOPE_HEADER_LENGTH
          let pathEnd ← .sum scopeOffset scopeLength.toNat
          let bytes ← sliceOf table.sdt pathStart pathEnd
          let path : DmarDeviceScopePath := ⟨bytes⟩
          let kind ← table.readU8 scopeOffset 0
          let flags ← table.readU8 scopeOffset 2
          let enumerationId ← table.readU8 scopeOffset 4
          let scope : DmarDeviceScope := {
            kind := .fromRaw kind
            flags, enumerationId, startBus, path
            requester := (path.singleRequester startBus).toOption.map .single
          }
          pure (.next (some scope) (.sum offset scopeLength.toNat))

def deviceScopes (structureOffset scopesOffset structureLength : Nat) :
    List DmarDeviceScope × Parse DmarError Unit :=
  transcript (table.scopeRound structureOffset structureLength) (structureLength + 1) scopesOffset

variable {World : Type}

def walkDeviceScopes (structureOffset scopesOffset structureLength : Nat)
    (visit : DmarDeviceScope → Effect World (Stop DmarError) Unit) :
    Effect World (Stop DmarError) Unit :=
  walk (table.scopeRound structureOffset structureLength) visit (structureLength + 1) scopesOffset

def forEachDrhdDeviceScope (unit : DmarDrhd)
    (visit : DmarDeviceScope → Effect World (Stop DmarError) Unit) :
    Effect World (Stop DmarError) Unit :=
  table.walkDeviceScopes unit.structureOffset DRHD_MIN_LENGTH unit.length visit

def forEachRmrrDeviceScope (region : DmarRmrr)
    (visit : DmarDeviceScope → Effect World (Stop DmarError) Unit) :
    Effect World (Stop DmarError) Unit :=
  table.walkDeviceScopes region.structureOffset RMRR_MIN_LENGTH region.length visit

def forEachAtsrDeviceScope (unit : DmarAtsr)
    (visit : DmarDeviceScope → Effect World (Stop DmarError) Unit) :
    Effect World (Stop DmarError) Unit :=
  table.walkDeviceScopes unit.structureOffset ATSR_MIN_LENGTH unit.length visit

def forEachSatcDeviceScope (unit : DmarSatc)
    (visit : DmarDeviceScope → Effect World (Stop DmarError) Unit) :
    Effect World (Stop DmarError) Unit :=
  table.walkDeviceScopes unit.structureOffset SATC_MIN_LENGTH unit.length visit

def forEachSidpDeviceScope (unit : DmarSidp)
    (visit : DmarDeviceScope → Effect World (Stop DmarError) Unit) :
    Effect World (Stop DmarError) Unit :=
  table.walkDeviceScopes unit.structureOffset SIDP_MIN_LENGTH unit.length visit

theorem walkDeviceScopes_eq (structureOffset scopesOffset structureLength : Nat)
    (visit : DmarDeviceScope → Effect World (Stop DmarError) Unit) :
    table.walkDeviceScopes structureOffset scopesOffset structureLength visit =
      visitAll visit (table.deviceScopes structureOffset scopesOffset structureLength) :=
  walk_eq_visitAll _ _ _ _

end DmarTable

def scopeIn (bytes : List UInt8) (offset length : Nat) : DmarDeviceScope :=
  let startBus := .ofNat (fieldLE bytes (offset + 5) 1)
  let path : DmarDeviceScopePath := ⟨window bytes (offset + 6) (length - 6)⟩
  { kind := .fromRaw (.ofNat (fieldLE bytes offset 1))
    flags := .ofNat (fieldLE bytes (offset + 2) 1)
    enumerationId := .ofNat (fieldLE bytes (offset + 4) 1)
    startBus, path
    requester := (path.singleRequester startBus).toOption.map .single }

def scopeLength (bytes : List UInt8) (offset : Nat) : Nat := fieldLE bytes (offset + 1) 1

/-- A stretch of the structure is what a scope there declares, and a path of whole entries. -/
def ScopeSpan (bytes : List UInt8) (structureOffset : Nat) (span : Span Nat) : Prop :=
  span.stop = span.start + scopeLength bytes (structureOffset + span.start) ∧
    DEVICE_SCOPE_HEADER_LENGTH ≤ scopeLength bytes (structureOffset + span.start) ∧
    scopeLength bytes (structureOffset + span.start) % 2 = 0

namespace DmarTable

variable {table : DmarTable} {structureOffset structureLength offset : Nat}

theorem scopeLength_lt (bytes : List UInt8) (offset : Nat) : scopeLength bytes offset < 256 :=
  fieldLE_lt _ _ 1

theorem scopeRound_done (past : structureLength ≤ offset) :
    table.scopeRound structureOffset structureLength offset = .ok .done :=
  if_pos past

theorem scopeRound_header (room : structureOffset + structureLength < 2 ^ 32)
    (held : offset + DEVICE_SCOPE_HEADER_LENGTH ≤ structureLength)
    (read : structureOffset + offset + DEVICE_SCOPE_HEADER_LENGTH ≤ table.sdt.length) :
    table.scopeRound structureOffset structureLength offset =
      let length := scopeLength table.sdt (structureOffset + offset)
      if length < DEVICE_SCOPE_HEADER_LENGTH then
        malformed "DMAR device scope shorter than minimum"
      else if structureLength < offset + length then
        malformed "DMAR device scope extends past structure"
      else if length - DEVICE_SCOPE_HEADER_LENGTH &&& 1 ≠ 0 then
        malformed "DMAR device scope path has odd byte length"
      else if table.sdt.length < structureOffset + offset + length then .error .panicked
      else .ok (.next (some (scopeIn table.sdt (structureOffset + offset) length))
        (.ok (offset + length))) := by
  have header_length : DEVICE_SCOPE_HEADER_LENGTH = 6 := rfl
  have small := scopeLength_lt table.sdt (structureOffset + offset)
  have size : (UInt8.ofNat (fieldLE table.sdt (structureOffset + offset + 1) 1)).toNat =
      scopeLength table.sdt (structureOffset + offset) := UInt8.toNat_ofNat_of_lt' small
  have sums : ∀ left right, left + right < 2 ^ 33 →
      (Parse.sum left right : Parse DmarError Nat) = .ok (left + right) := by
    intro left right fits
    exact Parse.sum_of_lt (by rw [limit]; omega)
  rw [scopeRound, if_neg (by omega), sums offset _ (by omega), Parse.ok_bind]
  dsimp only
  rw [if_neg (by omega), sums structureOffset offset (by omega), Parse.ok_bind,
    readU8_inside (by omega), Parse.ok_bind]
  simp only [size]
  generalize scopeLength table.sdt (structureOffset + offset) = length at small
  by_cases large : length < DEVICE_SCOPE_HEADER_LENGTH
  · rw [if_pos large, if_pos large]
  rw [if_neg large, if_neg large, sums offset _ (by omega), Parse.ok_bind]
  by_cases whole : structureLength < offset + length
  · rw [if_pos whole, if_pos whole]
  rw [if_neg whole, if_neg whole]
  by_cases odd : length - DEVICE_SCOPE_HEADER_LENGTH &&& 1 ≠ 0
  · rw [if_pos odd, if_pos odd]
  rw [if_neg odd, if_neg odd, readU8_inside (by omega), Parse.ok_bind, sums _ _ (by omega),
    Parse.ok_bind, sums _ _ (by omega), Parse.ok_bind]
  by_cases past : table.sdt.length < structureOffset + offset + length
  · rw [if_pos past, sliceOf, if_neg (by omega)]
    rfl
  rw [if_neg past, sliceOf_inside (by omega) (by omega), Parse.ok_bind, readU8_inside (by omega),
    Parse.ok_bind, readU8_inside (by omega), Parse.ok_bind, readU8_inside (by omega), Parse.ok_bind,
    Nat.add_sub_add_left]
  rfl

theorem scopeRound_truncated (room : structureOffset + structureLength < 2 ^ 32)
    (inside : offset < structureLength)
    (truncated : structureLength < offset + DEVICE_SCOPE_HEADER_LENGTH) :
    table.scopeRound structureOffset structureLength offset =
      malformed "DMAR device scope truncated before fixed header" := by
  have header_length : DEVICE_SCOPE_HEADER_LENGTH = 6 := rfl
  have small : offset + DEVICE_SCOPE_HEADER_LENGTH < limit := by
    rw [limit]
    omega
  rw [scopeRound, if_neg (Nat.not_le_of_lt inside), Parse.sum_of_lt small, Parse.ok_bind,
    if_pos truncated]

theorem scopeRound_inside (fits : structureOffset + structureLength ≤ table.sdt.length)
    (inside : offset < structureLength) :
    table.scopeRound structureOffset structureLength offset =
      let length := scopeLength table.sdt (structureOffset + offset)
      if structureLength < offset + DEVICE_SCOPE_HEADER_LENGTH then
        malformed "DMAR device scope truncated before fixed header"
      else if length < DEVICE_SCOPE_HEADER_LENGTH then
        malformed "DMAR device scope shorter than minimum"
      else if structureLength < offset + length then
        malformed "DMAR device scope extends past structure"
      else if length - DEVICE_SCOPE_HEADER_LENGTH &&& 1 ≠ 0 then
        malformed "DMAR device scope path has odd byte length"
      else .ok (.next (some (scopeIn table.sdt (structureOffset + offset) length))
        (.ok (offset + length))) := by
  have room := Nat.lt_of_le_of_lt fits table.short
  dsimp only
  by_cases truncated : structureLength < offset + DEVICE_SCOPE_HEADER_LENGTH
  · rw [if_pos truncated, scopeRound_truncated room inside truncated]
  rw [if_neg truncated, scopeRound_header room (by omega) (by omega)]
  dsimp only
  generalize scopeLength table.sdt (structureOffset + offset) = length
  by_cases whole : structureLength < offset + length
  · rw [if_pos whole, if_pos whole]
  · have reaches : ¬table.sdt.length < structureOffset + offset + length := by omega
    rw [if_neg reaches]

theorem even_iff (length : Nat) (large : DEVICE_SCOPE_HEADER_LENGTH ≤ length) :
    length - DEVICE_SCOPE_HEADER_LENGTH &&& 1 = 0 ↔ length % 2 = 0 := by
  rw [Nat.and_one_is_mod]
  rw [DEVICE_SCOPE_HEADER_LENGTH] at large ⊢
  omega

theorem scopeRound_next (fits : structureOffset + structureLength ≤ table.sdt.length)
    {span : Span Nat} (spanned : ScopeSpan table.sdt structureOffset span)
    (inside : span.stop ≤ structureLength) :
    table.scopeRound structureOffset structureLength span.start =
      .ok (.next (some (scopeIn table.sdt (structureOffset + span.start) (span.stop - span.start)))
        (.ok span.stop)) := by
  have header_length : DEVICE_SCOPE_HEADER_LENGTH = 6 := rfl
  obtain ⟨ends, large, even⟩ := spanned
  rw [scopeRound_inside fits (by omega), ends, Nat.add_sub_cancel_left]
  dsimp only
  rw [if_neg (by omega), if_neg (by omega), if_neg (by omega),
    if_neg (not_not_intro ((even_iff _ large).mpr even))]

theorem scopeRound_cases (fits : structureOffset + structureLength ≤ table.sdt.length)
    (inside : offset < structureLength) :
    (∃ stop, ScopeSpan table.sdt structureOffset ⟨offset, stop⟩ ∧ stop ≤ structureLength) ∨
      ∃ message, table.scopeRound structureOffset structureLength offset = malformed message := by
  rw [scopeRound_inside fits inside]
  dsimp only
  split
  · exact Or.inr ⟨_, rfl⟩
  · split
    · exact Or.inr ⟨_, rfl⟩
    · next large =>
      split
      · exact Or.inr ⟨_, rfl⟩
      · next whole =>
        split
        · exact Or.inr ⟨_, rfl⟩
        · next even =>
          have least := Nat.le_of_not_lt large
          refine Or.inl ⟨_, ⟨rfl, least, ?_⟩, Nat.le_of_not_lt whole⟩
          exact (even_iff _ least).mp (Decidable.of_not_not even)

def scopesIn (table : DmarTable) (structureOffset : Nat) (spans : List (Span Nat)) :
    List DmarDeviceScope :=
  spans.map fun span => scopeIn table.sdt (structureOffset + span.start) (span.stop - span.start)

theorem transcript_tiles (fits : structureOffset + structureLength ≤ table.sdt.length)
    {rounds : Nat} (before : offset ≤ structureLength) (enough : structureLength - offset < rounds) :
    ∃ spans stop outcome, Span.Tiles offset spans stop ∧
      (∀ span ∈ spans, ScopeSpan table.sdt structureOffset span ∧ span.stop ≤ structureLength) ∧
      transcript (table.scopeRound structureOffset structureLength) rounds offset =
        (table.scopesIn structureOffset spans, outcome) ∧
      (outcome = .ok () ∧ stop = structureLength ∨ ∃ message, outcome = malformed message) := by
  induction rounds generalizing offset with
  | zero => omega
  | succ rounds ih =>
      rcases Nat.lt_or_ge offset structureLength with inside | past
      · rcases scopeRound_cases fits inside with ⟨stop, spanned, within⟩ | ⟨message, failed⟩
        · have found := scopeRound_next fits spanned within
          have large := spanned.2.1
          have ends := spanned.1
          rw [DEVICE_SCOPE_HEADER_LENGTH] at large
          dsimp only at found large ends
          obtain ⟨spans, last, outcome, tiles, spanned_rest, rest, ended⟩ :=
            ih within (by omega)
          refine ⟨⟨offset, stop⟩ :: spans, last, outcome, .cons rfl ?_ tiles, ?_, ?_, ended⟩
          · rw [Span.Proper]
            dsimp only
            omega
          · intro span member
            rcases List.mem_cons.mp member with rfl | later
            · exact ⟨spanned, within⟩
            · exact spanned_rest span later
          · rw [transcript, found]
            dsimp only
            rw [rest]
            rfl
        · refine ⟨[], offset, malformed message, .nil offset, by simp, ?_, Or.inr ⟨message, rfl⟩⟩
          rw [transcript, failed]
          rfl
      · refine ⟨[], offset, .ok (), .nil offset, by simp, ?_, Or.inl ⟨rfl, by omega⟩⟩
        rw [transcript, scopeRound_done past]
        rfl

theorem transcript_of_tiles (fits : structureOffset + structureLength ≤ table.sdt.length)
    {rounds : Nat} {spans : List (Span Nat)} (tiles : Span.Tiles offset spans structureLength)
    (spanned : ∀ span ∈ spans, ScopeSpan table.sdt structureOffset span)
    (enough : structureLength - offset < rounds) :
    transcript (table.scopeRound structureOffset structureLength) rounds offset =
      (table.scopesIn structureOffset spans, .ok ()) := by
  induction tiles generalizing rounds with
  | nil stop =>
      obtain ⟨rest, rfl⟩ : ∃ rest, rounds = rest + 1 := ⟨rounds - 1, by omega⟩
      rw [transcript, scopeRound_done (Nat.le_refl _)]
      rfl
  | @cons start stop span rest adjacent proper tiles ih =>
      obtain ⟨fewer, rfl⟩ : ∃ fewer, rounds = fewer + 1 := ⟨rounds - 1, by omega⟩
      have inside := tiles.le
      subst adjacent
      rw [Span.Proper] at proper
      rw [transcript, scopeRound_next fits (spanned span (List.mem_cons_self ..)) inside]
      dsimp only
      rw [ih fits (fun span member => spanned span (List.mem_cons_of_mem _ member)) (by omega)]
      rfl

end DmarTable

end Iommu
