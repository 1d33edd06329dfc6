import Iommu.Dmar.Failures

/-!
Tables that differ in the order of the device scopes of one unit only: the scopes are
byte strings of the lengths that they declare, put in another order where they were.
The loop over the structures finds the same in both.
-/

namespace Iommu

open MachineWord FirmwareTable

structure ScopeEntry (entry : List UInt8) : Prop where
  header : 2 ≤ entry.length
  declared : scopeLength entry 0 = entry.length

def WellFormed (entry : List UInt8) : Prop :=
  DEVICE_SCOPE_HEADER_LENGTH ≤ entry.length ∧ entry.length % 2 = 0

/-- The second table lists scopes of the unit of the first in another order, from the first scope of the
unit on; what lies behind them in the unit, if anything, stays where it is. -/
structure Reordered (first second : DmarTable) (unit : DmarDrhd) (entries others : List (List UInt8)) :
    Prop where
  member : unit ∈ first.drhds
  permuted : entries.Perm others
  declared : ∀ entry ∈ entries, ScopeEntry entry
  within : DRHD_MIN_LENGTH + entries.flatten.length ≤ unit.length
  bytes : ∃ front back, front.length = unit.structureOffset + DRHD_MIN_LENGTH ∧
    first.sdt = front ++ entries.flatten ++ back ∧ second.sdt = front ++ others.flatten ++ back

namespace DmarTable

variable {first second : DmarTable} {unit : DmarDrhd} {state : Nat}

theorem declared_agrees (agree : AgreeOn first.sdt second.sdt state (state + 4)) :
    second.framing.declared state = first.framing.declared state ∧
      second.kindOf state = first.kindOf state := by
  have length : fieldLE first.sdt (state + 2) 2 = fieldLE second.sdt (state + 2) 2 :=
    agree.fieldLE_eq (by omega) (by omega)
  have kind : fieldLE first.sdt state 2 = fieldLE second.sdt state 2 :=
    agree.fieldLE_eq (by omega) (by omega)
  rw [kindOf, kindOf, kind]
  exact ⟨length.symm, rfl⟩

theorem frames_agrees (lengths : first.sdt.length = second.sdt.length)
    (agree : AgreeOn first.sdt second.sdt state (state + 4)) (frames : first.framing.Frames state) :
    second.framing.Frames state := by
  rw [Framing.Frames, (declared_agrees agree).1]
  exact ⟨frames.1, lengths ▸ frames.2⟩

theorem itemRound_agrees (lengths : first.sdt.length = second.sdt.length) {found : DmarStructure}
    {after : Nat} (agree : AgreeOn first.sdt second.sdt state after)
    (ran : itemRound first.nextStructure state = .ok (.next (some found) (.ok after))) :
    itemRound second.nextStructure state = .ok (.next (some found) (.ok after)) := by
  obtain ⟨frames, stepped, item, own, parsed⟩ :=
    (Framing.itemRound_eq_next first.framing_readable).mp ran
  cases own
  cases stepped
  have header : AgreeOn first.sdt second.sdt state (state + 4) := agree.shorten frames.1
  obtain ⟨declared, kind⟩ := declared_agrees header
  refine (Framing.itemRound_eq_next second.framing_readable).mpr
    ⟨frames_agrees lengths header frames, by rw [declared], found, rfl, ?_⟩
  rw [declared, kind, ← parsed]
  exact (parseStructure_within frames.2 _).only second agree

theorem itemRound_unit (lengths : first.sdt.length = second.sdt.length)
    (agree : AgreeOn first.sdt second.sdt state (state + DRHD_MIN_LENGTH))
    {after : Parse DmarError Nat}
    (ran : itemRound first.nextStructure state = .ok (.next (some (.drhd unit)) after)) :
    itemRound second.nextStructure state = .ok (.next (some (.drhd unit)) after) := by
  obtain ⟨_, stepped, size, large, fits, kind, parsed⟩ := itemRound_drhd ran
  have header : AgreeOn first.sdt second.sdt state (state + 4) := agree.shorten (by decide)
  obtain ⟨declared, sameKind⟩ := declared_agrees header
  have frames := ((Framing.itemRound_eq_next first.framing_readable).mp ran).1
  refine (Framing.itemRound_eq_next second.framing_readable).mpr
    ⟨frames_agrees lengths header frames, by rw [declared, ← size, stepped], _, rfl, ?_⟩
  have parses : second.parseStructure state unit.length DMAR_DRHD = .ok (.drhd unit) := by
    rw [parseStructure, if_pos rfl, (parseDrhd_fixed agree.reaches unit.length).only second agree, parsed]
    rfl
  rw [declared, ← size, sameKind, kind]
  exact parses

theorem breaks_agrees (lengths : first.sdt.length = second.sdt.length)
    (agree : AgreeOn first.sdt second.sdt state first.sdt.length) {message : String}
    (breaks : first.framing.Breaks state message) : second.framing.Breaks state message := by
  have sizes : second.framing.table.sdt.length = first.framing.table.sdt.length := lengths.symm
  obtain ⟨inside, ⟨cut, text⟩ | ⟨header, reason⟩⟩ := breaks
  · exact ⟨sizes ▸ inside, Or.inl ⟨sizes ▸ cut, text⟩⟩
  · have front : AgreeOn first.sdt second.sdt state (state + 4) :=
      ⟨header, sizes ▸ header, fun index above below => agree.same index above
        (Nat.lt_of_lt_of_le below header)⟩
    refine ⟨sizes ▸ inside, Or.inr ⟨sizes ▸ header, ?_⟩⟩
    rw [(declared_agrees front).1, sizes]
    exact reason

theorem nextStructure_behind (lengths : first.sdt.length = second.sdt.length)
    (agree : AgreeOn first.sdt second.sdt state first.sdt.length) :
    second.nextStructure state = first.nextStructure state := by
  have firstReadable := first.framing_readable
  have secondReadable := second.framing_readable
  rcases Nat.lt_or_ge state first.sdt.length with inside | past
  · rcases first.framing.frames_or_breaks inside with frames | ⟨message, breaks⟩
    · have fits : state + first.framing.declared state ≤ first.sdt.length := frames.2
      have own : AgreeOn first.sdt second.sdt state (state + first.framing.declared state) :=
        ⟨fits, lengths ▸ fits, fun index above below => agree.same index above
          (Nat.lt_of_lt_of_le below fits)⟩
      have header := own.shorten frames.1
      obtain ⟨declared, kind⟩ := declared_agrees header
      have parsed := (parseStructure_within frames.2 (first.kindOf state)).only second own
      have firstNext := Framing.next_frames frames firstReadable
      have secondNext := Framing.next_frames (frames_agrees lengths header frames) secondReadable
      rw [declared, kind] at secondNext
      refine secondNext.trans (Eq.trans ?_ firstNext.symm)
      exact congrArg (fun outcome => (Except.map some outcome, _)) parsed
    · have firstNext := Framing.next_broken breaks firstReadable
      have secondNext := Framing.next_broken (breaks_agrees lengths agree breaks) secondReadable
      refine secondNext.trans (Eq.trans ?_ firstNext.symm)
      exact congrArg _ lengths.symm
  · have firstNext : first.framing.next state = (.ok none, state) := Framing.next_done past
    have secondNext : second.framing.next state = (.ok none, state) :=
      Framing.next_done (show second.sdt.length ≤ state from lengths ▸ past)
    exact secondNext.trans firstNext.symm

theorem transcript_behind (lengths : first.sdt.length = second.sdt.length)
    (agree : AgreeOn first.sdt second.sdt state first.sdt.length) (rounds : Nat) :
    transcript (itemRound second.nextStructure) rounds state =
      transcript (itemRound first.nextStructure) rounds state := by
  induction rounds generalizing state with
  | zero => rfl
  | succ rounds ih =>
      have same : itemRound second.nextStructure state = itemRound first.nextStructure state := by
        rw [itemRound, itemRound, nextStructure_behind lengths agree]
      rw [transcript, transcript, same]
      cases ran : itemRound first.nextStructure state with
      | error stop => rfl
      | ok round =>
          cases round with
          | done => rfl
          | next found continuation =>
              obtain ⟨frames, stepped, _⟩ :=
                (Framing.itemRound_eq_next first.framing_readable).mp ran
              cases stepped
              dsimp only
              rw [ih ⟨Nat.le_refl _, Nat.le_of_eq lengths, fun index above below =>
                agree.same index (by omega) below⟩]

theorem transcript_drhd_ge {rounds : Nat}
    (among : .drhd unit ∈ (transcript (itemRound first.nextStructure) rounds state).1) :
    state ≤ unit.structureOffset := by
  induction rounds generalizing state with
  | zero => cases among
  | succ rounds ih =>
      rw [transcript] at among
      cases ran : itemRound first.nextStructure state with
      | error stop => simp [ran] at among
      | ok round =>
          cases round with
          | done => simp [ran] at among
          | next found after =>
              obtain ⟨frames, stepped, item, rfl, _⟩ :=
                (Framing.itemRound_eq_next first.framing_readable).mp ran
              subst stepped
              simp only [ran, Option.toList_some, List.cons_append, List.nil_append,
                List.mem_cons] at among
              rcases among with rfl | later
              · exact Nat.le_of_eq (itemRound_drhd ran).1.symm
              · exact Nat.le_trans (Nat.le_add_right _ _) (ih later)

theorem transcript_reordered
    (agree : AgreeOutside first.sdt second.sdt (unit.structureOffset + DRHD_MIN_LENGTH)
      (unit.structureOffset + unit.length)) {rounds : Nat}
    (among : .drhd unit ∈ (transcript (itemRound first.nextStructure) rounds state).1) :
    transcript (itemRound second.nextStructure) rounds state =
      transcript (itemRound first.nextStructure) rounds state := by
  have lengths := agree.lengths
  induction rounds generalizing state with
  | zero => rfl
  | succ rounds ih =>
      rw [transcript] at among
      cases ran : itemRound first.nextStructure state with
      | error stop => simp [ran] at among
      | ok round =>
          cases round with
          | done => simp [ran] at among
          | next found after =>
              obtain ⟨frames, stepped, item, rfl, _⟩ :=
                (Framing.itemRound_eq_next first.framing_readable).mp ran
              have fits : state + first.framing.declared state ≤ first.sdt.length := frames.2
              subst stepped
              simp only [ran, Option.toList_some, List.cons_append, List.nil_append,
                List.mem_cons] at among
              by_cases own : item = .drhd unit
              · subst own
                obtain ⟨offset, _, size, large, _⟩ := itemRound_drhd ran
                subst offset
                rw [transcript_next ran, transcript_next
                  (itemRound_unit lengths (agree.before (Nat.le_refl _) (by omega)) ran),
                  transcript_behind lengths (agree.behind (by omega) (Nat.le_refl _))]
              · have later := among.resolve_left (Ne.symm own)
                have beyond := transcript_drhd_ge later
                rw [transcript_next ran, transcript_next
                  (itemRound_agrees lengths (agree.before (by omega) fits) ran), ih later]

end DmarTable

def entryScope (entry : List UInt8) : DmarDeviceScope := scopeIn entry 0 entry.length

section Entries

variable {table : DmarTable} {structureOffset structureLength offset : Nat} {entry : List UInt8}

theorem scopeIn_held {bytes : List UInt8} {start : Nat} (holds : HoldsAt bytes start entry)
    (large : DEVICE_SCOPE_HEADER_LENGTH ≤ entry.length) :
    scopeIn bytes start entry.length = entryScope entry := by
  rw [DEVICE_SCOPE_HEADER_LENGTH] at large
  have field : ∀ displacement, displacement < 6 →
      fieldLE bytes (start + displacement) 1 = fieldLE entry displacement 1 :=
    fun displacement small => holds.fieldLE_eq (by omega)
  have path : window bytes (start + 6) (entry.length - 6) = window entry 6 (entry.length - 6) :=
    holds.window_eq (by omega)
  have kind := field 0 (by omega)
  have flags := field 2 (by omega)
  have number := field 4 (by omega)
  have bus := field 5 (by omega)
  simp only [entryScope, scopeIn, Nat.zero_add, Nat.add_zero] at kind ⊢
  rw [kind, flags, number, bus, path]

theorem scopeLength_held {bytes : List UInt8} {start : Nat} (holds : HoldsAt bytes start entry)
    (declared : ScopeEntry entry) : scopeLength bytes start = entry.length := by
  have field : fieldLE bytes (start + 1) 1 = fieldLE entry 1 1 := holds.fieldLE_eq declared.header
  rw [← declared.declared]
  exact field

theorem scopeRound_entry (fits : structureOffset + structureLength ≤ table.sdt.length)
    (holds : HoldsAt table.sdt (structureOffset + offset) entry) (declared : ScopeEntry entry)
    (wellFormed : WellFormed entry) (within : offset + entry.length ≤ structureLength) :
    table.scopeRound structureOffset structureLength offset =
      .ok (.next (some (entryScope entry)) (.ok (offset + entry.length))) := by
  have size := scopeLength_held holds declared
  have spanned : ScopeSpan table.sdt structureOffset ⟨offset, offset + entry.length⟩ := by
    rw [ScopeSpan, size]
    exact ⟨rfl, wellFormed.1, wellFormed.2⟩
  have ran := DmarTable.scopeRound_next fits spanned within
  rw [Nat.add_sub_cancel_left, scopeIn_held holds wellFormed.1] at ran
  exact ran

theorem scopeRound_illFormed (fits : structureOffset + structureLength ≤ table.sdt.length)
    (holds : HoldsAt table.sdt (structureOffset + offset) entry) (declared : ScopeEntry entry)
    (illFormed : ¬WellFormed entry) (within : offset + entry.length ≤ structureLength) :
    ∃ message, table.scopeRound structureOffset structureLength offset = malformed message := by
  have header := declared.header
  rcases DmarTable.scopeRound_cases fits (show offset < structureLength by omega) with
    ⟨stop, ⟨_, large, even⟩, _⟩ | failed
  · rw [scopeLength_held holds declared] at large even
    exact absurd ⟨large, even⟩ illFormed
  · exact failed

theorem entries_le {entries : List (List UInt8)} (declared : ∀ entry ∈ entries, ScopeEntry entry) :
    entries.length ≤ entries.flatten.length := by
  induction entries with
  | nil => exact Nat.le_refl _
  | cons entry others ih =>
      obtain ⟨own, declaredOthers⟩ := List.forall_mem_cons.mp declared
      have header := own.header
      have rest := ih declaredOthers
      rw [List.flatten_cons, List.length_append, List.length_cons]
      omega

theorem transcript_entries (fits : structureOffset + structureLength ≤ table.sdt.length)
    {entries : List (List UInt8)} (declared : ∀ entry ∈ entries, ScopeEntry entry)
    (wellFormed : ∀ entry ∈ entries, WellFormed entry)
    (holds : HoldsAt table.sdt (structureOffset + offset) entries.flatten)
    (within : offset + entries.flatten.length ≤ structureLength) (rounds : Nat) :
    transcript (table.scopeRound structureOffset structureLength) (entries.length + rounds) offset =
      let rest := transcript (table.scopeRound structureOffset structureLength) rounds
        (offset + entries.flatten.length)
      (entries.map entryScope ++ rest.1, rest.2) := by
  induction entries generalizing offset with
  | nil => simp
  | cons entry others ih =>
      obtain ⟨own, declaredOthers⟩ := List.forall_mem_cons.mp declared
      obtain ⟨formed, formedOthers⟩ := List.forall_mem_cons.mp wellFormed
      rw [List.flatten_cons] at holds within
      rw [List.length_append] at within
      obtain ⟨here, behind⟩ := holds.split
      rw [Nat.add_assoc] at behind
      have found := scopeRound_entry fits here own formed (by omega)
      rw [List.length_cons, Nat.add_right_comm, transcript_next found,
        ih declaredOthers formedOthers behind (by omega)]
      simp [Nat.add_assoc]

theorem transcript_illFormed (fits : structureOffset + structureLength ≤ table.sdt.length)
    {entries : List (List UInt8)} (declared : ∀ entry ∈ entries, ScopeEntry entry)
    (illFormed : ∃ entry ∈ entries, ¬WellFormed entry)
    (holds : HoldsAt table.sdt (structureOffset + offset) entries.flatten)
    (within : offset + entries.flatten.length ≤ structureLength) (rounds : Nat) :
    (transcript (table.scopeRound structureOffset structureLength) rounds offset).2 ≠ .ok () := by
  induction entries generalizing offset rounds with
  | nil => simp at illFormed
  | cons entry others ih =>
      obtain ⟨own, declaredOthers⟩ := List.forall_mem_cons.mp declared
      rw [List.flatten_cons] at holds within
      rw [List.length_append] at within
      obtain ⟨here, behind⟩ := holds.split
      rw [Nat.add_assoc] at behind
      cases rounds with
      | zero => simp [transcript]
      | succ rounds =>
          by_cases formed : WellFormed entry
          · have later : ∃ entry ∈ others, ¬WellFormed entry := by
              obtain ⟨bad, member, fails⟩ := illFormed
              rcases List.mem_cons.mp member with rfl | among
              · exact absurd formed fails
              · exact ⟨bad, among, fails⟩
            rw [transcript_next (scopeRound_entry fits here own formed (by omega))]
            exact ih declaredOthers later behind (by omega) rounds
          · obtain ⟨message, failed⟩ := scopeRound_illFormed fits here own formed (by omega)
            rw [transcript_failed failed]
            simp

theorem scopeIn_agrees {other : DmarTable} {length : Nat}
    (agree : AgreeOn table.sdt other.sdt (structureOffset + offset)
      (structureOffset + structureLength)) (large : DEVICE_SCOPE_HEADER_LENGTH ≤ length)
    (within : offset + length ≤ structureLength) :
    scopeIn other.sdt (structureOffset + offset) length =
      scopeIn table.sdt (structureOffset + offset) length := by
  obtain ⟨entry, own, others, rfl⟩ := agree.holds (Nat.le_refl _)
    (show structureOffset + offset + length ≤ structureOffset + structureLength by omega)
  rw [scopeIn_held own large, scopeIn_held others large]

theorem scopeRound_agrees {other : DmarTable}
    (agree : AgreeOn table.sdt other.sdt (structureOffset + offset)
      (structureOffset + structureLength)) :
    other.scopeRound structureOffset structureLength offset =
      table.scopeRound structureOffset structureLength offset := by
  rcases Nat.lt_or_ge offset structureLength with inside | past
  · rw [DmarTable.scopeRound_inside agree.reaches inside,
      DmarTable.scopeRound_inside agree.reachesSecond inside]
    dsimp only
    by_cases cut : structureLength < offset + DEVICE_SCOPE_HEADER_LENGTH
    · rw [if_pos cut, if_pos cut]
    have size : scopeLength other.sdt (structureOffset + offset) =
        scopeLength table.sdt (structureOffset + offset) := by
      rw [DEVICE_SCOPE_HEADER_LENGTH] at cut
      exact (agree.fieldLE_eq (by omega) (by omega)).symm
    rw [if_neg cut, if_neg cut, size]
    by_cases small : scopeLength table.sdt (structureOffset + offset) < DEVICE_SCOPE_HEADER_LENGTH
    · rw [if_pos small, if_pos small]
    rw [if_neg small, if_neg small]
    by_cases beyond : structureLength < offset + scopeLength table.sdt (structureOffset + offset)
    · rw [if_pos beyond, if_pos beyond]
    rw [if_neg beyond, if_neg beyond, scopeIn_agrees agree (by omega) (by omega)]
  · rw [DmarTable.scopeRound_done past, DmarTable.scopeRound_done past]

theorem scopeRound_onward {found : Option DmarDeviceScope} {after : Nat}
    (reaches : structureOffset + structureLength ≤ table.sdt.length)
    (ran : table.scopeRound structureOffset structureLength offset = .ok (.next found (.ok after))) :
    offset ≤ after := by
  rcases Nat.lt_or_ge offset structureLength with inside | past
  · rcases DmarTable.scopeRound_cases reaches inside with ⟨stop, spanned, within⟩ | ⟨message, failed⟩
    · rw [DmarTable.scopeRound_next reaches spanned within] at ran
      cases ran
      exact spanned.1 ▸ Nat.le_add_right _ _
    · rw [failed] at ran
      cases ran
  · rw [DmarTable.scopeRound_done past] at ran
    cases ran

theorem transcript_scopes_agree {other : DmarTable}
    (agree : AgreeOn table.sdt other.sdt (structureOffset + offset)
      (structureOffset + structureLength)) (rounds : Nat) :
    transcript (other.scopeRound structureOffset structureLength) rounds offset =
      transcript (table.scopeRound structureOffset structureLength) rounds offset := by
  induction rounds generalizing offset with
  | zero => rfl
  | succ rounds ih =>
      have same := scopeRound_agrees agree
      rw [transcript, transcript, same]
      cases ran : table.scopeRound structureOffset structureLength offset with
      | error stop => rfl
      | ok round =>
          cases round with
          | done => rfl
          | next found continuation =>
              cases continuation with
              | error stop => rfl
              | ok after =>
                  have onward := scopeRound_onward agree.reaches ran
                  dsimp only
                  rw [ih ⟨agree.reaches, agree.reachesSecond, fun index above below =>
                    agree.same index (by omega) below⟩]

end Entries

namespace Reordered

variable {first second : DmarTable} {unit : DmarDrhd} {entries others : List (List UInt8)}
  (reordered : Reordered first second unit entries others)

include reordered

theorem sizes : entries.flatten.length = others.flatten.length :=
  reordered.permuted.flatten.length_eq

theorem agreeOutside : AgreeOutside first.sdt second.sdt (unit.structureOffset + DRHD_MIN_LENGTH)
    (unit.structureOffset + DRHD_MIN_LENGTH + entries.flatten.length) := by
  obtain ⟨front, back, start, own, other⟩ := reordered.bytes
  rw [own, other, ← start]
  exact .of_middles reordered.sizes

theorem scanned_eq : second.scanned = first.scanned := by
  have agree := reordered.agreeOutside
  obtain ⟨found, among, own⟩ := List.mem_filterMap.mp reordered.member
  cases found with
  | drhd held =>
      cases own
      have within := reordered.within
      have outside : AgreeOutside first.sdt second.sdt (unit.structureOffset + DRHD_MIN_LENGTH)
          (unit.structureOffset + unit.length) :=
        ⟨agree.lengths, fun index apart => agree.same index (by omega)⟩
      rw [DmarTable.scanned, DmarTable.rounds, ← agree.lengths]
      exact DmarTable.transcript_reordered outside among
  | _ => cases own

theorem drhds_eq : second.drhds = first.drhds := by
  rw [DmarTable.drhds, reordered.scanned_eq, DmarTable.drhds]

theorem symm : Reordered second first unit others entries where
  member := reordered.drhds_eq ▸ reordered.member
  permuted := reordered.permuted.symm
  declared entry among := reordered.declared entry (reordered.permuted.mem_iff.mpr among)
  within := reordered.sizes ▸ reordered.within
  bytes := by
    obtain ⟨front, back, start, own, other⟩ := reordered.bytes
    exact ⟨front, back, start, other, own⟩

theorem holds : HoldsAt first.sdt (unit.structureOffset + DRHD_MIN_LENGTH) entries.flatten := by
  obtain ⟨front, back, start, own, _⟩ := reordered.bytes
  rw [own, ← start]
  constructor
  · simp only [List.length_append]
    omega
  · simp [window]

theorem scopes_eq (wellFormed : ∀ entry ∈ entries, WellFormed entry) :
    first.scopes unit =
      let rest := transcript (first.scopeRound unit.structureOffset unit.length)
        (unit.length + 1 - entries.length) (DRHD_MIN_LENGTH + entries.flatten.length)
      (entries.map entryScope ++ rest.1, rest.2) := by
  have fits := (DmarTable.drhd_framed reordered.member).2
  have within := reordered.within
  have few := entries_le reordered.declared
  have enough : entries.length ≤ unit.length + 1 := by omega
  have walked := transcript_entries fits reordered.declared wellFormed reordered.holds within
    (unit.length + 1 - entries.length)
  rw [Nat.add_sub_cancel' enough] at walked
  exact walked

theorem scopes_perm (wellFormed : ∀ entry ∈ entries, WellFormed entry) :
    (first.scopes unit).1.Perm (second.scopes unit).1 ∧
      (first.scopes unit).2 = (second.scopes unit).2 := by
  have othersFormed : ∀ entry ∈ others, WellFormed entry := fun entry among =>
    wellFormed entry (reordered.permuted.mem_iff.mpr among)
  have fits := (DmarTable.drhd_framed reordered.member).2
  have behind := transcript_scopes_agree (reordered.agreeOutside.behind
    (Nat.le_of_eq (Nat.add_assoc _ _ _)) fits) (unit.length + 1 - entries.length)
  rw [reordered.scopes_eq wellFormed, reordered.symm.scopes_eq othersFormed]
  dsimp only
  rw [← reordered.sizes, ← reordered.permuted.length_eq, behind]
  exact ⟨(reordered.permuted.map _).append_right _, rfl⟩

theorem scopes_fail (illFormed : ∃ entry ∈ entries, ¬WellFormed entry) :
    (first.scopes unit).2 ≠ .ok () :=
  transcript_illFormed (DmarTable.drhd_framed reordered.member).2 reordered.declared illFormed
    reordered.holds reordered.within _

end Reordered

end Iommu
