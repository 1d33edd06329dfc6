import Iommu.Dmar.Coverage
import Iommu.Dmar.Totality

/-!
How the loops over a table and over the scopes of a unit fail: always with a text, so
that a full set is told from any failure of theirs.
-/

namespace Iommu

open FirmwareTable

theorem inclusivePhysRange_malformation (base last : UInt64) (addrError limitError : String) :
    (inclusivePhysRange base last addrError limitError).FailsWith Malformation := by
  rw [inclusivePhysRange]
  split
  · exact malformed_malformation _
  · split
    · exact malformed_malformation _
    · split
      · exact malformed_malformation _
      · rw [AddrRange.new]
        split
        · exact .ok _
        · exact .panicked

namespace DmarTable

variable (table : DmarTable) (offset length : Nat)

theorem parseDrhd_malformation : (table.parseDrhd offset length).FailsWith Malformation :=
  .ite (malformed_malformation _) <|
    .bind (table.readU8_malformation _ _) fun _ =>
    .bind (table.readU16_malformation _ _) fun _ =>
    .bind (table.readU64_malformation _ _) fun _ =>
    .bind (mmioRegisterWindow_malformation _ _ _ _) fun _ => .pure _

theorem parseAndd_malformation : (table.parseAndd offset length).FailsWith Malformation :=
  .ite (malformed_malformation _) <|
    .bind (table.readU8_malformation _ _) fun _ =>
    .bind (.sum _ _) fun _ =>
    .bind (.sum _ _) fun _ =>
    .bind (sliceOf_malformation _ _ _) fun _ => .pure _

theorem parseRmrr_malformation : (table.parseRmrr offset length).FailsWith Malformation :=
  .ite (malformed_malformation _) <|
    .bind (table.readU64_malformation _ _) fun _ =>
    .bind (table.readU64_malformation _ _) fun _ =>
    .ite (malformed_malformation _) <|
      .bind (table.readU16_malformation _ _) fun _ =>
      .bind (inclusivePhysRange_malformation _ _ _ _) fun _ => .pure _

theorem parseAtsr_malformation : (table.parseAtsr offset length).FailsWith Malformation :=
  .ite (malformed_malformation _) <|
    .bind (table.readU8_malformation _ _) fun _ =>
    .bind (table.readU16_malformation _ _) fun _ => .pure _

theorem parseRhsa_malformation : (table.parseRhsa offset length).FailsWith Malformation :=
  .ite (malformed_malformation _) <|
    .bind (table.readU64_malformation _ _) fun _ =>
    .bind (mmioRegisterWindow_malformation _ _ _ _) fun _ =>
    .bind (table.readU32_malformation _ _) fun _ => .pure _

theorem parseSatc_malformation : (table.parseSatc offset length).FailsWith Malformation :=
  .ite (malformed_malformation _) <|
    .bind (table.readU8_malformation _ _) fun _ =>
    .bind (table.readU16_malformation _ _) fun _ => .pure _

theorem parseSidp_malformation : (table.parseSidp offset length).FailsWith Malformation :=
  .ite (malformed_malformation _) <|
    .bind (table.readU16_malformation _ _) fun _ => .pure _

theorem parseStructure_malformation (kind : UInt16) :
    (table.parseStructure offset length kind).FailsWith Malformation :=
  .ite (.map (table.parseDrhd_malformation _ _)) <|
  .ite (.map (table.parseRmrr_malformation _ _)) <|
  .ite (.map (table.parseAtsr_malformation _ _)) <|
  .ite (.map (table.parseRhsa_malformation _ _)) <|
  .ite (.map (table.parseAndd_malformation _ _)) <|
  .ite (.map (table.parseSatc_malformation _ _)) <|
  .ite (.map (table.parseSidp_malformation _ _)) (.ok _)

theorem itemRound_malformation (state : Nat) :
    (itemRound table.nextStructure state).FailsWith Malformation :=
  Framing.itemRound_malformation table.framing_readable table.parseStructure_malformation state

theorem scanned_malformation : table.scanned.2.FailsWith Malformation := by
  refine transcript_failsWith table.itemRound_malformation ?_ _ _
  intro state item after ran
  rw [itemRound] at ran
  split at ran
  · cases ran
  · cases ran
    exact .ok _
  · cases ran

variable {table offset length} {unit : DmarDrhd}

theorem parseStructure_eq_drhd {kind : UInt16}
    (parsed : table.parseStructure offset length kind = .ok (.drhd unit)) :
    kind = DMAR_DRHD ∧ table.parseDrhd offset length = .ok unit := by
  have elsewhere : ∀ {Value : Type} {construct : Value → DmarStructure} {parse : Parse DmarError Value},
      (∀ value, construct value ≠ .drhd unit) → construct <$> parse ≠ .ok (.drhd unit) := by
    intro Value construct parse apart mapped
    obtain ⟨value, _, same⟩ := Parse.map_eq_ok.mp mapped
    exact apart value same
  rw [parseStructure] at parsed
  split at parsed
  · next drhd =>
    obtain ⟨found, ran, same⟩ := Parse.map_eq_ok.mp parsed
    cases same
    exact ⟨drhd, ran⟩
  · exfalso
    split at parsed
    · exact elsewhere (fun _ => DmarStructure.noConfusion) parsed
    split at parsed
    · exact elsewhere (fun _ => DmarStructure.noConfusion) parsed
    split at parsed
    · exact elsewhere (fun _ => DmarStructure.noConfusion) parsed
    split at parsed
    · exact elsewhere (fun _ => DmarStructure.noConfusion) parsed
    split at parsed
    · exact elsewhere (fun _ => DmarStructure.noConfusion) parsed
    split at parsed
    · exact elsewhere (fun _ => DmarStructure.noConfusion) parsed
    · cases parsed

theorem itemRound_drhd {state : Nat} {after : Parse DmarError Nat}
    (found : itemRound table.nextStructure state = .ok (.next (some (.drhd unit)) after)) :
    unit.structureOffset = state ∧ after = .ok (state + unit.length) ∧
      unit.length = table.framing.declared state ∧ DRHD_MIN_LENGTH ≤ unit.length ∧
      state + unit.length ≤ table.sdt.length ∧ table.kindOf state = DMAR_DRHD ∧
      table.parseDrhd state unit.length = .ok unit := by
  obtain ⟨frames, stepped, item, own, parsed⟩ :=
    (Framing.itemRound_eq_next table.framing_readable).mp found
  cases own
  obtain ⟨kind, ran⟩ := parseStructure_eq_drhd parsed
  obtain ⟨offset, size, large⟩ := parseDrhd_region ran
  rw [size]
  exact ⟨offset, stepped, rfl, large, frames.2, kind, ran⟩

theorem drhd_framed (member : unit ∈ table.drhds) :
    DRHD_MIN_LENGTH ≤ unit.length ∧ unit.structureOffset + unit.length ≤ table.sdt.length := by
  obtain ⟨found, among, own⟩ := List.mem_filterMap.mp member
  cases found with
  | drhd held =>
      cases own
      obtain ⟨state, after, ran⟩ := mem_transcript among
      obtain ⟨rfl, _, _, large, fits, _, _⟩ := itemRound_drhd ran
      exact ⟨large, fits⟩
  | _ => cases own

theorem scopes_ends (member : unit ∈ table.drhds) :
    (table.scopes unit).2 = .ok () ∨ ∃ message, (table.scopes unit).2 = malformed message := by
  obtain ⟨large, fits⟩ := drhd_framed member
  obtain ⟨spans, stop, outcome, _, _, found, ended⟩ :=
    transcript_tiles fits large (show unit.length - DRHD_MIN_LENGTH < unit.length + 1 by omega)
  rw [scopes, deviceScopes, found]
  exact ended.imp_left And.left

end DmarTable

end Iommu
