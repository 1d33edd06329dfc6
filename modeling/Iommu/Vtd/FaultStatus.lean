import Iommu.Vtd.FaultPolling

/-!
Draining the fault status: a poll clears every status bit and reports one of them,
so nothing is lost exactly when at most one was set.
-/

namespace Iommu

open MachineWord

variable {Registers : Type} {unit : VtdUnit Registers}

/-- Hardware whose fault status clears the error bits that are written as ones. -/
structure FaultStatusRegister (window : VtdRegisterWindow Registers) (status : Registers → UInt32) :
    Prop where
  read : ∀ registers, ∃ after,
    window.mapping.readVo32 REG_FSTS registers = (.ok (status registers), after) ∧
      status after = status registers
  write : ∀ registers bits, ∃ after,
    window.mapping.writeVo32 REG_FSTS bits registers = (.ok (), after) ∧
      status after = status registers &&& ~~~(bits &&& FSTS_CLEARED)

inductive Polls (unit : VtdUnit Registers) : Registers → List VtdFault → Registers → Prop
  | done {start final} : unit.pollFault start = (.ok none, final) → Polls unit start [] final
  | more {start middle final fault faults} :
      unit.pollFault start = (.ok (some fault), middle) → Polls unit middle faults final →
      Polls unit start (fault :: faults) final

/-- The bits of the status and what each is reported as, in the order they are looked at. -/
def statusReasons : List (UInt32 × VtdFaultReason) :=
  [(FSTS_PFO, .primaryFaultOverflow), (FSTS_AFO, .advancedFaultOverflow),
    (FSTS_APF, .advancedPendingFault), (FSTS_IQE, .invalidationQueueError),
    (FSTS_ICE, .invalidationCompletionError), (FSTS_ITE, .invalidationTimeout),
    (FSTS_PRO, .pageRequestOverflow)]

def AtMostOneReason (status : UInt32) : Prop :=
  ∀ first ∈ statusReasons, ∀ second ∈ statusReasons,
    status &&& first.1 ≠ 0 → status &&& second.1 ≠ 0 → first = second

instance (status : UInt32) : Decidable (AtMostOneReason status) :=
  inferInstanceAs (Decidable (∀ first ∈ statusReasons, ∀ second ∈ statusReasons,
    status &&& first.1 ≠ 0 → status &&& second.1 ≠ 0 → first = second))

theorem statusReason_eq_find (status : UInt32) :
    statusReason status = (statusReasons.find? fun pair => status &&& pair.1 ≠ 0).map Prod.snd := by
  simp only [statusReason, statusReasons, List.find?_cons, List.find?_nil]
  repeat' split
  all_goals simp_all

theorem statusReasons_cleared : ∀ pair ∈ statusReasons, FSTS_CLEARED &&& pair.1 = pair.1 := by
  decide

theorem statusReasons_apart : ∀ first ∈ statusReasons, ∀ second ∈ statusReasons,
    first.2 = second.2 → first = second := by
  decide

theorem statusReason_eq_none {status : UInt32}
    (clear : ∀ pair ∈ statusReasons, status &&& pair.1 = 0) : statusReason status = none := by
  rw [statusReason_eq_find, Option.map_eq_none_iff, List.find?_eq_none]
  intro pair member set
  exact (of_decide_eq_true set) (clear pair member)

theorem statusReason_cleared (status : UInt32) :
    statusReason (status &&& ~~~(status &&& FSTS_CLEARED)) = none := by
  apply statusReason_eq_none
  intro pair member
  exact cleared_and (statusReasons_cleared pair member)

theorem statusReason_complete_iff (status : UInt32) :
    (∀ pair ∈ statusReasons, status &&& pair.1 ≠ 0 → statusReason status = some pair.2) ↔
      AtMostOneReason status := by
  constructor
  · intro complete first firstMember second secondMember firstSet secondSet
    apply statusReasons_apart first firstMember second secondMember
    apply Option.some.inj
    rw [← complete first firstMember firstSet, ← complete second secondMember secondSet]
  · intro single pair member set
    rw [statusReason_eq_find]
    cases found : statusReasons.find? fun pair => status &&& pair.1 ≠ 0 with
    | none =>
        have clear := List.find?_eq_none.mp found pair member
        exact absurd (decide_eq_true set) clear
    | some first =>
        have firstSet : status &&& first.1 ≠ 0 := by simpa using List.find?_some found
        rw [single first (List.mem_of_find?_eq_some found) pair member firstSet set]
        rfl

section Hardware

variable {status : Registers → UInt32}

theorem FaultStatusRegister.faultStatus_read
    (hardware : FaultStatusRegister unit.registers status) (start : Registers) :
    ∃ after, unit.registers.faultStatus start = (.ok (status start), after) ∧
      status after = status start := by
  obtain ⟨after, read, kept⟩ := hardware.read start
  refine ⟨after, ?_, kept⟩
  rw [VtdRegisterWindow.faultStatus, VtdRegisterWindow.read32, Effect.mapError, read]
  rfl

theorem FaultStatusRegister.clearFaultStatus_clears
    (hardware : FaultStatusRegister unit.registers status) (start : Registers) :
    ∃ after, unit.clearFaultStatus (status start) start = (.ok (), after) ∧
      status after = status start &&& ~~~(status start &&& FSTS_CLEARED) := by
  rw [VtdUnit.clearFaultStatus]
  split
  · obtain ⟨after, written, cleared⟩ := hardware.write start (status start &&& FSTS_CLEARED)
    refine ⟨after, ?_, ?_⟩
    · rw [Effect.ignore, VtdRegisterWindow.write32, Effect.mapError, written]
    · rw [cleared, UInt32.and_assoc, UInt32.and_self]
  · next none =>
    refine ⟨start, rfl, ?_⟩
    rw [Decidable.of_not_not none]
    exact (UInt32.and_neg_one).symm

theorem FaultStatusRegister.pollFault_none
    (hardware : FaultStatusRegister unit.registers status) {start : Registers}
    (noPrimary : status start &&& FSTS_PPF = 0) (decoded : decodeFaultStatus (status start) = none) :
    ∃ final, unit.pollFault start = (.ok none, final) := by
  obtain ⟨after, read, _⟩ := hardware.faultStatus_read start
  refine ⟨after, ?_⟩
  rw [VtdUnit.pollFault, Effect.bind_of_ok read, if_neg (not_not_intro noPrimary), decoded]
  rfl

theorem FaultStatusRegister.pollFault_some
    (hardware : FaultStatusRegister unit.registers status) {start : Registers} {fault : VtdFault}
    (noPrimary : status start &&& FSTS_PPF = 0)
    (decoded : decodeFaultStatus (status start) = some fault) :
    ∃ middle, unit.pollFault start = (.ok (some fault), middle) ∧
      status middle = status start &&& ~~~(status start &&& FSTS_CLEARED) := by
  obtain ⟨after, read, kept⟩ := hardware.faultStatus_read start
  obtain ⟨middle, cleared, left⟩ := hardware.clearFaultStatus_clears after
  rw [kept] at cleared left
  refine ⟨middle, ?_, left⟩
  rw [VtdUnit.pollFault, Effect.bind_of_ok read, if_neg (not_not_intro noPrimary), decoded]
  exact Effect.bind_of_ok cleared

theorem decodeFaultStatus_eq_none {word : UInt32} (quiet : statusReason word = none) :
    decodeFaultStatus word = none := by
  rw [decodeFaultStatus, quiet, Option.map_none]

theorem FaultStatusRegister.pollFault_again
    (hardware : FaultStatusRegister unit.registers status) {start middle : Registers}
    (noPrimary : status start &&& FSTS_PPF = 0)
    (left : status middle = status start &&& ~~~(status start &&& FSTS_CLEARED)) :
    ∃ final, unit.pollFault middle = (.ok none, final) := by
  apply hardware.pollFault_none
  · rw [left, UInt32.and_assoc, UInt32.and_comm _ FSTS_PPF, ← UInt32.and_assoc, noPrimary,
      UInt32.zero_and]
  · rw [left]
    exact decodeFaultStatus_eq_none (statusReason_cleared _)

theorem FaultStatusRegister.polls (hardware : FaultStatusRegister unit.registers status)
    {start : Registers} (noPrimary : status start &&& FSTS_PPF = 0) :
    ∃ final, Polls unit start (decodeFaultStatus (status start)).toList final := by
  cases decoded : decodeFaultStatus (status start) with
  | none =>
      obtain ⟨final, polled⟩ := hardware.pollFault_none noPrimary decoded
      exact ⟨final, .done polled⟩
  | some fault =>
      obtain ⟨middle, polled, left⟩ := hardware.pollFault_some noPrimary decoded
      obtain ⟨final, again⟩ := hardware.pollFault_again noPrimary left
      exact ⟨final, .more polled (.done again)⟩

theorem Polls.unique {start final other : Registers} {faults others : List VtdFault}
    (polls : Polls unit start faults final) (again : Polls unit start others other) :
    faults = others := by
  induction polls generalizing others other with
  | done polled =>
      cases again with
      | done => rfl
      | more reported =>
          rw [polled] at reported
          simp at reported
  | more polled _ ih =>
      cases again with
      | done stopped =>
          rw [polled] at stopped
          simp at stopped
      | more reported rest =>
          rw [polled] at reported
          simp only [Prod.mk.injEq, Except.ok.injEq, Option.some.injEq] at reported
          obtain ⟨rfl, rfl⟩ := reported
          rw [ih rest]

end Hardware

theorem exists_decoded_iff (status : UInt32) (reason : VtdFaultReason) :
    (∃ fault ∈ (decodeFaultStatus status).toList, fault.reason = reason) ↔
      statusReason status = some reason := by
  simp [decodeFaultStatus, and_comm]

/-- Polling ends, and reports every bit that was set exactly when no two were. -/
theorem fault_status_reported_iff {status : Registers → UInt32}
    (hardware : FaultStatusRegister unit.registers status) (start : Registers)
    (noPrimary : status start &&& FSTS_PPF = 0) :
    (∃ faults final, Polls unit start faults final) ∧
      ∀ faults final, Polls unit start faults final →
        ((∀ pair ∈ statusReasons, status start &&& pair.1 ≠ 0 →
            ∃ fault ∈ faults, fault.reason = pair.2) ↔ AtMostOneReason (status start)) := by
  obtain ⟨last, polls⟩ := hardware.polls noPrimary
  refine ⟨⟨_, last, polls⟩, ?_⟩
  intro faults final again
  rw [again.unique polls, ← statusReason_complete_iff]
  simp only [exists_decoded_iff]

def VtdRegisterWindow.faultStatusOnly : VtdRegisterWindow UInt32 where
  mapping := {
    range := .fromStartSize 0xfed90000 0x1000 registerPage_bounded
    readVo32 := fun _ => .get id
    readVo64 := fun _ => pure 0
    writeVo32 := fun _ bits => .modify fun status => status &&& ~~~(bits &&& FSTS_CLEARED)
    writeVo64 := fun _ _ => pure ()
    writeVolatile64 := fun _ _ status => status
  }

def VtdUnit.faultSample : VtdUnit UInt32 :=
  .new ⟨some 0, ⟨0⟩, ⟨0⟩⟩ .faultStatusOnly .sample

theorem faultSample_register : FaultStatusRegister VtdUnit.faultSample.registers id :=
  ⟨fun status => ⟨status, rfl, rfl⟩, fun _ _ => ⟨_, rfl, rfl⟩⟩

theorem fault_status_reported_sample :
    ∃ faults final, Polls .faultSample FSTS_IQE faults final ∧
      ∀ pair ∈ statusReasons, FSTS_IQE &&& pair.1 ≠ 0 →
        ∃ fault ∈ faults, fault.reason = pair.2 := by
  obtain ⟨⟨faults, final, polls⟩, reported⟩ :=
    fault_status_reported_iff faultSample_register FSTS_IQE rfl
  exact ⟨faults, final, polls, (reported faults final polls).mpr (by decide)⟩

/-- An overflow hides a queue error that is pending with it, and both are cleared. -/
theorem fault_status_lost : ∃ fault final, ∃ lost ∈ statusReasons,
    Polls .faultSample (FSTS_PFO ||| FSTS_IQE) [fault] final ∧
      (FSTS_PFO ||| FSTS_IQE) &&& lost.1 ≠ 0 ∧ fault.reason ≠ lost.2 ∧ final = (0 : UInt32) := by
  refine ⟨_, _, (FSTS_IQE, .invalidationQueueError), by decide, .more rfl (.done rfl), ?_⟩
  decide

end Iommu
