import Iommu.Vtd.FaultPolling

/-!
Draining the fault records: software cannot move the index the hardware points at,
so polling gets through the pending records exactly when that one is the only one.
-/

namespace Iommu

open MachineWord

/-- What the hardware holds of its faults: the status word and the halves of each record. -/
structure FaultView where
  status : UInt32
  low : Nat → UInt64
  high : Nat → UInt64

namespace FaultView

def Pending (view : FaultView) (index : Nat) : Prop := view.high index &&& FRCDH_FAULT ≠ 0

instance (view : FaultView) (index : Nat) : Decidable (view.Pending index) :=
  inferInstanceAs (Decidable (_ ≠ _))

def PrimaryPending (view : FaultView) : Prop := view.status &&& FSTS_PPF ≠ 0

def current (view : FaultView) : Nat := (faultRecordIndex view.status).toNat

end FaultView

variable {Registers : Type}

def VtdUnit.recordOffset (unit : VtdUnit Registers) (index : Nat) : Nat :=
  unit.info.cap.faultRecordRegisterOffset + index * FRCD_ENTRY_STRIDE

def VtdUnit.decodeRecord (unit : VtdUnit Registers) (view : FaultView) (index : Nat) : VtdFault :=
  decodePrimaryFault (unit.info.segment.getD 0) (UInt16.ofNat index) (view.low index)
    (view.high index)

/-- Hardware with the records of the unit in its window. A fault bit is cleared by writing it; the
index stays where it is for as long as a primary fault is pending. -/
structure FaultRecordHardware (unit : VtdUnit Registers) (view : Registers → FaultView) : Prop where
  readStatus : ∀ registers, ∃ after,
    unit.registers.mapping.readVo32 REG_FSTS registers = (.ok (view registers).status, after) ∧
      view after = view registers
  readLow : ∀ registers index, index < unit.info.cap.faultRecordCount → ∃ after,
    unit.registers.mapping.readVo64 (unit.recordOffset index + FRCD_LOW_OFFSET) registers =
      (.ok ((view registers).low index), after) ∧ view after = view registers
  readHigh : ∀ registers index, index < unit.info.cap.faultRecordCount → ∃ after,
    unit.registers.mapping.readVo64 (unit.recordOffset index + FRCD_HIGH_OFFSET) registers =
      (.ok ((view registers).high index), after) ∧ view after = view registers
  writeHigh : ∀ registers index value, index < unit.info.cap.faultRecordCount → ∃ after,
    unit.registers.mapping.writeVo64 (unit.recordOffset index + FRCD_HIGH_OFFSET) value registers =
      (.ok (), after) ∧
    (view after).low = (view registers).low ∧
    (view after).high = Function.update (view registers).high index
      ((view registers).high index &&& ~~~(value &&& FRCDH_FAULT)) ∧
    ((view registers).PrimaryPending → (view after).PrimaryPending →
      (view after).current = (view registers).current)
  primary : ∀ registers, (view registers).PrimaryPending ↔
    ∃ index < unit.info.cap.faultRecordCount, (view registers).Pending index

/-- Polls that each report a record whose fault bit was set and clear it, up to one that reports no
primary fault. The list holds the records reported. -/
inductive Drains (unit : VtdUnit Registers) (view : Registers → FaultView) :
    Registers → List Nat → Prop
  | stopped {start final observed} :
      unit.pollFault start = (.ok observed, final) →
      (∀ fault ∈ observed, ∀ raw, fault.reason ≠ .primary raw) → Drains unit view start []
  | reported {start middle index indices} : index < unit.info.cap.faultRecordCount →
      (view start).Pending index →
      unit.pollFault start = (.ok (some (unit.decodeRecord (view start) index)), middle) →
      ¬(view middle).Pending index → Drains unit view middle indices →
      Drains unit view start (index :: indices)

theorem VtdCapability.faultRecordRegisterOffset_le (cap : VtdCapability) :
    cap.faultRecordRegisterOffset ≤ 0x3ff * 16 := by
  rw [faultRecordRegisterOffset, UInt64.toNat_and]
  exact Nat.mul_le_mul_right 16 Nat.and_le_right

theorem VtdCapability.faultRecordCount_le (cap : VtdCapability) :
    cap.faultRecordCount ≤ 256 := by
  have field : (cap.bits >>> CAP_NFR_SHIFT &&& CAP_NFR_MASK).toNat ≤ 255 := by
    rw [UInt64.toNat_and]
    exact Nat.and_le_right
  rw [faultRecordCount]
  omega

theorem statusReason_ne_primary {status : UInt32} {reason : VtdFaultReason}
    (found : statusReason status = some reason) (raw : UInt8) : reason ≠ .primary raw := by
  rintro rfl
  simp only [statusReason] at found
  repeat' split at found
  all_goals simp at found

theorem checkedOffset_of_lt {base offset : Nat} (small : base + offset < limit) :
    checkedOffset base offset = .ok (base + offset) := by
  rw [checkedOffset, checkedAdd_of_lt small]

section Hardware

variable {unit : VtdUnit Registers} {view : Registers → FaultView}

theorem VtdUnit.recordOffset_fits {index offset : Nat}
    (inside : index < unit.info.cap.faultRecordCount) (small : offset ≤ FRCD_HIGH_OFFSET) :
    unit.recordOffset index + offset < limit := by
  have base := unit.info.cap.faultRecordRegisterOffset_le
  have count := unit.info.cap.faultRecordCount_le
  simp only [recordOffset, FRCD_ENTRY_STRIDE, FRCD_HIGH_OFFSET, limit] at *
  omega

theorem FaultRecordHardware.faultStatus_read (hardware : FaultRecordHardware unit view)
    (start : Registers) : ∃ after,
    unit.registers.faultStatus start = (.ok (view start).status, after) ∧
      view after = view start := by
  obtain ⟨after, read, kept⟩ := hardware.readStatus start
  refine ⟨after, ?_, kept⟩
  rw [VtdRegisterWindow.faultStatus, VtdRegisterWindow.read32, Effect.mapError, read]
  rfl

theorem VtdUnit.recordOffset_checked {index : Nat}
    (inside : index < unit.info.cap.faultRecordCount) :
    checkedOffset unit.info.cap.faultRecordRegisterOffset (index * FRCD_ENTRY_STRIDE) =
      .ok (unit.recordOffset index) := by
  have fits : unit.recordOffset index + 0 < limit := VtdUnit.recordOffset_fits inside (Nat.zero_le _)
  rw [Nat.add_zero, recordOffset] at fits
  exact checkedOffset_of_lt fits

theorem FaultRecordHardware.record_read (hardware : FaultRecordHardware unit view)
    (start : Registers) (inRange : (view start).current < unit.info.cap.faultRecordCount) :
    ∃ after, view after = view start ∧
      unit.pollPrimaryFault (view start).status start =
        if (view start).Pending (view start).current then
          (unit.registers.write64 (unit.recordOffset (view start).current + FRCD_HIGH_OFFSET)
              ((view start).high (view start).current) >>= fun _ =>
            pure (some (unit.decodeRecord (view start) (view start).current))) after
        else (.error .controllerUnavailable, after) := by
  generalize at_index : (view start).current = index at inRange ⊢
  have number : faultRecordIndex (view start).status = UInt16.ofNat index := by
    rw [← at_index, FaultView.current, UInt16.ofNat_toNat]
  have number_toNat : (UInt16.ofNat index).toNat = index := by
    rw [← number]
    exact at_index
  obtain ⟨first, low, lowKept⟩ := hardware.readLow start index inRange
  obtain ⟨second, high, highKept⟩ := hardware.readHigh first index inRange
  rw [lowKept] at high highKept
  have lowRead : unit.registers.read64 (unit.recordOffset index + FRCD_LOW_OFFSET) start =
      (.ok ((view start).low index), first) := by
    rw [VtdRegisterWindow.read64, Effect.mapError, low]
    rfl
  have highRead : unit.registers.read64 (unit.recordOffset index + FRCD_HIGH_OFFSET) first =
      (.ok ((view start).high index), second) := by
    rw [VtdRegisterWindow.read64, Effect.mapError, high]
    rfl
  have lowOffset : checkedOffset (unit.recordOffset index) FRCD_LOW_OFFSET = .ok _ :=
    checkedOffset_of_lt (VtdUnit.recordOffset_fits inRange (Nat.zero_le _))
  have highOffset : checkedOffset (unit.recordOffset index) FRCD_HIGH_OFFSET = .ok _ :=
    checkedOffset_of_lt (VtdUnit.recordOffset_fits inRange (Nat.le_refl _))
  refine ⟨second, highKept, ?_⟩
  simp only [VtdUnit.pollPrimaryFault, number, number_toNat, if_neg (Nat.not_le_of_lt inRange),
    Effect.bind_apply, Effect.ofExcept_apply, VtdUnit.recordOffset_checked inRange, lowOffset,
    lowRead, highOffset, highRead]
  by_cases pending : (view start).Pending index
  · rw [if_pos pending, if_neg pending]
    rfl
  · rw [if_neg pending, if_pos (Decidable.of_not_not pending), Effect.fail_apply]

theorem FaultRecordHardware.pollFault_apply (hardware : FaultRecordHardware unit view)
    {start : Registers} (pending : (view start).PrimaryPending)
    (inRange : (view start).current < unit.info.cap.faultRecordCount) :
    ∃ after, view after = view start ∧
      unit.pollFault start =
        if (view start).Pending (view start).current then
          (unit.registers.write64 (unit.recordOffset (view start).current + FRCD_HIGH_OFFSET)
              ((view start).high (view start).current) >>= fun _ =>
            pure (some (unit.decodeRecord (view start) (view start).current))) after
        else (.error .controllerUnavailable, after) := by
  obtain ⟨middle, read, kept⟩ := hardware.faultStatus_read start
  rw [← kept] at inRange
  obtain ⟨after, recordKept, polled⟩ := hardware.record_read middle inRange
  rw [kept] at recordKept polled
  refine ⟨after, recordKept, ?_⟩
  rw [FaultView.PrimaryPending] at pending
  rw [VtdUnit.pollFault, Effect.bind_of_ok read, if_pos pending]
  exact polled

theorem FaultRecordHardware.pollFault_stuck (hardware : FaultRecordHardware unit view)
    {start : Registers} (pending : (view start).PrimaryPending)
    (inRange : (view start).current < unit.info.cap.faultRecordCount)
    (clear : ¬(view start).Pending (view start).current) :
    ∃ after, unit.pollFault start = (.error .controllerUnavailable, after) := by
  obtain ⟨after, _, polled⟩ := hardware.pollFault_apply pending inRange
  rw [if_neg clear] at polled
  exact ⟨after, polled⟩

theorem FaultRecordHardware.pollFault_reports (hardware : FaultRecordHardware unit view)
    {start : Registers} (pending : (view start).PrimaryPending)
    (inRange : (view start).current < unit.info.cap.faultRecordCount)
    (set : (view start).Pending (view start).current) :
    ∃ middle, unit.pollFault start =
        (.ok (some (unit.decodeRecord (view start) (view start).current)), middle) ∧
      (∀ index, (view middle).Pending index ↔
        index ≠ (view start).current ∧ (view start).Pending index) ∧
      ((view middle).PrimaryPending → (view middle).current = (view start).current) := by
  obtain ⟨after, kept, polled⟩ := hardware.pollFault_apply pending inRange
  rw [if_pos set] at polled
  obtain ⟨middle, wrote, _, high, fixed⟩ :=
    hardware.writeHigh after (view start).current ((view start).high (view start).current) inRange
  rw [kept] at high fixed
  refine ⟨middle, ?_, ?_, fixed pending⟩
  · rw [polled]
    apply Effect.bind_of_ok
    rw [VtdRegisterWindow.write64, Effect.mapError, wrote]
    rfl
  · intro index
    rw [FaultView.Pending, high]
    by_cases same : index = (view start).current
    · rw [same, Function.update_self, cleared_and64 UInt64.and_self]
      simp
    · rw [Function.update_of_ne same]
      exact (and_iff_right same).symm

theorem FaultRecordHardware.pollFault_quiet (hardware : FaultRecordHardware unit view)
    {start : Registers} (none : ¬(view start).PrimaryPending) :
    ∃ observed final, unit.pollFault start = (.ok observed, final) ∧
      ∀ fault ∈ observed, ∀ raw, fault.reason ≠ .primary raw := by
  obtain ⟨middle, read, _⟩ := hardware.faultStatus_read start
  rw [FaultView.PrimaryPending] at none
  rw [VtdUnit.pollFault, Effect.bind_of_ok read, if_neg none]
  cases decoded : decodeFaultStatus (view start).status with
  | none => exact ⟨_, middle, rfl, fun fault observed => nomatch observed⟩
  | some fault =>
      refine ⟨some fault, (unit.clearFaultStatus (view start).status middle).2, ?_, ?_⟩
      · apply Effect.bind_of_ok
        rw [VtdUnit.clearFaultStatus]
        split <;> rfl
      · rintro _ ⟨⟩ raw
        obtain ⟨reason, found, rfl⟩ := Option.map_eq_some_iff.mp decoded
        exact statusReason_ne_primary found raw

theorem FaultRecordHardware.drains_stuck (hardware : FaultRecordHardware unit view)
    {start : Registers} {indices : List Nat} (pending : (view start).PrimaryPending)
    (inRange : (view start).current < unit.info.cap.faultRecordCount)
    (clear : ¬(view start).Pending (view start).current) : ¬Drains unit view start indices := by
  obtain ⟨after, stuck⟩ := hardware.pollFault_stuck pending inRange clear
  intro drains
  cases drains with
  | stopped polled _ =>
      rw [stuck] at polled
      simp at polled
  | reported _ _ polled _ _ =>
      rw [stuck] at polled
      simp at polled

theorem FaultRecordHardware.drains_only_current (hardware : FaultRecordHardware unit view)
    {start : Registers} {first : Nat} {indices : List Nat}
    (inRange : (view start).current < unit.info.cap.faultRecordCount)
    (drains : Drains unit view start (first :: indices)) (index : Nat)
    (inside : index < unit.info.cap.faultRecordCount) :
    (view start).Pending index ↔ index = (view start).current := by
  cases drains with
  | reported within set polled _ rest =>
      have pending := (hardware.primary start).mpr ⟨first, within, set⟩
      have current : (view start).Pending (view start).current := by
        by_contra clear
        exact hardware.drains_stuck pending inRange clear (.reported within set polled ‹_› rest)
      constructor
      · intro other
        by_contra apart
        obtain ⟨middle, again, left, fixed⟩ := hardware.pollFault_reports pending inRange current
        rw [again] at polled
        obtain ⟨_, rfl⟩ := Prod.mk.inj polled
        have still := (hardware.primary middle).mpr ⟨index, inside, (left index).mpr ⟨apart, other⟩⟩
        have same := fixed still
        refine hardware.drains_stuck still (same ▸ inRange) ?_ rest
        rw [same, left]
        exact fun both => both.1 rfl
      · rintro rfl
        exact current

theorem FaultRecordHardware.drains_single (hardware : FaultRecordHardware unit view)
    {start : Registers} (inRange : (view start).current < unit.info.cap.faultRecordCount)
    (single : ∀ index < unit.info.cap.faultRecordCount,
      (view start).Pending index ↔ index = (view start).current) :
    Drains unit view start [(view start).current] := by
  have set := (single _ inRange).mpr rfl
  have pending := (hardware.primary start).mpr ⟨_, inRange, set⟩
  obtain ⟨middle, polled, left, _⟩ := hardware.pollFault_reports pending inRange set
  have quiet : ¬(view middle).PrimaryPending := by
    rw [hardware.primary]
    rintro ⟨index, inside, other⟩
    rw [left] at other
    exact other.1 ((single index inside).mp other.2)
  obtain ⟨observed, final, stopped, others⟩ := hardware.pollFault_quiet quiet
  refine .reported inRange set polled ?_ (.stopped stopped others)
  rw [left]
  exact fun both => both.1 rfl

end Hardware

/-- Polling reports each pending record once and then no primary fault exactly when the record the
hardware points at is pending and no other is. -/
theorem fault_records_drained_iff {unit : VtdUnit Registers} {view : Registers → FaultView}
    (hardware : FaultRecordHardware unit view) (start : Registers)
    (inRange : (view start).current < unit.info.cap.faultRecordCount)
    (some_pending : ∃ index < unit.info.cap.faultRecordCount, (view start).Pending index) :
    (∃ indices, Drains unit view start indices ∧ indices.Nodup ∧
      ∀ index, index ∈ indices ↔
        index < unit.info.cap.faultRecordCount ∧ (view start).Pending index) ↔
    ∀ index < unit.info.cap.faultRecordCount,
      (view start).Pending index ↔ index = (view start).current := by
  constructor
  · rintro ⟨indices, drains, _, all⟩
    cases indices with
    | nil =>
        obtain ⟨index, inside, set⟩ := some_pending
        exact absurd ((all index).mpr ⟨inside, set⟩) List.not_mem_nil
    | cons first rest => exact hardware.drains_only_current inRange drains
  · intro single
    refine ⟨_, hardware.drains_single inRange single, by simp, ?_⟩
    intro index
    rw [List.mem_singleton]
    constructor
    · rintro rfl
      exact ⟨inRange, (single _ inRange).mpr rfl⟩
    · rintro ⟨inside, set⟩
      exact (single index inside).mp set

abbrev FaultBank := Nat → UInt64

namespace FaultBank

def view (bank : FaultBank) : FaultView where
  status := if bank 0 &&& FRCDH_FAULT ≠ 0 ∨ bank 1 &&& FRCDH_FAULT ≠ 0 then FSTS_PPF else 0
  low _ := 0
  high := bank

def window : VtdRegisterWindow FaultBank where
  mapping := {
    range := .fromStartSize 0xfed90000 0x1000 registerPage_bounded
    readVo32 := fun _ => .get fun bank => bank.view.status
    readVo64 := fun offset => .get fun bank =>
      if offset % 16 = 8 then bank ((offset - 0x200) / 16) else 0
    writeVo32 := fun _ _ => pure ()
    writeVo64 := fun offset value => .modify fun bank =>
      let index := (offset - 0x200) / 16
      Function.update bank index (bank index &&& ~~~(value &&& FRCDH_FAULT))
    writeVolatile64 := fun _ _ bank => bank
  }

def unit : VtdUnit FaultBank :=
  .new ⟨some 0, ⟨(1 : UInt64) <<< 40 ||| (0x20 : UInt64) <<< 24⟩, ⟨0⟩⟩ window .sample

theorem lt_two_cases {index : Nat} (inside : index < unit.info.cap.faultRecordCount) :
    index = 0 ∨ index = 1 := by
  have two : unit.info.cap.faultRecordCount = 2 := by decide
  omega

theorem current_eq (bank : FaultBank) : bank.view.current = 0 := by
  rw [FaultView.current, view]
  dsimp only
  split <;> decide

theorem hardware : FaultRecordHardware unit view where
  readStatus bank := ⟨bank, rfl, rfl⟩
  readLow bank index inside := by
    rcases lt_two_cases inside with rfl | rfl
    · exact ⟨bank, rfl, rfl⟩
    · exact ⟨bank, rfl, rfl⟩
  readHigh bank index inside := by
    rcases lt_two_cases inside with rfl | rfl
    · exact ⟨bank, rfl, rfl⟩
    · exact ⟨bank, rfl, rfl⟩
  writeHigh bank index value inside := by
    have fixed : ∀ after : FaultBank, after.view.current = bank.view.current := by
      intro after
      rw [current_eq, current_eq]
    rcases lt_two_cases inside with rfl | rfl
    · exact ⟨_, rfl, rfl, rfl, fun _ _ => fixed _⟩
    · exact ⟨_, rfl, rfl, rfl, fun _ _ => fixed _⟩
  primary bank := by
    have shown : bank.view.PrimaryPending ↔ bank.view.Pending 0 ∨ bank.view.Pending 1 := by
      rw [FaultView.PrimaryPending, view]
      dsimp only
      split
      · next set => exact ⟨fun _ => set, fun _ => by decide⟩
      · next clear => exact ⟨fun absent => (absent rfl).elim, fun set => (clear set).elim⟩
    rw [shown]
    constructor
    · rintro (set | set)
      · exact ⟨0, by decide, set⟩
      · exact ⟨1, by decide, set⟩
    · rintro ⟨index, inside, set⟩
      rcases lt_two_cases inside with rfl | rfl
      · exact Or.inl set
      · exact Or.inr set

end FaultBank

theorem fault_records_drained_single : ∃ bank : FaultBank, bank.view.Pending 0 ∧
    ∃ indices, Drains FaultBank.unit FaultBank.view bank indices ∧ indices.Nodup ∧
      ∀ index, index ∈ indices ↔
        index < FaultBank.unit.info.cap.faultRecordCount ∧ bank.view.Pending index := by
  refine ⟨Function.update (fun _ => 0) 0 FRCDH_FAULT, by decide, ?_⟩
  apply (fault_records_drained_iff FaultBank.hardware _ (by decide) ⟨0, by decide, by decide⟩).mpr
  intro index inside
  rcases FaultBank.lt_two_cases inside with rfl | rfl
  · decide
  · decide

/-- With both records pending, the second poll looks at the first record again and fails. -/
theorem second_fault_record_stuck : ∃ bank : FaultBank, ∃ fault middle,
    bank.view.Pending 0 ∧ bank.view.Pending 1 ∧
      FaultBank.unit.pollFault bank = (.ok (some fault), middle) ∧ middle.view.Pending 1 ∧
      FaultBank.unit.pollFault middle = (.error .controllerUnavailable, middle) :=
  ⟨fun _ => FRCDH_FAULT, _, Function.update (fun _ => FRCDH_FAULT) 0 0, by decide, by decide, rfl,
    by decide, rfl⟩

end Iommu
