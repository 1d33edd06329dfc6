import Iommu.Vtd.GlobalCommand

/-!
The registers that tell the hardware where a table is and how large it is. Each holds the base of
the table in its upper bits and the logarithm of the number of entries in its lowest ones, with a
bias and a width of its own.
-/

namespace Iommu

open MachineWord

section Pointers

variable {start : Nat} {fields : UInt64}

theorem toNat_pointer (bounded : start < limit) (aligned : start % 0x1000 = 0)
    (small : fields.toNat < 0x1000) :
    (UInt64.ofNat start &&& PAGE_ADDR_MASK ||| fields).toNat = start + fields.toNat := by
  have held : (UInt64.ofNat start).toNat = start := UInt64.toNat_ofNat_of_lt' bounded
  rw [toNat_masked_or_flags (UInt64.ofNat start) 12 52 rfl small, held]
  rw [limit] at bounded
  omega

theorem toNat_pointer_base (bounded : start < limit) (aligned : start % 0x1000 = 0)
    (small : fields.toNat < 0x1000) :
    ((UInt64.ofNat start &&& PAGE_ADDR_MASK ||| fields) &&& PAGE_ADDR_MASK).toNat = start := by
  rw [toNat_and_fieldMask _ 12 52 rfl, toNat_pointer bounded aligned small]
  rw [limit] at bounded
  omega

end Pointers

section QueueAddress

variable {backing : CommandQueueBacking}

theorem queueEntries_exponent (several : QI_MIN_ENTRIES ≤ backing.entryCount) :
    ∃ exponent < 64, backing.entryCount = 256 * 2 ^ exponent ∧
      trailingZeros (backing.entryCount / QI_MIN_ENTRIES) = exponent := by
  obtain ⟨exponent, power⟩ := backing.countPower
  have wide := backing.entryBytes_pos
  have bounded : backing.entryCount < 2 ^ 64 :=
    Nat.lt_of_le_of_lt (Nat.le_mul_of_pos_right _ wide) backing.sizeBound
  rw [power] at bounded several
  have below : exponent < 64 := (Nat.pow_lt_pow_iff_right (by decide)).mp bounded
  have above : 8 ≤ exponent := (Nat.pow_le_pow_iff_right (by decide : 1 < 2)).mp several
  have split : 2 ^ exponent = 256 * 2 ^ (exponent - 8) := by
    rw [← Nat.pow_add 2 8, Nat.add_sub_cancel' above]
  refine ⟨exponent - 8, by omega, power.trans split, ?_⟩
  rw [power, split, QI_MIN_ENTRIES, Nat.mul_div_cancel_left _ (by decide)]
  exact trailingZeros_two_pow (by omega)

theorem queuedInvalidationTableAddress_eq_ok {value : UInt64} :
    VtdRegisterWindow.queuedInvalidationTableAddress backing = .ok value ↔
      (backing.entryBytes = 16 ∧ 256 ≤ backing.entryCount ∧ backing.phys.start % 0x1000 = 0 ∧
        trailingZeros (backing.entryCount / QI_MIN_ENTRIES) ≤ 7) ∧
      UInt64.ofNat backing.phys.start &&& PAGE_ADDR_MASK |||
        UInt64.ofNat (trailingZeros (backing.entryCount / QI_MIN_ENTRIES)) = value := by
  have power := backing.countPower
  simp only [VtdRegisterWindow.queuedInvalidationTableAddress, power, not_true_eq_false, or_false]
  split
  · next width => simp [show backing.entryBytes ≠ 16 from width]
  · next width =>
    split
    · next few => simp [Nat.not_le.mpr (show backing.entryCount < 256 from few)]
    · next several =>
      split
      · next unaligned => simp [show backing.phys.start % 0x1000 ≠ 0 from unaligned]
      · next aligned =>
        split
        · next large => simp [Nat.not_le.mpr (show 7 < _ from large)]
        · next small =>
          rw [Except.ok.injEq, iff_and_self]
          exact fun _ => ⟨not_not.mp width, Nat.not_lt.mp several, not_not.mp aligned,
            Nat.not_lt.mp small⟩

theorem queueExponent_le_iff {exponent : Nat} (entries : backing.entryCount = 256 * 2 ^ exponent) :
    exponent ≤ 7 ↔ backing.entryCount ≤ 32768 := by
  rw [entries]
  constructor
  · intro small
    exact Nat.mul_le_mul_left 256 (Nat.pow_le_pow_right (by decide) small)
  · intro fits
    exact (Nat.pow_le_pow_iff_right (by decide : 1 < 2)).mp (Nat.le_of_mul_le_mul_left fits (by decide))

theorem queuedInvalidationTableAddress_isOk_iff :
    (∃ value, VtdRegisterWindow.queuedInvalidationTableAddress backing = .ok value) ↔
      backing.entryBytes = 16 ∧ backing.phys.start % 0x1000 = 0 ∧ 256 ≤ backing.entryCount ∧
        backing.entryCount ≤ 32768 := by
  simp only [queuedInvalidationTableAddress_eq_ok, exists_and_left, exists_eq', and_true]
  constructor
  · rintro ⟨width, several, aligned, small⟩
    obtain ⟨exponent, _, entries, encoded⟩ := queueEntries_exponent several
    rw [encoded] at small
    exact ⟨width, aligned, several, (queueExponent_le_iff entries).mp small⟩
  · rintro ⟨width, aligned, several, fits⟩
    obtain ⟨exponent, _, entries, encoded⟩ := queueEntries_exponent several
    refine ⟨width, several, aligned, ?_⟩
    rw [encoded]
    exact (queueExponent_le_iff entries).mpr fits

theorem queuedInvalidationTableAddress_decodes {value : UInt64}
    (encodes : VtdRegisterWindow.queuedInvalidationTableAddress backing = .ok value) :
    (value &&& PAGE_ADDR_MASK).toNat = backing.phys.start ∧
      256 * 2 ^ (value.toNat % 8) = backing.entryCount := by
  obtain ⟨⟨_, several, aligned, small⟩, rfl⟩ := queuedInvalidationTableAddress_eq_ok.mp encodes
  obtain ⟨exponent, _, entries, encoded⟩ := queueEntries_exponent several
  have bounded := backing.phys.start_lt
  rw [encoded] at small ⊢
  have held : (UInt64.ofNat exponent).toNat = exponent :=
    UInt64.toNat_ofNat_of_lt' (Nat.lt_of_le_of_lt small (by decide))
  have low : (UInt64.ofNat exponent).toNat < 0x1000 := by omega
  refine ⟨toNat_pointer_base bounded aligned low, ?_⟩
  have field : (backing.phys.start + exponent) % 8 = exponent := by omega
  rw [toNat_pointer bounded aligned low, held, field, entries]

end QueueAddress

section RemapAddress

variable {Registers : Type} {phys virt : AddrRange} {entryCount : Nat}
  {table : VtdInterruptRemapTableBacking}

theorem VtdInterruptRemapTableBacking.new_eq_ok
    (accepted : VtdInterruptRemapTableBacking.new phys virt entryCount = .ok table) :
    table.backing.phys = phys ∧ table.backing.entryCount = entryCount ∧
      phys.start % 0x1000 = 0 := by
  rw [VtdInterruptRemapTableBacking.new] at accepted
  split at accepted
  · split at accepted
    · cases accepted
    · next backing built =>
      cases accepted
      obtain ⟨same, _, count, aligned⟩ := DescriptorTableBacking.newAligned_eq_ok built
      exact ⟨same, count, aligned⟩
  · cases accepted

theorem irtaSize_spec (table : VtdInterruptRemapTableBacking) :
    table.irtaSize.toNat < 16 ∧ 2 ^ (table.irtaSize.toNat + 1) = table.backing.entryCount := by
  obtain ⟨exponent, power⟩ := table.countPower
  have several : 2 ^ 1 ≤ 2 ^ exponent := power ▸ table.several
  have fits : 2 ^ exponent ≤ 2 ^ 16 := power ▸ table.fits
  have above := (Nat.pow_le_pow_iff_right (by decide)).mp several
  have below := (Nat.pow_le_pow_iff_right (by decide)).mp fits
  have zeros : trailingZeros (2 ^ exponent) = exponent := trailingZeros_two_pow (by omega)
  have field : table.irtaSize.toNat = exponent - 1 := by
    have held : (UInt64.ofNat (exponent - 1)).toNat = exponent - 1 :=
      UInt64.toNat_ofNat_of_lt' (Nat.lt_of_le_of_lt (Nat.sub_le_sub_right below 1) (by decide))
    rw [VtdInterruptRemapTableBacking.irtaSize, power, zeros, UInt64.toNat_and, held]
    have masked := Nat.and_two_pow_sub_one_eq_mod (exponent - 1) 4
    exact masked.trans (Nat.mod_eq_of_lt (by omega))
  rw [field, power]
  exact ⟨by omega, by rw [Nat.sub_add_cancel above]⟩

def irtaFields (size : UInt64) (extended : Bool) : UInt64 :=
  if extended then size ||| IRTA_EIME else size

theorem toNat_irtaFields {size : UInt64} (small : size.toNat < 16) (extended : Bool) :
    (irtaFields size extended).toNat = size.toNat + if extended then 2048 else 0 := by
  cases extended with
  | false => rfl
  | true => exact toNat_or_shifted (by decide) (by decide) (Nat.lt_trans small (by decide))

end RemapAddress

def RegisterAccess.Wide : RegisterAccess → Prop
  | write64 _ _ _ | write64Shared _ _ => True
  | read32 _ _ | read64 _ _ | write32 _ _ _ => False

/-- The accesses point the hardware at no table: that takes a write of 64 bits. -/
def Pointerless (accesses : List RegisterAccess) : Prop := ∀ access ∈ accesses, ¬access.Wide

section Written

variable {Registers Value : Type}

theorem commandAndWait_pointerless (window : VtdRegisterWindow Registers)
    (change : UInt32 → UInt32) (mask expected : UInt32) :
    (window.traced.commandAndWait change mask expected).Respects (Avoids RegisterAccess.Wide) := by
  apply Effect.Respects.bind Avoids.trans (tracedBy_avoids _ fun _ wide => wide)
  intro status
  apply Effect.Respects.bind Avoids.trans (tracedBy_avoids _ fun _ wide => wide)
  intro done
  exact traced_wait_avoids window (fun _ _ wide => wide) mask expected

theorem latchTable_writes (window : VtdRegisterWindow Registers) (register : Nat) (value : UInt64)
    (command status : UInt32) (state : Registers × List RegisterAccess) :
    ∃ outcome later, (window.traced.latchTable register value command status state).2.2 =
      state.2 ++ .write64 register value outcome :: later ∧ Pointerless later := by
  have written : ∃ outcome registers, window.traced.write64 register value state =
      (Except.mapError Error.pageTable outcome,
        (registers, state.2 ++ [.write64 register value outcome])) := ⟨_, _, rfl⟩
  obtain ⟨outcome, registers, wrote⟩ := written
  rw [VtdRegisterWindow.latchTable, Effect.bind_apply, wrote]
  cases outcome with
  | error error => exact ⟨_, [], rfl, fun _ member => absurd member List.not_mem_nil⟩
  | ok done =>
      obtain ⟨later, grown, pointerless⟩ :=
        commandAndWait_pointerless window (· ||| command) status status
          (registers, state.2 ++ [.write64 register value (.ok done)])
      refine ⟨.ok done, later, ?_, pointerless⟩
      dsimp only [Except.mapError]
      rw [grown, List.append_assoc, List.singleton_append]

theorem setInterruptRemapTable_eq (window : VtdRegisterWindow Registers)
    (table : VtdInterruptRemapTableBacking) (extended : Bool) :
    window.setInterruptRemapTable table extended = window.latchTable REG_IRTA
      (UInt64.ofNat table.backing.phys.start &&& PAGE_ADDR_MASK |||
        irtaFields table.irtaSize extended) GCMD_SIRTP GSTS_IRTPS := by
  cases extended with
  | false => rfl
  | true =>
      rw [VtdRegisterWindow.setInterruptRemapTable, irtaFields, if_pos rfl, if_pos rfl,
        UInt64.or_assoc]

end Written

/-- The queue's register is encoded exactly for the rings that it can describe, and both registers give
back the base and the number of entries; the one for interrupt remapping gives the mode as well. -/
theorem table_registers_decode (phys virt : AddrRange) (entryCount : Nat) :
    (∀ entryBytes backing, CommandQueueBacking.new phys virt entryCount entryBytes = .ok backing →
      ((∃ value, VtdRegisterWindow.queuedInvalidationTableAddress backing = .ok value) ↔
        entryBytes = 16 ∧ phys.start % 4096 = 0 ∧ 256 ≤ entryCount ∧ entryCount ≤ 32768) ∧
      ∀ value, VtdRegisterWindow.queuedInvalidationTableAddress backing = .ok value →
        (value &&& ~~~0xfff).toNat = phys.start ∧ 256 * 2 ^ (value.toNat % 8) = entryCount) ∧
    ∀ table, VtdInterruptRemapTableBacking.new phys virt entryCount = .ok table →
      ∀ (Registers : Type) (window : VtdRegisterWindow Registers) (extended : Bool)
        (state : Registers × List RegisterAccess), ∃ value outcome later,
        (window.traced.setInterruptRemapTable table extended state).2.2 =
          state.2 ++ .write64 REG_IRTA value outcome :: later ∧ Pointerless later ∧
        (value &&& ~~~0xfff).toNat = phys.start ∧ 2 ^ (value.toNat % 16 + 1) = entryCount ∧
        value.toNat.testBit 11 = extended := by
  constructor
  · intro entryBytes backing accepted
    obtain ⟨rfl, _, rfl, rfl⟩ := CommandQueueBacking.new_eq_ok accepted
    exact ⟨queuedInvalidationTableAddress_isOk_iff, fun _ => queuedInvalidationTableAddress_decodes⟩
  · intro table accepted Registers window extended state
    obtain ⟨rfl, rfl, aligned⟩ := VtdInterruptRemapTableBacking.new_eq_ok accepted
    obtain ⟨small, entries⟩ := irtaSize_spec table
    have fields := toNat_irtaFields small extended
    have low : (irtaFields table.irtaSize extended).toNat < 0x1000 := by
      cases extended <;> simp at fields <;> omega
    have bounded := table.backing.phys.start_lt
    have whole := toNat_pointer bounded aligned low
    rw [setInterruptRemapTable_eq window.traced table extended]
    obtain ⟨outcome, later, grown, pointerless⟩ := latchTable_writes window REG_IRTA
      (UInt64.ofNat table.backing.phys.start &&& PAGE_ADDR_MASK |||
        irtaFields table.irtaSize extended) GCMD_SIRTP GSTS_IRTPS state
    refine ⟨_, outcome, later, grown, pointerless, toNat_pointer_base bounded aligned low, ?_, ?_⟩
    · have size : (table.backing.phys.start + (irtaFields table.irtaSize extended).toNat) % 16 =
          table.irtaSize.toNat := by
        rw [fields]
        cases extended <;> simp <;> omega
      rw [whole, size, entries]
    · rw [whole, fields, Nat.testBit_eq_decide_div_mod_eq]
      cases extended <;> simp <;> omega

theorem table_registers_decode_page :
    (∃ backing value, CommandQueueBacking.new (.fromStartSize 0x10000 0x1000 (by decide))
        (.fromStartSize 0x10000 0x1000 (by decide)) 256 16 = .ok backing ∧
      VtdRegisterWindow.queuedInvalidationTableAddress backing = .ok value ∧
      (value &&& ~~~0xfff).toNat = 0x10000 ∧ 256 * 2 ^ (value.toNat % 8) = 256) ∧
    ∃ table value outcome later, VtdInterruptRemapTableBacking.new
        (.fromStartSize 0x10000 0x1000 (by decide))
        (.fromStartSize 0x10000 0x1000 (by decide)) 256 = .ok table ∧
      (VtdRegisterWindow.prompt.traced.setInterruptRemapTable table true (0, [])).2.2 =
        .write64 REG_IRTA value outcome :: later ∧
      (value &&& ~~~0xfff).toNat = 0x10000 ∧ 2 ^ (value.toNat % 16 + 1) = 256 ∧
      value.toNat.testBit 11 = true := by
  obtain ⟨queues, tables⟩ := table_registers_decode (.fromStartSize 0x10000 0x1000 (by decide))
    (.fromStartSize 0x10000 0x1000 (by decide)) 256
  constructor
  · obtain ⟨encoded, decoded⟩ := queues 16 _ rfl
    obtain ⟨value, held⟩ := encoded.mpr (by decide)
    exact ⟨_, value, rfl, held, decoded value held⟩
  · obtain ⟨value, outcome, later, traced, _, fields⟩ :=
      tables _ rfl UInt64 VtdRegisterWindow.prompt true (0, [])
    exact ⟨_, value, outcome, later, rfl, traced, fields⟩

end Iommu
