import Iommu.Vtd.Registers
import Iommu.Vtd.Entries

/-!
Global commands: each operation reads the global status, writes one command word
made from it and waits for the hardware to follow. A write to the command register
sets the state of every enable bit and performs every one-shot command in it.
-/

namespace Iommu

open MachineWord

def REG_RTADDR : Nat := 0x20
def REG_IRTA : Nat := 0xb8

def GCMD_TE : UInt32 := (1 : UInt32) <<< 31
def GCMD_SRTP : UInt32 := (1 : UInt32) <<< 30
def GCMD_IRE : UInt32 := (1 : UInt32) <<< 25
def GCMD_SIRTP : UInt32 := (1 : UInt32) <<< 24

def GSTS_TES : UInt32 := (1 : UInt32) <<< 31
def GSTS_RTPS : UInt32 := (1 : UInt32) <<< 30
def GSTS_IRES : UInt32 := (1 : UInt32) <<< 25
def GSTS_IRTPS : UInt32 := (1 : UInt32) <<< 24

def IRTA_SIZE_MASK : UInt64 := 0xf
def IRTA_EIME : UInt64 := (1 : UInt64) <<< 11

def VtdInterruptRemapTableBacking.irtaSize (table : VtdInterruptRemapTableBacking) : UInt64 :=
  UInt64.ofNat (trailingZeros table.backing.entryCount - 1) &&& IRTA_SIZE_MASK

def switched (command : UInt32) (enabled : Bool) (status : UInt32) : UInt32 :=
  if enabled then status ||| command else status &&& ~~~command

namespace VtdRegisterWindow

variable {Registers : Type}

def commandAndWait (window : VtdRegisterWindow Registers) (change : UInt32 → UInt32)
    (mask expected : UInt32) : Effect Registers Error Unit := do
  let status ← window.globalStatus
  window.globalCommand (change status)
  window.waitGlobalStatus mask expected

def latchTable (window : VtdRegisterWindow Registers) (register : Nat) (value : UInt64)
    (command status : UInt32) : Effect Registers Error Unit := do
  window.write64 register value
  window.commandAndWait (· ||| command) status status

def setEnabled (window : VtdRegisterWindow Registers) (command status : UInt32) (enabled : Bool) :
    Effect Registers Error Unit :=
  window.commandAndWait (switched command enabled) status (if enabled then status else 0)

def setRootEntryTable (window : VtdRegisterWindow Registers) (root : Nat) :
    Effect Registers Error Unit :=
  if root % PageSize.size4K.bytes ≠ 0 then .fail VtdError.unsupportedGranule.toError
  else window.latchTable REG_RTADDR (UInt64.ofNat root) GCMD_SRTP GSTS_RTPS

def setTranslationEnabled (window : VtdRegisterWindow Registers) (enabled : Bool) :
    Effect Registers Error Unit :=
  window.setEnabled GCMD_TE GSTS_TES enabled

def setInterruptRemappingEnabled (window : VtdRegisterWindow Registers) (enabled : Bool) :
    Effect Registers Error Unit :=
  window.setEnabled GCMD_IRE GSTS_IRES enabled

def setInterruptRemapTable (window : VtdRegisterWindow Registers)
    (table : VtdInterruptRemapTableBacking) (extendedInterruptMode : Bool) :
    Effect Registers Error Unit :=
  let value := UInt64.ofNat table.backing.phys.start &&& PAGE_ADDR_MASK ||| table.irtaSize
  window.latchTable REG_IRTA (if extendedInterruptMode then value ||| IRTA_EIME else value)
    GCMD_SIRTP GSTS_IRTPS

theorem setQueuedInvalidationEnabled_eq (window : VtdRegisterWindow Registers) (enabled : Bool) :
    window.setQueuedInvalidationEnabled enabled = window.setEnabled GCMD_QIE GSTS_QIES enabled := rfl

end VtdRegisterWindow

/-- One access to the registers, with what came of it. -/
inductive RegisterAccess
  | read32 (offset : Nat) (outcome : Except PagingError UInt32)
  | read64 (offset : Nat) (outcome : Except PagingError UInt64)
  | write32 (offset : Nat) (value : UInt32) (outcome : Except PagingError Unit)
  | write64 (offset : Nat) (value : UInt64) (outcome : Except PagingError Unit)
  | write64Shared (address : Nat) (value : UInt64)

section Traced

variable {Registers Value : Type}

def tracedBy (access : Except PagingError Value → RegisterAccess)
    (effect : Effect Registers PagingError Value) :
    Effect (Registers × List RegisterAccess) PagingError Value := fun state =>
  let (outcome, after) := effect state.1
  (outcome, (after, state.2 ++ [access outcome]))

/-- The same hardware, with every access and its outcome noted down. -/
def Mapping.traced (mapping : Mapping Registers) : Mapping (Registers × List RegisterAccess) where
  range := mapping.range
  readVo32 offset := tracedBy (.read32 offset) (mapping.readVo32 offset)
  readVo64 offset := tracedBy (.read64 offset) (mapping.readVo64 offset)
  writeVo32 offset value := tracedBy (.write32 offset value) (mapping.writeVo32 offset value)
  writeVo64 offset value := tracedBy (.write64 offset value) (mapping.writeVo64 offset value)
  writeVolatile64 address value state :=
    (mapping.writeVolatile64 address value state.1, state.2 ++ [.write64Shared address value])

def VtdRegisterWindow.traced (window : VtdRegisterWindow Registers) :
    VtdRegisterWindow (Registers × List RegisterAccess) :=
  ⟨window.mapping.traced⟩

def RegisterAccess.IsCommand : RegisterAccess → Prop
  | write32 offset _ _ => offset = REG_GCMD
  | read32 _ _ | read64 _ _ | write64 _ _ _ | write64Shared _ _ => False

def Commandless (accesses : List RegisterAccess) : Prop := ∀ access ∈ accesses, ¬access.IsCommand

/-- The accesses added on the way are all of other kinds. -/
def Avoids (kind : RegisterAccess → Prop) (before after : Registers × List RegisterAccess) : Prop :=
  ∃ accesses, after.2 = before.2 ++ accesses ∧ ∀ access ∈ accesses, ¬kind access

variable {kind : RegisterAccess → Prop}

theorem Avoids.refl (state : Registers × List RegisterAccess) : Avoids kind state state :=
  ⟨[], (List.append_nil _).symm, fun _ member => absurd member List.not_mem_nil⟩

theorem Avoids.trans (first second third : Registers × List RegisterAccess)
    (early : Avoids kind first second) (late : Avoids kind second third) :
    Avoids kind first third := by
  obtain ⟨before, begun, beforeOther⟩ := early
  obtain ⟨after, ended, afterOther⟩ := late
  refine ⟨before ++ after, ?_, List.forall_mem_append.mpr ⟨beforeOther, afterOther⟩⟩
  rw [ended, begun, List.append_assoc]

theorem tracedBy_avoids {access : Except PagingError Value → RegisterAccess}
    (effect : Effect Registers PagingError Value) (other : ∀ outcome, ¬kind (access outcome)) :
    ((tracedBy access effect).mapError Error.pageTable).Respects (Avoids kind) := by
  apply Effect.Respects.mapError
  intro state
  exact ⟨[_], rfl, fun _ member => List.mem_singleton.mp member ▸ other _⟩

end Traced

/-- The accesses give the hardware one command, made by `change` from the status read just before,
or none at all. -/
def CommandsOnce (change : UInt32 → UInt32) (accesses : List RegisterAccess) : Prop :=
  Commandless accesses ∨ ∃ status outcome before after, Commandless (before ++ after) ∧
    accesses = before ++
      [.read32 REG_GSTS (.ok status), .write32 REG_GCMD (change status) outcome] ++ after

section Traced

variable {Registers : Type} (window : VtdRegisterWindow Registers)

theorem traced_wait_avoids {kind : RegisterAccess → Prop}
    (reads : ∀ offset outcome, ¬kind (.read32 offset outcome)) (mask expected : UInt32) :
    (window.traced.waitGlobalStatus mask expected).Respects (Avoids kind) := by
  apply Effect.Respects.poll Avoids.refl Avoids.trans
  apply Effect.Respects.bind Avoids.trans (tracedBy_avoids _ (reads REG_GSTS))
  intro status
  exact Effect.Respects.pure Avoids.refl _

theorem traced_globalStatus (state : Registers × List RegisterAccess) :
    ∃ outcome registers, window.traced.globalStatus state =
      (outcome.mapError Error.pageTable,
        (registers, state.2 ++ [.read32 REG_GSTS outcome])) :=
  ⟨_, _, rfl⟩

theorem traced_globalCommand (word : UInt32) (state : Registers × List RegisterAccess) :
    ∃ outcome registers, window.traced.globalCommand word state =
      (Except.mapError Error.pageTable outcome,
        (registers, state.2 ++ [.write32 REG_GCMD word outcome])) :=
  ⟨_, _, rfl⟩

theorem commandAndWait_traced (change : UInt32 → UInt32) (mask expected : UInt32)
    (state : Registers × List RegisterAccess) :
    ∃ accesses, (window.traced.commandAndWait change mask expected state).2.2 =
      state.2 ++ accesses ∧ CommandsOnce change accesses := by
  have waits : (window.traced.waitGlobalStatus mask expected).Respects
      (Avoids RegisterAccess.IsCommand) :=
    traced_wait_avoids window (fun _ _ commands => commands) mask expected
  obtain ⟨outcome, registers, read⟩ := traced_globalStatus window state
  rw [VtdRegisterWindow.commandAndWait, Effect.bind_apply, read]
  cases outcome with
  | error error =>
      refine ⟨_, rfl, Or.inl fun access member => ?_⟩
      obtain rfl := List.mem_singleton.mp member
      exact fun commands => commands
  | ok status =>
      obtain ⟨written, commanded, wrote⟩ := traced_globalCommand window (change status)
        (registers, state.2 ++ [.read32 REG_GSTS (.ok status)])
      dsimp only [Except.mapError]
      rw [Effect.bind_apply, wrote]
      cases written with
      | error error =>
          refine ⟨_, List.append_assoc _ _ _, Or.inr ⟨status, _, [], [], ?_, rfl⟩⟩
          exact fun _ member => absurd member List.not_mem_nil
      | ok value =>
          obtain ⟨waited, grown, quiet⟩ := waits
            (commanded, state.2 ++ [.read32 REG_GSTS (.ok status)] ++
              [.write32 REG_GCMD (change status) (.ok value)])
          refine ⟨_, ?_, Or.inr ⟨status, .ok value, [], waited, quiet, rfl⟩⟩
          dsimp only [Except.mapError]
          rw [grown]
          simp only [List.append_assoc, List.nil_append]
          rfl

theorem CommandsOnce.after_quiet {change : UInt32 → UInt32} {before accesses : List RegisterAccess}
    (quiet : Commandless before) (commands : CommandsOnce change accesses) :
    CommandsOnce change (before ++ accesses) := by
  rcases commands with none | ⟨status, accepted, early, late, others, rfl⟩
  · exact Or.inl (List.forall_mem_append.mpr ⟨quiet, none⟩)
  · refine Or.inr ⟨status, accepted, before ++ early, late, ?_, ?_⟩
    · rw [List.append_assoc]
      exact List.forall_mem_append.mpr ⟨quiet, others⟩
    · simp only [List.append_assoc]

theorem latchTable_traced (register : Nat) (value : UInt64) (command status : UInt32)
    (state : Registers × List RegisterAccess) :
    ∃ accesses, (window.traced.latchTable register value command status state).2.2 =
      state.2 ++ accesses ∧ CommandsOnce (· ||| command) accesses := by
  have writes : (window.traced.write64 register value).Respects (Avoids RegisterAccess.IsCommand) :=
    tracedBy_avoids _ fun _ commands => commands
  obtain ⟨pointer, noted, quiet⟩ := writes state
  rw [VtdRegisterWindow.latchTable, Effect.bind_apply]
  rcases wrote : window.traced.write64 register value state with ⟨outcome, after⟩
  rw [wrote] at noted
  cases outcome with
  | error error => exact ⟨pointer, noted, Or.inl quiet⟩
  | ok done =>
      obtain ⟨accesses, grown, commands⟩ :=
        commandAndWait_traced window (· ||| command) status status after
      refine ⟨pointer ++ accesses, ?_, commands.after_quiet quiet⟩
      rw [← List.append_assoc, ← noted]
      exact grown

end Traced

inductive GlobalOperation
  | setRootEntryTable (root : Nat)
  | setTranslationEnabled (enabled : Bool)
  | setQueuedInvalidationEnabled (enabled : Bool)
  | setInterruptRemappingEnabled (enabled : Bool)
  | setInterruptRemapTable (table : VtdInterruptRemapTableBacking) (extendedInterruptMode : Bool)

namespace GlobalOperation

variable {Registers : Type}

def run (window : VtdRegisterWindow Registers) : GlobalOperation → Effect Registers Error Unit
  | setRootEntryTable root => window.setRootEntryTable root
  | setTranslationEnabled enabled => window.setTranslationEnabled enabled
  | setQueuedInvalidationEnabled enabled => window.setQueuedInvalidationEnabled enabled
  | setInterruptRemappingEnabled enabled => window.setInterruptRemappingEnabled enabled
  | setInterruptRemapTable table extended => window.setInterruptRemapTable table extended

def ownBit : GlobalOperation → UInt32
  | setRootEntryTable _ => GCMD_SRTP
  | setTranslationEnabled _ => GCMD_TE
  | setQueuedInvalidationEnabled _ => GCMD_QIE
  | setInterruptRemappingEnabled _ => GCMD_IRE
  | setInterruptRemapTable _ _ => GCMD_SIRTP

def command : GlobalOperation → UInt32 → UInt32
  | setRootEntryTable _ => (· ||| GCMD_SRTP)
  | setTranslationEnabled enabled => switched GCMD_TE enabled
  | setQueuedInvalidationEnabled enabled => switched GCMD_QIE enabled
  | setInterruptRemappingEnabled enabled => switched GCMD_IRE enabled
  | setInterruptRemapTable _ _ => (· ||| GCMD_SIRTP)

/-- The command leaves the other enable bits as they are and performs no one-shot command but the
operation's own. -/
structure Clean (operation : GlobalOperation) (status word : UInt32) : Prop where
  enables : ∀ bit ∈ [GCMD_TE, GCMD_QIE, GCMD_IRE], bit ≠ operation.ownBit →
    word &&& bit = status &&& bit
  rootTable : operation.ownBit ≠ GCMD_SRTP → word &&& GCMD_SRTP = 0
  interruptRemapTable : operation.ownBit ≠ GCMD_SIRTP → word &&& GCMD_SIRTP = 0

/-- No table the hardware has latched before shows in the status, but for the operation's own. -/
def OneShotsClear (operation : GlobalOperation) (status : UInt32) : Prop :=
  (operation.ownBit ≠ GCMD_SRTP → status &&& GSTS_RTPS = 0) ∧
    (operation.ownBit ≠ GCMD_SIRTP → status &&& GSTS_IRTPS = 0)

theorem run_traced (operation : GlobalOperation) (window : VtdRegisterWindow Registers)
    (state : Registers × List RegisterAccess) :
    ∃ accesses, (operation.run window.traced state).2.2 = state.2 ++ accesses ∧
      CommandsOnce operation.command accesses := by
  cases operation with
  | setRootEntryTable root =>
      rw [run, VtdRegisterWindow.setRootEntryTable]
      split
      · exact ⟨[], (List.append_nil _).symm, Or.inl fun _ member => absurd member List.not_mem_nil⟩
      · exact latchTable_traced window _ _ _ _ state
  | setTranslationEnabled enabled => exact commandAndWait_traced window _ _ _ state
  | setQueuedInvalidationEnabled enabled =>
      rw [run, VtdRegisterWindow.setQueuedInvalidationEnabled_eq]
      exact commandAndWait_traced window _ _ _ state
  | setInterruptRemappingEnabled enabled => exact commandAndWait_traced window _ _ _ state
  | setInterruptRemapTable table extended => exact latchTable_traced window _ _ _ _ state

def commandBits : List UInt32 := [GCMD_TE, GCMD_SRTP, GCMD_QIE, GCMD_IRE, GCMD_SIRTP]

theorem ownBit_mem (operation : GlobalOperation) : operation.ownBit ∈ commandBits := by
  cases operation <;> simp [ownBit, commandBits]

theorem commandBits_apart : ∀ flag ∈ commandBits, ∀ bit ∈ commandBits, bit ≠ flag →
    flag &&& bit = 0 ∧ ~~~flag &&& bit = bit := by
  intro flag member bit among other
  simp only [commandBits, List.mem_cons, List.not_mem_nil, or_false] at member among
  rcases member with rfl | rfl | rfl | rfl | rfl <;>
    rcases among with rfl | rfl | rfl | rfl | rfl <;> first | exact absurd rfl other | decide

theorem command_and (operation : GlobalOperation) (status bit : UInt32)
    (single : bit ∈ commandBits)
    (other : bit ≠ operation.ownBit) :
    operation.command status &&& bit = status &&& bit := by
  have apart := commandBits_apart operation.ownBit operation.ownBit_mem bit single other
  have switching : ∀ enabled, switched operation.ownBit enabled status &&& bit = status &&& bit := by
    intro enabled
    cases enabled with
    | true => exact or_and_apart apart.1
    | false => exact and_not_and_apart apart.2
  cases operation with
  | setRootEntryTable root => exact or_and_apart apart.1
  | setTranslationEnabled enabled => exact switching enabled
  | setQueuedInvalidationEnabled enabled => exact switching enabled
  | setInterruptRemappingEnabled enabled => exact switching enabled
  | setInterruptRemapTable table extended => exact or_and_apart apart.1

theorem clean_iff (operation : GlobalOperation) (status : UInt32) :
    operation.Clean status (operation.command status) ↔ operation.OneShotsClear status := by
  have kept := operation.command_and status
  constructor
  · intro clean
    constructor
    · intro other
      rw [← clean.rootTable other]
      exact (kept GCMD_SRTP (by decide) (Ne.symm other)).symm
    · intro other
      rw [← clean.interruptRemapTable other]
      exact (kept GCMD_SIRTP (by decide) (Ne.symm other)).symm
  · rintro ⟨rootTable, interruptRemapTable⟩
    constructor
    · intro bit member other
      have enables : ∀ bit ∈ [GCMD_TE, GCMD_QIE, GCMD_IRE], bit ∈ commandBits := by
        simp [commandBits]
      exact kept bit (enables bit member) other
    · intro other
      rw [kept GCMD_SRTP (by decide) (Ne.symm other)]
      exact rootTable other
    · intro other
      rw [kept GCMD_SIRTP (by decide) (Ne.symm other)]
      exact interruptRemapTable other

end GlobalOperation

/-- An operation gives the hardware at most one command, and it touches only the operation's own bit
exactly when the status it was made from shows no other table latched. -/
theorem global_command_clean_iff {Registers : Type} (operation : GlobalOperation)
    (window : VtdRegisterWindow Registers) (registers : Registers) :
    let accesses := (operation.run window.traced (registers, [])).2.2
    Commandless accesses ∨ ∃ status word outcome before after, Commandless (before ++ after) ∧
      accesses = before ++ [.read32 REG_GSTS (.ok status), .write32 REG_GCMD word outcome] ++ after ∧
      (operation.Clean status word ↔ operation.OneShotsClear status) := by
  obtain ⟨accesses, grown, commands⟩ := operation.run_traced window (registers, [])
  intro noted
  have all : noted = accesses := grown
  rw [all]
  rcases commands with none | ⟨status, outcome, before, after, others, once⟩
  · exact Or.inl none
  · exact Or.inr ⟨status, operation.command status, outcome, before, after, others, once,
      operation.clean_iff status⟩

/-- Hardware whose status follows every command; a latched table shows for ever. -/
def followingWindow : VtdRegisterWindow UInt32 where
  mapping := {
    range := .fromStartSize 0xfed90000 0x1000 registerPage_bounded
    readVo32 := fun _ => .get id
    readVo64 := fun _ => pure 0
    writeVo32 := fun offset word => .modify fun status =>
      if offset = REG_GCMD then word ||| status &&& (GSTS_RTPS ||| GSTS_IRTPS) else status
    writeVo64 := fun _ _ => pure ()
    writeVolatile64 := fun _ _ status => status
  }

/-- Once a root table is latched, switching the invalidation queue on latches it again. -/
theorem latched_root_table_relatched : ∃ status : UInt32, ∃ word before after,
    (GlobalOperation.run followingWindow (.setRootEntryTable 0x1000) 0) = (.ok (), status) ∧
    (GlobalOperation.run followingWindow.traced (.setQueuedInvalidationEnabled true)
      (status, [])).2.2 =
        before ++ [.read32 REG_GSTS (.ok status), .write32 REG_GCMD word (.ok ())] ++ after ∧
    ¬GlobalOperation.Clean (.setQueuedInvalidationEnabled true) status word := by
  refine ⟨GSTS_RTPS, GSTS_RTPS ||| GCMD_QIE, [],
    [.read32 REG_GSTS (.ok (GSTS_RTPS ||| GCMD_QIE))], rfl, rfl, ?_⟩
  intro clean
  exact absurd (clean.rootTable (by decide)) (by decide)

end Iommu
