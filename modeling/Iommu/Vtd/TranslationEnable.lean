import Iommu.Library.Logging
import Iommu.Vtd.GlobalCommand
import Iommu.Vtd.Unit

/-!
Switching translation on: the root table, the invalidation queue and the translation itself, each
by a command the hardware has to acknowledge before the next one is given.
-/

namespace Iommu

open MachineWord

namespace VtdRegisterWindow

variable {Registers : Type}

def setRootTable (window : VtdRegisterWindow Registers) (table : VtdRootTableBacking) :
    Effect Registers Error Unit :=
  window.setRootEntryTable table.backing.phys.start

def enableTranslation (window : VtdRegisterWindow Registers) : Effect Registers Error Unit :=
  window.setTranslationEnabled true

def enableQueuedInvalidation (window : VtdRegisterWindow Registers) : Effect Registers Error Unit :=
  window.setQueuedInvalidationEnabled true

end VtdRegisterWindow

def VtdUnit.enableTranslation {QN : Nat} {Registers : Type} (unit : VtdUnit Registers) :
    Effect (QueueWorld QN Registers) Error Unit := do
  onRegisters (unit.registers.setRootTable unit.rootTable)
  let active ← .get fun world => world.queue.isActive
  if !active then .fail .controllerUnavailable
  else do
    let status ← onRegisters unit.registers.globalStatus
    if status &&& GSTS_QIES = 0 then onRegisters unit.registers.enableQueuedInvalidation
    onRegisters unit.registers.enableTranslation

def RegisterAccess.Failed : RegisterAccess → Prop
  | read32 _ (.error _) | read64 _ (.error _) | write32 _ _ (.error _) | write64 _ _ (.error _) => True
  | read32 _ (.ok _) | read64 _ (.ok _) | write32 _ _ (.ok _) | write64 _ _ (.ok _) => False
  | write64Shared _ _ => False

def lastStatus (events : List RegisterAccess) : Option UInt32 :=
  (events.filterMap fun
    | .read32 offset (.ok status) => if offset = REG_GSTS then some status else none
    | _ => none).getLast?

def commandWords (events : List RegisterAccess) : List UInt32 :=
  events.filterMap fun
    | .write32 offset word _ => if offset = REG_GCMD then some word else none
    | _ => none

def RootWritten (root : UInt64) (events : List RegisterAccess) : Prop :=
  [.write64 REG_RTADDR root (.ok ())].Sublist events

def RootLatched (root : UInt64) (events : List RegisterAccess) : Prop :=
  ∃ word latched, word &&& GCMD_SRTP ≠ 0 ∧ latched &&& GSTS_RTPS ≠ 0 ∧
    [.write64 REG_RTADDR root (.ok ()), .write32 REG_GCMD word (.ok ()),
      .read32 REG_GSTS (.ok latched)].Sublist events

def QueueOn (root : UInt64) (events : List RegisterAccess) : Prop :=
  ∃ word latched queued, word &&& GCMD_SRTP ≠ 0 ∧ latched &&& GSTS_RTPS ≠ 0 ∧
    queued &&& GSTS_QIES ≠ 0 ∧
    [.write64 REG_RTADDR root (.ok ()), .write32 REG_GCMD word (.ok ()),
      .read32 REG_GSTS (.ok latched), .read32 REG_GSTS (.ok queued)].Sublist events

def TranslationOn (root : UInt64) (events : List RegisterAccess) : Prop :=
  ∃ front word status, QueueOn root front ∧ word &&& GCMD_TE ≠ 0 ∧ status &&& GSTS_TES ≠ 0 ∧
    List.Sublist (front ++ [.write32 REG_GCMD word (.ok ()), .read32 REG_GSTS (.ok status)]) events

/-- The three commands of the operation, each made of the last status and each with what has to come
before it. -/
def CommandInOrder (root : UInt64) (active : Bool) (events : List RegisterAccess)
    (word : UInt32) : Prop :=
  ∃ status, lastStatus events = some status ∧
    ((word = status ||| GCMD_SRTP ∧ RootWritten root events ∧ commandWords events = []) ∨
      (word = status ||| GCMD_QIE ∧ active = true ∧ RootLatched root events) ∨
      (word = status ||| GCMD_TE ∧ active = true ∧ QueueOn root events))

def EnableAllowed (root : UInt64) (active : Bool) (events : List RegisterAccess) :
    RegisterAccess → Prop
  | .write32 offset word _ => offset = REG_GCMD → CommandInOrder root active events word
  | _ => True

section Order

variable {root : UInt64} {active : Bool} {first second : List RegisterAccess}

theorem RootLatched.later (latched : RootLatched root first) (grown : first.Sublist second) :
    RootLatched root second := by
  obtain ⟨word, status, command, shown, order⟩ := latched
  exact ⟨word, status, command, shown, order.trans grown⟩

theorem QueueOn.later (queueOn : QueueOn root first) (grown : first.Sublist second) :
    QueueOn root second := by
  obtain ⟨word, latched, queued, command, shown, ready, order⟩ := queueOn
  exact ⟨word, latched, queued, command, shown, ready, order.trans grown⟩

theorem RootLatched.queueOn (latched : RootLatched root first) {status : UInt32}
    (queued : status &&& GSTS_QIES ≠ 0)
    (order : List.Sublist (first ++ [.read32 REG_GSTS (.ok status)]) second) :
    QueueOn root second := by
  obtain ⟨word, shown, command, ready, early⟩ := latched
  refine ⟨word, shown, status, command, ready, queued, ?_⟩
  exact (early.append_right [.read32 REG_GSTS (.ok status)]).trans order

theorem lastStatus_read (events : List RegisterAccess) (status : UInt32) :
    lastStatus (events ++ [.read32 REG_GSTS (.ok status)]) = some status := by
  simp [lastStatus, List.filterMap_append]

end Order

section Rules

variable {Registers Value : Type} {root : UInt64} {active : Bool}

/-- A rule about the log of the registers, from one fact about it to another. -/
def EnableLogs (root : UInt64) (active : Bool) (before : List RegisterAccess → Prop)
    (effect : Effect (Registers × List RegisterAccess) Error Value)
    (after : Value → List RegisterAccess → Prop) : Prop :=
  effect.Logs Prod.snd (EnableAllowed root active) RegisterAccess.Failed (fun state => before state.2)
    fun value state => after value state.2

variable {before : List RegisterAccess → Prop} (window : VtdRegisterWindow Registers)

theorem EnableLogs.bind {Result : Type} {first : Effect (Registers × List RegisterAccess) Error Value}
    {next : Value → Effect (Registers × List RegisterAccess) Error Result}
    {between : Value → List RegisterAccess → Prop} {after : Result → List RegisterAccess → Prop}
    (early : EnableLogs root active before first between)
    (late : ∀ value, EnableLogs root active (between value) (next value) after) :
    EnableLogs root active before (first >>= next) after :=
  Effect.Logs.bind early late

theorem EnableLogs.consequence {stronger : List RegisterAccess → Prop}
    {effect : Effect (Registers × List RegisterAccess) Error Value}
    {after weaker : Value → List RegisterAccess → Prop}
    (logs : EnableLogs root active before effect after)
    (enters : ∀ events, stronger events → before events)
    (leaves : ∀ value events, after value events → weaker value events) :
    EnableLogs root active stronger effect weaker :=
  Effect.Logs.consequence logs (fun state => enters state.2) fun value state => leaves value state.2

theorem tracedBy_logs {event : Except PagingError Value → RegisterAccess}
    (effect : Effect Registers PagingError Value)
    (allowed : ∀ events outcome, before events → EnableAllowed root active events (event outcome))
    (fine : ∀ value, ¬(event (.ok value)).Failed) :
    EnableLogs root active before ((tracedBy event effect).mapError .pageTable)
      fun value events => ∃ done, before done ∧ events = done ++ [event (.ok value)] := by
  apply Effect.Logs.mapError
  intro state given
  rw [tracedBy]
  rcases effect state.1 with ⟨outcome, after⟩
  refine ⟨[event outcome], rfl, ⟨allowed _ _ given, trivial⟩, ⟨fun _ => rfl, trivial⟩, ?_⟩
  intro value ran
  dsimp only at ran
  subst ran
  exact ⟨by simpa using fine value, state.2, given, rfl⟩

theorem globalStatus_logs : EnableLogs root active before window.traced.globalStatus
    fun status events => ∃ done, before done ∧ events = done ++ [.read32 REG_GSTS (.ok status)] :=
  tracedBy_logs _ (fun _ _ _ => trivial) fun _ fails => fails

theorem write64_logs (offset : Nat) (value : UInt64) :
    EnableLogs root active before (window.traced.write64 offset value)
      fun _ events => ∃ done, before done ∧ events = done ++ [.write64 offset value (.ok ())] :=
  tracedBy_logs _ (fun _ _ _ => trivial) fun _ fails => fails

theorem globalCommand_logs {word : UInt32}
    (allowed : ∀ events, before events → CommandInOrder root active events word) :
    EnableLogs root active before (window.traced.globalCommand word)
      fun _ events => ∃ done, before done ∧ events = done ++ [.write32 REG_GCMD word (.ok ())] :=
  tracedBy_logs _ (fun events _ given _ => allowed events given) fun _ fails => fails

theorem waitGlobalStatus_logs (mask expected : UInt32) :
    EnableLogs root active before (window.traced.waitGlobalStatus mask expected)
      fun _ events => ∃ done status, before done ∧
        List.Sublist (done ++ [.read32 REG_GSTS (.ok status)]) events ∧
        status &&& mask = expected &&& mask := by
  have once : EnableLogs root active (fun events => ∃ done, before done ∧ List.Sublist done events)
      (window.traced.globalStatus >>= fun status => pure (status &&& mask == expected &&& mask))
      fun found events => if found then ∃ done status, before done ∧
          List.Sublist (done ++ [.read32 REG_GSTS (.ok status)]) events ∧
          status &&& mask = expected &&& mask
        else ∃ done, before done ∧ List.Sublist done events := by
    refine (globalStatus_logs window).bind fun status => ?_
    apply Effect.Logs.pure
    rintro state ⟨events, ⟨done, given, early⟩, read⟩
    have late : List.Sublist (done ++ [.read32 REG_GSTS (.ok status)]) state.2 := by
      rw [read]
      exact early.append_right _
    cases found : status &&& mask == expected &&& mask with
    | true => exact ⟨done, status, given, late, beq_iff_eq.mp found⟩
    | false => exact ⟨done, given, (List.sublist_append_left _ _).trans late⟩
  have polled := Effect.Logs.poll VtdError.registerTransitionTimeout.toError
    REGISTER_TRANSITION_POLL_LIMIT once
  exact Effect.Logs.consequence polled (fun state given => ⟨state.2, given, List.Sublist.refl _⟩)
    fun _ _ holds => holds

theorem commandAndWait_logs (change : UInt32 → UInt32) (mask expected : UInt32)
    (allowed : ∀ events status, before events →
      CommandInOrder root active (events ++ [.read32 REG_GSTS (.ok status)]) (change status)) :
    EnableLogs root active before (window.traced.commandAndWait change mask expected)
      fun _ events => ∃ done status shown, before done ∧
        List.Sublist (done ++ [.write32 REG_GCMD (change status) (.ok ()), .read32 REG_GSTS (.ok shown)])
          events ∧
        shown &&& mask = expected &&& mask := by
  refine (globalStatus_logs window).bind fun status => ?_
  refine (globalCommand_logs window ?_).bind fun _ => ?_
  · rintro _ ⟨done, given, rfl⟩
    exact allowed done status given
  · refine (waitGlobalStatus_logs window mask expected).consequence (fun _ given => given) ?_
    rintro _ events ⟨_, shown, ⟨_, ⟨done, given, rfl⟩, rfl⟩, order, reached⟩
    refine ⟨done, status, shown, given, ?_, reached⟩
    rw [List.append_assoc, List.append_assoc] at order
    exact ((List.sublist_append_right _ _).append_left done).trans order

theorem setRootTable_logs (active : Bool) (table : VtdRootTableBacking) :
    EnableLogs (UInt64.ofNat table.backing.phys.start) active (fun events => events = [])
      (window.traced.setRootTable table)
      fun _ events => RootLatched (UInt64.ofNat table.backing.phys.start) events := by
  have aligned : ¬table.backing.phys.start % PageSize.size4K.bytes ≠ 0 := not_not_intro table.aligned
  rw [VtdRegisterWindow.setRootTable, VtdRegisterWindow.setRootEntryTable, if_neg aligned,
    VtdRegisterWindow.latchTable]
  refine (write64_logs window REG_RTADDR _).bind fun _ => ?_
  refine (commandAndWait_logs window (· ||| GCMD_SRTP) GSTS_RTPS GSTS_RTPS ?_).consequence
    (fun _ given => given) ?_
  · rintro _ status ⟨_, rfl, rfl⟩
    refine ⟨status, lastStatus_read _ _, Or.inl ⟨rfl, ?_, rfl⟩⟩
    exact List.sublist_append_left _ _
  · rintro _ events ⟨_, status, shown, ⟨_, rfl, rfl⟩, order, reached⟩
    refine ⟨status ||| GCMD_SRTP, shown, ?_, ?_, order⟩
    · rw [or_flag_and]
      decide
    · rw [reached]
      decide

theorem activeStatus_logs (root : UInt64) (active : Bool) :
    EnableLogs root active (fun events => active = true ∧ RootLatched root events)
      window.traced.globalStatus
      fun status events => ∃ done, (active = true ∧ RootLatched root done) ∧
        events = done ++ [.read32 REG_GSTS (.ok status)] :=
  globalStatus_logs window

theorem enableQueuedInvalidation_logs (root : UInt64) (active : Bool) :
    EnableLogs root active (fun events => active = true ∧ RootLatched root events)
      window.traced.enableQueuedInvalidation
      fun _ events => active = true ∧ QueueOn root events := by
  refine (commandAndWait_logs window (switched GCMD_QIE true) GSTS_QIES GSTS_QIES ?_).consequence
    (fun _ given => given) ?_
  · rintro events status ⟨found, latched⟩
    exact ⟨status, lastStatus_read _ _,
      Or.inr (Or.inl ⟨rfl, found, latched.later (List.sublist_append_left _ _)⟩)⟩
  · rintro _ events ⟨done, status, shown, ⟨found, latched⟩, order, reached⟩
    have queued : shown &&& GSTS_QIES ≠ 0 := by
      rw [reached]
      decide
    exact ⟨found, latched.queueOn queued
      (((List.sublist_append_right [_] _).append_left done).trans order)⟩

theorem switchTranslation_logs (root : UInt64) (active : Bool) :
    EnableLogs root active (fun events => active = true ∧ QueueOn root events)
      window.traced.enableTranslation
      fun _ events => active = true ∧ TranslationOn root events := by
  refine (commandAndWait_logs window (switched GCMD_TE true) GSTS_TES GSTS_TES ?_).consequence
    (fun _ given => given) ?_
  · rintro events status ⟨found, queueOn⟩
    exact ⟨status, lastStatus_read _ _,
      Or.inr (Or.inr ⟨rfl, found, queueOn.later (List.sublist_append_left _ _)⟩)⟩
  · rintro _ events ⟨done, status, shown, ⟨found, queueOn⟩, order, reached⟩
    refine ⟨found, done, _, shown, queueOn, ?_, ?_, order⟩
    · have set : (status ||| GCMD_TE) &&& GCMD_TE ≠ 0 := by
        rw [or_flag_and]
        decide
      exact set
    · rw [reached]
      decide

end Rules

section Unit

variable {QN : Nat} {Registers : Type}

def VtdUnit.traced (unit : VtdUnit Registers) : VtdUnit (Registers × List RegisterAccess) :=
  unit.through unit.registers.traced

theorem onRegisters_logs {Value : Type} {root : UInt64} {active : Bool}
    {before : List RegisterAccess → Prop} {effect : Effect (Registers × List RegisterAccess) Error Value}
    {after : Value → List RegisterAccess → Prop} (queue : CommandQueue QN)
    (logs : EnableLogs root active before effect after) :
    Effect.Logs (fun world : QueueWorld QN (Registers × List RegisterAccess) => world.env.2)
      (EnableAllowed root active) RegisterAccess.Failed
      (fun world => world.queue = queue ∧ before world.env.2) (VtdUnit.onRegisters effect)
      fun value world => world.queue = queue ∧ after value world.env.2 :=
  Effect.Logs.within logs (fun _ => rfl) (fun _ _ => rfl) (fun _ _ => rfl) fun _ _ same => same

theorem VtdUnit.enableTranslation_logs (unit : VtdUnit Registers) (queue : CommandQueue QN) :
    Effect.Logs (fun world : QueueWorld QN (Registers × List RegisterAccess) => world.env.2)
      (EnableAllowed (UInt64.ofNat unit.rootTable.backing.phys.start) queue.isActive)
      RegisterAccess.Failed (fun world => world.queue = queue ∧ world.env.2 = [])
      unit.traced.enableTranslation
      fun _ world => world.queue = queue ∧ queue.isActive = true ∧
        TranslationOn (UInt64.ofNat unit.rootTable.backing.phys.start) world.env.2 := by
  let root := UInt64.ofNat unit.rootTable.backing.phys.start
  have pointed := onRegisters_logs queue
    (setRootTable_logs unit.registers queue.isActive unit.rootTable)
  have read := onRegisters_logs queue (activeStatus_logs unit.registers root queue.isActive)
  have queued := onRegisters_logs queue (enableQueuedInvalidation_logs unit.registers root queue.isActive)
  have finished := onRegisters_logs queue (switchTranslation_logs unit.registers root queue.isActive)
  rw [enableTranslation]
  refine pointed.bind fun _ => ?_
  refine (Effect.Logs.get _).bind fun active => ?_
  cases active with
  | false => exact Effect.Logs.fail Error.controllerUnavailable _
  | true =>
      rw [if_neg (by decide)]
      refine (read.consequence ?_ fun _ _ holds => holds).bind fun status => ?_
      · rintro world ⟨⟨same, latched⟩, found⟩
        exact ⟨same, same ▸ found.symm, latched⟩
      dsimp only
      by_cases off : status &&& GSTS_QIES = 0
      · rw [if_pos off]
        refine (queued.consequence ?_ fun _ _ holds => holds).bind fun _ => finished
        rintro world ⟨same, done, ⟨found, latched⟩, shown⟩
        exact ⟨same, found, latched.later (shown ▸ List.sublist_append_left _ _)⟩
      · rw [if_neg off]
        refine finished.consequence ?_ fun _ _ holds => holds
        rintro world ⟨same, done, ⟨found, latched⟩, shown⟩
        exact ⟨same, found, latched.queueOn off (shown ▸ List.Sublist.refl _)⟩

end Unit

/-- The commands of a run come in order and after what they need, and nothing comes after a failed
access. -/
structure EnablesInOrder (root : UInt64) (active : Bool) (outcome : Except Error Unit)
    (events : List RegisterAccess) : Prop where
  prerequisites : ∀ front word accepted back status,
    events = front ++ .write32 REG_GCMD word accepted :: back → lastStatus front = some status →
      status &&& GSTS_TES = 0 → word &&& GCMD_TE ≠ 0 → active = true ∧ QueueOn root front
  commands : ∀ front word accepted back,
    events = front ++ .write32 REG_GCMD word accepted :: back → CommandInOrder root active front word
  failure : ∀ front event back, events = front ++ event :: back → event.Failed →
    back = [] ∧ outcome ≠ .ok ()
  success : outcome = .ok () → active = true ∧ TranslationOn root events

theorem CommandInOrder.enabling {root : UInt64} {active : Bool} {events : List RegisterAccess}
    {word status : UInt32} (order : CommandInOrder root active events word)
    (last : lastStatus events = some status) (off : status &&& GSTS_TES = 0)
    (enables : word &&& GCMD_TE ≠ 0) : active = true ∧ QueueOn root events := by
  obtain ⟨shown, found, ⟨rfl, _, _⟩ | ⟨rfl, _, _⟩ | ⟨rfl, queue, queueOn⟩⟩ := order
  all_goals
    obtain rfl := Option.some.inj (found.symm.trans last)
  · rw [or_and_apart (by decide)] at enables
    exact absurd off enables
  · rw [or_and_apart (by decide)] at enables
    exact absurd off enables
  · exact ⟨queue, queueOn⟩

/-- Translation is asked for only once the root table is latched and the queue is on, whatever the
hardware answers. -/
theorem enable_translation_in_order {QN : Nat} {Registers : Type} (unit : VtdUnit Registers)
    (registers : Registers) (world : QueueWorld QN Unit) :
    let ran := unit.traced.enableTranslation (world.withEnv (registers, []))
    EnablesInOrder (UInt64.ofNat unit.rootTable.backing.phys.start) world.queue.isActive ran.1
      ran.2.env.2 := by
  intro ran
  obtain ⟨added, grown, orderly, last, returned⟩ :=
    unit.enableTranslation_logs world.queue (world.withEnv (registers, [])) ⟨rfl, rfl⟩
  have all : ran.2.env.2 = added := grown
  have commands : ∀ front word accepted back,
      added = front ++ .write32 REG_GCMD word accepted :: back →
        CommandInOrder (UInt64.ofNat unit.rootTable.backing.phys.start) world.queue.isActive front word := by
    rintro front word accepted back rfl
    exact orderly.allowed_at rfl
  rw [all]
  constructor
  · intro front word accepted back status split found off enables
    exact (commands front word accepted back split).enabling found off enables
  · exact commands
  · rintro front event back rfl failed
    refine ⟨last.nothing_after failed, fun succeeded => ?_⟩
    exact (returned () succeeded).1 event (by simp) failed
  · intro succeeded
    obtain ⟨_, _, active, on⟩ := returned () succeeded
    rw [← all]
    exact ⟨active, on⟩

end Iommu
