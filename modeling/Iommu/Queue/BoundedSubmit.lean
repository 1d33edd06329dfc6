import Iommu.Queue.SubmitSafety

/-!
Every submit comes to an end. The polls are counted down. A call past the capacity check has at most as
many tickets before it that are not retired as the ring has entries, and an exchange of the retired counter
fails only when that counter has moved on or the exchange fails for nothing. So the accesses of a call are
bounded whatever the other calls and the hardware do.
-/

namespace Iommu

open MachineWord Memory CommandQueue

variable {N : Nat}

/-- The accesses a call can still make when no exchange fails for nothing. Its ticket is retired at `goal`
and its entry is one of `entries` of `width` bytes. -/
def SubmitPhase.budget (width entries goal : Nat) : SubmitPhase → Nat
  | .waitForCapacity polls => polls + 3 * COMMAND_QUEUE_POLL_LIMIT + width + entries + 14
  | .waitForEmpty polls => polls + 2 * COMMAND_QUEUE_POLL_LIMIT + width + entries + 13
  | .storeWriting => 2 * COMMAND_QUEUE_POLL_LIMIT + width + entries + 12
  | .writeSlot _ offset => 2 * COMMAND_QUEUE_POLL_LIMIT + (width - offset) + entries + 11
  | .storeReady => 2 * COMMAND_QUEUE_POLL_LIMIT + entries + 10
  | .waitToPublish polls => polls + COMMAND_QUEUE_POLL_LIMIT + entries + 9
  | .writeTail => COMMAND_QUEUE_POLL_LIMIT + entries + 8
  | .storePublished => COMMAND_QUEUE_POLL_LIMIT + entries + 7
  | .storeCommitted => COMMAND_QUEUE_POLL_LIMIT + entries + 6
  | .waitForConsumed polls => polls + entries + 5
  | .checkError => entries + 4
  | .storeEmpty => entries + 3
  | .loadRetired => entries + 2
  | .exchangeRetired current => goal - current + 1
  | .returned _ => 0

def SubmitPhase.PastCapacity : SubmitPhase → Prop
  | .waitForCapacity _ | .returned _ => False
  | _ => True

namespace SubmitCall

def budget (backing : CommandQueueBacking) (call : SubmitCall) : Nat :=
  call.phase.budget backing.entryBytes backing.entryCount (wrappingAdd call.ticket 1)

def unfinished (call : SubmitCall) : Bool :=
  match call.phase with
  | .returned _ => false
  | _ => true

/-- The exchange fails although the counter still has the value that was loaded. -/
def failsForNothing (state : RingState N) (spurious : Bool) (call : SubmitCall) : Bool :=
  match call.phase with
  | .exchangeRetired current =>
      spurious && current < wrappingAdd call.ticket 1 && state.queue.retired == current
  | _ => false

structure Tracked (backing : CommandQueueBacking) (state : RingState N) (call : SubmitCall) : Prop where
  ticket : call.ticket < limit
  seen : ∀ current, call.phase = .exchangeRetired current → current ≤ state.queue.retired
  near : call.phase.PastCapacity →
    wrappingAdd call.ticket 1 ≤ state.queue.retired + backing.entryCount

end SubmitCall

def submitBudget (backing : CommandQueueBacking) : Nat :=
  4 * COMMAND_QUEUE_POLL_LIMIT + backing.entryBytes + backing.entryCount + 14

namespace RingState

def accessesOf (id : Nat) (state : RingState N) : SubmitAction → Nat
  | .access target _ _ =>
      if target = id then (state.calls[id]?.any SubmitCall.unfinished).toNat else 0
  | .submit _ | .consume => 0

def failuresOf (id : Nat) (state : RingState N) : SubmitAction → Nat
  | .access target _ spurious =>
      if target = id then (state.calls[id]?.any (SubmitCall.failsForNothing state spurious)).toNat else 0
  | .submit _ | .consume => 0

def budgetOf (backing : CommandQueueBacking) (id : Nat) (state : RingState N) : Nat :=
  (state.calls[id]?.map (SubmitCall.budget backing)).getD (submitBudget backing)

structure Tracked (backing : CommandQueueBacking) (state : RingState N) : Prop where
  claim : state.queue.claim < limit
  calls : ∀ (id : Nat) (call : SubmitCall), state.calls[id]? = some call → call.Tracked backing state

end RingState

section Access

variable {mmu : Translation} {backing : CommandQueueBacking} {state : RingState N}
  {call : SubmitCall} {fault : Option Error} {spurious : Bool}

theorem SubmitCall.access_ticket :
    (call.access mmu backing state fault spurious).2.ticket = call.ticket := by
  unfold SubmitCall.access
  dsimp only
  repeat' split
  all_goals rfl

theorem SubmitCall.access_retired_grows :
    state.queue.retired ≤ (call.access mmu backing state fault spurious).1.queue.retired := by
  unfold SubmitCall.access
  dsimp only
  repeat' split
  all_goals try exact Nat.le_refl _
  rename_i further exchanged
  rw [exchanged.2]
  exact Nat.le_of_lt further

theorem SubmitCall.access_seen : ∀ current,
    (call.access mmu backing state fault spurious).2.phase = .exchangeRetired current →
      current ≤ (call.access mmu backing state fault spurious).1.queue.retired := by
  intro current
  unfold SubmitCall.access
  dsimp only
  repeat' split
  all_goals intro moved
  all_goals try (cases moved; try exact Nat.le_refl _)
  rename_i returned
  rw [returned] at moved
  cases moved

theorem SubmitCall.access_claim :
    (call.access mmu backing state fault spurious).1.queue.claim = state.queue.claim := by
  unfold SubmitCall.access
  dsimp only
  repeat' split
  all_goals rfl

/-- A ticket that the capacity check lets pass is retired before the ring is through once more. -/
theorem near_of_capacity {ticket retired entries : Nat} (claimed : ticket < limit)
    (room : wrappingSub ticket retired < entries) :
    wrappingAdd ticket 1 ≤ retired + entries := by
  have goal : wrappingAdd ticket 1 ≤ ticket + 1 := Nat.mod_le _ _
  rcases Nat.lt_or_ge ticket retired with ahead | behind
  · omega
  · rw [wrappingSub_of_le behind claimed] at room
    omega

theorem SubmitCall.Tracked.access (tracked : call.Tracked backing state) :
    SubmitCall.Tracked backing (call.access mmu backing state fault spurious).1
      (call.access mmu backing state fault spurious).2 := by
  have grows := @SubmitCall.access_retired_grows N mmu backing state call fault spurious
  refine ⟨access_ticket.symm ▸ tracked.ticket, access_seen, fun admitted => ?_⟩
  rw [access_ticket]
  refine Nat.le_trans ?_ (Nat.add_le_add_right grows _)
  cases phase : call.phase with
  | waitForCapacity polls =>
      cases polls with
      | zero => simp [SubmitCall.access, phase, giveUp, moveTo, SubmitPhase.PastCapacity] at admitted
      | succ polls =>
          by_cases room : wrappingSub call.ticket state.queue.retired < backing.entryCount
          · exact near_of_capacity tracked.ticket room
          · simp [SubmitCall.access, phase, room, moveTo, SubmitPhase.PastCapacity] at admitted
  | returned outcome => simp [SubmitCall.access, phase, SubmitPhase.PastCapacity] at admitted
  | _ => exact tracked.near (by rw [phase]; trivial)

theorem SubmitCall.Tracked.later {next : RingState N} (tracked : call.Tracked backing state)
    (grows : state.queue.retired ≤ next.queue.retired) : call.Tracked backing next where
  ticket := tracked.ticket
  seen current exchanging := Nat.le_trans (tracked.seen current exchanging) grows
  near admitted := Nat.le_trans (tracked.near admitted) (Nat.add_le_add_right grows _)

theorem SubmitCall.budget_pos (unfinished : call.unfinished = true) : 0 < call.budget backing := by
  rw [SubmitCall.budget]
  rw [SubmitCall.unfinished] at unfinished
  cases phase : call.phase with
  | returned outcome =>
      rw [phase] at unfinished
      contradiction
  | _ =>
      simp only [SubmitPhase.budget]
      omega

/-- Each access brings the call nearer to its end, but for an exchange that fails for nothing. -/
theorem SubmitCall.access_budget (tracked : call.Tracked backing state)
    (unfinished : call.unfinished = true) :
    1 + (call.access mmu backing state fault spurious).2.budget backing ≤
      call.budget backing + (call.failsForNothing state spurious).toNat := by
  rw [SubmitCall.budget, SubmitCall.access_ticket, SubmitCall.budget]
  cases phase : call.phase with
  | returned outcome =>
      rw [SubmitCall.unfinished, phase] at unfinished
      contradiction
  | exchangeRetired current =>
      have behind := tracked.seen current phase
      simp only [SubmitCall.access, SubmitCall.failsForNothing, phase]
      split
      · next further =>
        split
        · simp only [moveTo, SubmitPhase.budget]
          omega
        · next kept =>
          simp only [moveTo, SubmitPhase.budget]
          by_cases moved : state.queue.retired = current
          · have nothing : spurious = true := by
              cases spurious with
              | true => rfl
              | false => exact absurd ⟨rfl, moved⟩ kept
            simp only [nothing, further, moved, decide_true, Bool.and_self, beq_self_eq_true,
              Bool.toNat_true]
            omega
          · omega
      · simp only [moveTo, SubmitPhase.budget]
        omega
  | loadRetired =>
      have near := tracked.near (by rw [phase]; trivial)
      simp only [SubmitCall.access, phase, moveTo, SubmitPhase.budget]
      omega
  | waitForCapacity polls | waitForEmpty polls | waitToPublish polls | waitForConsumed polls =>
      cases polls with
      | zero =>
          simp only [SubmitCall.access, phase, giveUp, moveTo, SubmitPhase.budget]
          omega
      | succ polls =>
          simp only [SubmitCall.access, phase]
          repeat' split
          all_goals
            simp only [giveUp, moveTo, SubmitPhase.budget]
            omega
  | writeSlot vaddr offset =>
      simp only [SubmitCall.access, phase, moveTo]
      split
      all_goals
        simp only [SubmitPhase.budget]
        omega
  | storeWriting | checkError =>
      simp only [SubmitCall.access, phase]
      split
      all_goals
        simp only [giveUp, moveTo, SubmitPhase.budget]
        omega
  | storeReady | writeTail | storePublished | storeCommitted | storeEmpty =>
      simp only [SubmitCall.access, phase, moveTo, SubmitPhase.budget]
      omega

end Access

namespace RingState

variable {mmu : Translation} {backing : CommandQueueBacking} {state next : RingState N}
  {action : SubmitAction}

theorem setCall_calls {target : Nat} {call : SubmitCall} {fault : Option Error} {spurious : Bool} :
    (setCall target (call.access mmu backing state fault spurious)).calls =
      state.calls.set target (call.access mmu backing state fault spurious).2 := by
  rw [setCall, access_calls]

theorem tracked_initial {fresh queue : CommandQueue N} (ready : fresh.init backing = .ok queue)
    (memory : Memory) : Tracked backing (initial queue memory) := by
  constructor
  · rw [initial, (CommandQueue.init_counters ready).1]
    decide
  · intro id call lookup
    simp [initial] at lookup

theorem Tracked.step (tracked : Tracked backing state)
    (stepped : state.step mmu backing action = some next) : Tracked backing next := by
  cases action with
  | submit bytes =>
      simp only [RingState.step] at stepped
      split at stepped
      · obtain rfl := Option.some.inj stepped
        refine ⟨Nat.mod_lt _ (by decide), fun id call lookup => ?_⟩
        rcases List.mem_append.mp (List.mem_of_getElem? lookup) with old | fresh
        · obtain ⟨place, lookup⟩ := List.mem_iff_getElem?.mp old
          exact (tracked.calls place call lookup).later (Nat.le_refl _)
        · obtain rfl := List.mem_singleton.mp fresh
          exact ⟨tracked.claim, fun _ exchanging => (by cases exchanging), False.elim⟩
      · obtain rfl := Option.some.inj stepped
        exact tracked
  | access target fault spurious =>
      obtain ⟨call, lookup, rfl⟩ := Option.map_eq_some_iff.mp stepped
      refine ⟨?_, fun id query hit => ?_⟩
      · rw [setCall, SubmitCall.access_claim]
        exact tracked.claim
      · rw [setCall_calls, List.getElem?_set] at hit
        split at hit
        · have below := (List.getElem?_eq_some_iff.mp lookup).1
          rw [if_pos below] at hit
          obtain rfl := Option.some.inj hit
          exact (tracked.calls target call lookup).access.later (Nat.le_refl _)
        · exact (tracked.calls id query hit).later SubmitCall.access_retired_grows
  | consume =>
      simp only [RingState.step] at stepped
      split at stepped
      · obtain rfl := Option.some.inj stepped
        exact ⟨tracked.claim, fun id call lookup =>
          (tracked.calls id call lookup).later (Nat.le_refl _)⟩
      · contradiction

theorem Tracked.paid (tracked : Tracked backing state) (id : Nat)
    (stepped : state.step mmu backing action = some next) :
    accessesOf id state action + budgetOf backing id next ≤
      budgetOf backing id state + failuresOf id state action := by
  cases action with
  | submit bytes =>
      simp only [RingState.step] at stepped
      split at stepped
      · obtain rfl := Option.some.inj stepped
        simp only [accessesOf, failuresOf, budgetOf, Nat.zero_add, Nat.add_zero]
        rcases Nat.lt_trichotomy id state.calls.length with old | rfl | later
        · exact Nat.le_of_eq (by rw [List.getElem?_append_left old])
        · rw [List.getElem?_concat_length, List.getElem?_eq_none (Nat.le_refl _)]
          simp only [Option.map_some, Option.getD_some, Option.map_none, Option.getD_none,
            SubmitCall.budget, SubmitPhase.budget, submitBudget]
          omega
        · exact Nat.le_of_eq (by
            rw [List.getElem?_eq_none (Nat.le_of_lt later),
              List.getElem?_eq_none (by simp; omega)])
      · obtain rfl := Option.some.inj stepped
        simp [accessesOf, failuresOf]
  | access target fault spurious =>
      obtain ⟨call, lookup, rfl⟩ := Option.map_eq_some_iff.mp stepped
      have below := (List.getElem?_eq_some_iff.mp lookup).1
      simp only [accessesOf, failuresOf, budgetOf, setCall_calls]
      split
      · next same =>
        subst same
        simp only [List.getElem?_set_self below, lookup, Option.map_some, Option.getD_some,
          Option.any_some]
        cases unfinished : call.unfinished with
        | true =>
            exact SubmitCall.access_budget (tracked.calls target call lookup) unfinished
        | false =>
            have kept : (call.access mmu backing state fault spurious).2 = call := by
              rw [SubmitCall.unfinished] at unfinished
              cases phase : call.phase with
              | returned outcome => simp only [SubmitCall.access, phase]
              | _ => simp [phase] at unfinished
            rw [kept, Bool.toNat_false, Nat.zero_add]
            exact Nat.le_add_right _ _
      · next other => simp [List.getElem?_set_ne other]
  | consume =>
      simp only [RingState.step] at stepped
      split at stepped
      · obtain rfl := Option.some.inj stepped
        simp [accessesOf, failuresOf, budgetOf]
      · contradiction

end RingState

/-- In every interleaving a submit has returned before it has made so many accesses, and one more for each
time that its exchange fails for nothing. -/
theorem submit_bounded {mmu : Translation} {backing : CommandQueueBacking} {fresh queue : CommandQueue N}
    (ready : fresh.init backing = .ok queue) {memory : Memory} {actions : List SubmitAction}
    {state : RingState N}
    (reached : Transition.run (RingState.step mmu backing) (RingState.initial queue memory) actions =
      some state)
    {id : Nat} {call : SubmitCall} (lookup : state.calls[id]? = some call) :
    call.unfinished = false ∨
      Transition.tally (RingState.step mmu backing) (RingState.accessesOf id)
          (RingState.initial queue memory) actions <
        submitBudget backing + Transition.tally (RingState.step mmu backing) (RingState.failuresOf id)
          (RingState.initial queue memory) actions := by
  have spent : Transition.tally (RingState.step mmu backing) (RingState.accessesOf id)
        (RingState.initial queue memory) actions + RingState.budgetOf backing id state ≤
      RingState.budgetOf backing id (RingState.initial queue memory) +
        Transition.tally (RingState.step mmu backing) (RingState.failuresOf id)
          (RingState.initial queue memory) actions :=
    Transition.tally_le_of_run (RingState.budgetOf backing id) (RingState.Tracked backing)
      (fun _ _ _ tracked stepped => tracked.step stepped)
      (fun _ _ _ tracked stepped => tracked.paid id stepped) (RingState.tracked_initial ready memory)
      reached
  cases unfinished : call.unfinished with
  | false => exact Or.inl rfl
  | true =>
      have left : 0 < call.budget backing := SubmitCall.budget_pos unfinished
      have start : RingState.budgetOf backing id (RingState.initial queue memory) = submitBudget backing :=
        rfl
      have final : RingState.budgetOf backing id state = call.budget backing := by
        rw [RingState.budgetOf, lookup]
        rfl
      exact Or.inr (by omega)

set_option maxRecDepth 10000 in
theorem fullRing_bounded :
    Transition.tally (RingState.step id twoEntryRing) (RingState.accessesOf 1)
        (RingState.initial (ready twoEntryRing : CommandQueue 4) fun _ => 0) fullRing <
      submitBudget twoEntryRing + Transition.tally (RingState.step id twoEntryRing)
        (RingState.failuresOf 1) (RingState.initial (ready twoEntryRing : CommandQueue 4) fun _ => 0)
        fullRing := by
  obtain ⟨state, reached, waits⟩ := Option.map_eq_some_iff.mp
    (by decide : (ringRun twoEntryRing fullRing).map (fun state =>
      state.calls[1]?.map SubmitCall.unfinished) = some (some true))
  obtain ⟨call, lookup, unfinished⟩ := Option.map_eq_some_iff.mp waits
  rcases submit_bounded (init_new (by decide)) reached lookup with returned | bounded
  · rw [returned] at unfinished
    contradiction
  · exact bounded

end Iommu
