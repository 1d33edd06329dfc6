import Iommu.Queue.SubmitInvariant

/-!
What concurrent submits guarantee: slots are owned by one ticket and published in
ticket order, a finished ticket has been consumed, and the ring never overflows.
-/

namespace Iommu

open MachineWord Memory CommandQueue

variable {N : Nat}

namespace SubmitPhase

def Finishing : SubmitPhase → Prop
  | .checkError | .storeEmpty | .loadRetired | .exchangeRetired _ | .returned (.ok ()) => True
  | _ => False

def Admitted : SubmitPhase → Prop
  | .waitForEmpty _ | .storeWriting | .writeSlot _ _ | .storeReady | .waitToPublish _
  | .writeTail => True
  | _ => False

def Filling : SubmitPhase → Prop
  | .storeWriting | .writeSlot _ _ => True
  | _ => False

def readsHead : SubmitPhase → Bool
  | .waitForConsumed (_ + 1) => true
  | _ => false

def checksCapacity : SubmitPhase → Bool
  | .waitForCapacity (_ + 1) => true
  | _ => false

theorem readsHead_iff {phase : SubmitPhase} :
    phase.readsHead = true ↔ ∃ polls, phase = .waitForConsumed (polls + 1) := by
  unfold readsHead
  split <;> simp_all

theorem checksCapacity_iff {phase : SubmitPhase} :
    phase.checksCapacity = true ↔ ∃ polls, phase = .waitForCapacity (polls + 1) := by
  unfold checksCapacity
  split <;> simp_all

theorem Filling.admitted {phase : SubmitPhase} (filling : phase.Filling) : phase.Admitted := by
  cases phase <;> simp_all [Filling, Admitted]

end SubmitPhase

/-- A call reads the head only when every earlier ticket has been consumed. -/
def FreshHeadRead (state : RingState N) : SubmitAction → Prop
  | .access id none _ => ∀ call polls, state.calls[id]? = some call →
      call.phase = .waitForConsumed (polls + 1) → id ≤ state.consumed
  | _ => True

/-- A ticket passes the capacity check only with fewer than `room` unconsumed tickets before it. -/
def AdmittedWithin (backing : CommandQueueBacking) (room : Nat) (state : RingState N) :
    SubmitAction → Prop
  | .access id _ _ => ∀ call polls, state.calls[id]? = some call →
      call.phase = .waitForCapacity (polls + 1) →
        wrappingSub call.ticket state.queue.retired < backing.entryCount →
          id < state.consumed + room
  | _ => True

section Decided

variable {backing : CommandQueueBacking} {room : Nat} {state : RingState N} {id : Nat}
  {fault : Option Error} {spurious : Bool}

theorem freshHeadRead_iff :
    FreshHeadRead state (.access id none spurious) ↔
      ∀ call ∈ state.calls[id]?, call.phase.readsHead = true → id ≤ state.consumed := by
  simp only [FreshHeadRead, SubmitPhase.readsHead_iff, Option.mem_def]
  exact ⟨fun fresh call lookup ⟨polls, phase⟩ => fresh call polls lookup phase,
    fun fresh call polls lookup phase => fresh call lookup ⟨polls, phase⟩⟩

theorem admittedWithin_iff :
    AdmittedWithin backing room state (.access id fault spurious) ↔
      ∀ call ∈ state.calls[id]?, call.phase.checksCapacity = true →
        wrappingSub call.ticket state.queue.retired < backing.entryCount →
          id < state.consumed + room := by
  simp only [AdmittedWithin, SubmitPhase.checksCapacity_iff, Option.mem_def]
  exact ⟨fun within call lookup ⟨polls, phase⟩ => within call polls lookup phase,
    fun within call polls lookup phase => within call lookup ⟨polls, phase⟩⟩

instance : ∀ (state : RingState N) (action : SubmitAction), Decidable (FreshHeadRead state action)
  | _, .access _ none _ => decidable_of_iff _ freshHeadRead_iff.symm
  | _, .access _ (some _) _ | _, .submit _ | _, .consume => isTrue trivial

instance (backing : CommandQueueBacking) (room : Nat) :
    ∀ (state : RingState N) (action : SubmitAction),
      Decidable (AdmittedWithin backing room state action)
  | _, .access _ _ _ => decidable_of_iff _ admittedWithin_iff.symm
  | _, .submit _ | _, .consume => isTrue trivial

end Decided

section Access

variable (mmu : Translation) (backing : CommandQueueBacking) (state : RingState N)
  (call : SubmitCall) (fault : Option Error) (spurious : Bool)

theorem SubmitCall.access_consumed :
    (call.access mmu backing state fault spurious).1.consumed = state.consumed := by
  unfold SubmitCall.access
  dsimp only
  repeat' split
  all_goals rfl

theorem SubmitCall.access_bytes :
    (call.access mmu backing state fault spurious).2.bytes = call.bytes := by
  unfold SubmitCall.access
  dsimp only
  repeat' split
  all_goals rfl

theorem SubmitCall.access_published :
    (call.access mmu backing state fault spurious).1.published = state.published ∨
      call.phase = .writeTail ∧
        (call.access mmu backing state fault spurious).1.published = state.published + 1 := by
  unfold SubmitCall.access
  dsimp only
  repeat' split
  all_goals try exact Or.inl rfl
  rename_i phase
  refine Or.inr ⟨phase, ?_⟩
  rw [RingState.published, RingState.writeTail, List.length_append]
  rfl

theorem SubmitCall.access_retired :
    (call.access mmu backing state fault spurious).1.queue.retired = state.queue.retired ∨
      call.phase.Finishing ∧ (call.access mmu backing state fault spurious).1.queue.retired =
        wrappingAdd call.ticket 1 := by
  unfold SubmitCall.access
  dsimp only
  repeat' split
  all_goals try exact Or.inl rfl
  rename_i phase _ _
  exact Or.inr ⟨phase ▸ trivial, rfl⟩

variable {mmu backing state call fault spurious}

theorem SubmitCall.access_admitted
    (admitted : (call.access mmu backing state fault spurious).2.phase.Admitted) :
    call.phase.Admitted ∨ ∃ polls, call.phase = .waitForCapacity (polls + 1) ∧
      wrappingSub call.ticket state.queue.retired < backing.entryCount := by
  cases phase : call.phase with
  | waitForCapacity polls =>
      cases polls with
      | zero => simp [SubmitCall.access, phase, giveUp, moveTo, SubmitPhase.Admitted] at admitted
      | succ polls =>
          by_cases fits : wrappingSub call.ticket state.queue.retired < backing.entryCount
          · exact Or.inr ⟨polls, rfl, fits⟩
          · simp [SubmitCall.access, phase, fits, moveTo, SubmitPhase.Admitted] at admitted
  | waitForEmpty polls | storeWriting | writeSlot vaddr offset | storeReady | waitToPublish polls
  | writeTail => exact Or.inl trivial
  | waitForConsumed polls =>
      cases polls with
      | zero => simp [SubmitCall.access, phase, giveUp, moveTo, SubmitPhase.Admitted] at admitted
      | succ polls =>
          cases fault with
          | some error =>
              simp [SubmitCall.access, phase, giveUp, moveTo, SubmitPhase.Admitted] at admitted
          | none =>
              simp only [SubmitCall.access, phase] at admitted
              split at admitted
              all_goals simp [moveTo, SubmitPhase.Admitted] at admitted
  | checkError =>
      cases fault with
      | some error | none =>
          simp [SubmitCall.access, phase, giveUp, moveTo, SubmitPhase.Admitted] at admitted
  | exchangeRetired current =>
      simp only [SubmitCall.access, phase] at admitted
      repeat' split at admitted
      all_goals simp [moveTo, SubmitPhase.Admitted] at admitted
  | storePublished | storeCommitted | storeEmpty | loadRetired | returned outcome =>
      simp [SubmitCall.access, phase, moveTo, SubmitPhase.Admitted] at admitted

theorem SubmitCall.access_finishing
    (finishing : (call.access mmu backing state fault spurious).2.phase.Finishing) :
    call.phase.Finishing ∨ fault = none ∧ ∃ polls, call.phase = .waitForConsumed (polls + 1) ∧
      state.head backing / backing.entryBytes ≠ ticketSlot backing call.ticket := by
  cases phase : call.phase with
  | waitForCapacity polls | waitForEmpty polls | waitToPublish polls =>
      cases polls with
      | zero => simp [SubmitCall.access, phase, giveUp, moveTo, SubmitPhase.Finishing] at finishing
      | succ polls =>
          simp only [SubmitCall.access, phase] at finishing
          split at finishing
          all_goals simp [moveTo, SubmitPhase.Finishing] at finishing
  | storeWriting =>
      simp only [SubmitCall.access, phase] at finishing
      split at finishing
      all_goals simp [giveUp, moveTo, SubmitPhase.Finishing] at finishing
  | writeSlot vaddr offset =>
      simp only [SubmitCall.access, phase, moveTo] at finishing
      split at finishing
      all_goals simp [SubmitPhase.Finishing] at finishing
  | storeReady | writeTail | storePublished | storeCommitted =>
      simp [SubmitCall.access, phase, moveTo, SubmitPhase.Finishing] at finishing
  | waitForConsumed polls =>
      cases polls with
      | zero => simp [SubmitCall.access, phase, giveUp, moveTo, SubmitPhase.Finishing] at finishing
      | succ polls =>
          cases fault with
          | some error =>
              simp [SubmitCall.access, phase, giveUp, moveTo, SubmitPhase.Finishing] at finishing
          | none =>
              by_cases moved : state.head backing / backing.entryBytes ≠
                  ticketSlot backing call.ticket
              · exact Or.inr ⟨rfl, polls, rfl, moved⟩
              · simp [SubmitCall.access, phase, moved, moveTo, SubmitPhase.Finishing] at finishing
  | checkError | storeEmpty | loadRetired | exchangeRetired current => exact Or.inl trivial
  | returned outcome =>
      simp only [SubmitCall.access, phase] at finishing
      exact Or.inl finishing

end Access

theorem RingState.PhaseFacts.holdsSlot_of_filling {backing : CommandQueueBacking}
    {state : RingState N} {id : Nat} {call : SubmitCall} (facts : state.PhaseFacts backing id call)
    (filling : call.phase.Filling) : call.holdsSlot = true := by
  cases phase : call.phase with
  | storeWriting =>
      simp only [RingState.PhaseFacts, phase] at facts
      exact facts.2.2
  | writeSlot vaddr offset =>
      simp only [RingState.PhaseFacts, phase] at facts
      exact facts.1.2.2
  | _ =>
      rw [phase] at filling
      exact filling.elim

theorem RingState.head_div (backing : CommandQueueBacking) (state : RingState N) :
    state.head backing / backing.entryBytes = state.consumed % backing.entryCount :=
  Nat.mul_div_cancel _ backing.entryBytes_pos

structure RoomInvariant (room : Nat) (state : RingState N) : Prop where
  published : state.published ≤ state.consumed + room
  admitted : ∀ id call, state.calls[id]? = some call → call.phase.Admitted →
    id < state.consumed + room

structure DrainInvariant (state : RingState N) : Prop where
  retired : state.queue.retired ≤ state.consumed
  finishing : ∀ id call, state.calls[id]? = some call → call.phase.Finishing → id < state.consumed

section Step

variable {mmu : Translation} {backing : CommandQueueBacking} {state next : RingState N}
  {action : SubmitAction}

theorem RingState.step_call (stepped : state.step mmu backing action = some next) {id : Nat}
    {moved : SubmitCall} (hit : next.calls[id]? = some moved) :
    state.calls[id]? = some moved ∨
      (∃ bytes, WidthFits backing bytes ∧ moved =
        ⟨state.queue.claim, bytes, .waitForCapacity COMMAND_QUEUE_POLL_LIMIT, false⟩) ∨
      ∃ call fault spurious, action = .access id fault spurious ∧ state.calls[id]? = some call ∧
        moved = (call.access mmu backing state fault spurious).2 := by
  cases action with
  | submit bytes =>
      simp only [RingState.step] at stepped
      split at stepped
      · rename_i fits
        obtain rfl := Option.some.inj stepped
        rcases Nat.lt_or_ge id state.calls.length with old | new
        · rw [List.getElem?_append_left old] at hit
          exact Or.inl hit
        · rw [List.getElem?_append_right new, List.getElem?_singleton] at hit
          split at hit
          · exact Or.inr (Or.inl ⟨bytes, fits, (Option.some.inj hit).symm⟩)
          · contradiction
      · obtain rfl := Option.some.inj stepped
        exact Or.inl hit
  | access target fault spurious =>
      obtain ⟨call, lookup, rfl⟩ := Option.map_eq_some_iff.mp stepped
      rw [RingState.setCall, RingState.access_calls, List.getElem?_set] at hit
      split at hit
      · rename_i same
        subst same
        split at hit
        · exact Or.inr (Or.inr ⟨call, fault, spurious, rfl, lookup, (Option.some.inj hit).symm⟩)
        · contradiction
      · exact Or.inl hit
  | consume =>
      simp only [RingState.step] at stepped
      split at stepped
      · obtain rfl := Option.some.inj stepped
        exact Or.inl hit
      · contradiction

theorem RingState.step_consumed (stepped : state.step mmu backing action = some next) :
    state.consumed ≤ next.consumed := by
  cases action with
  | submit bytes =>
      simp only [RingState.step] at stepped
      split at stepped
      all_goals exact Option.some.inj stepped ▸ Nat.le_refl _
  | access id fault spurious =>
      obtain ⟨call, lookup, rfl⟩ := Option.map_eq_some_iff.mp stepped
      exact Nat.le_of_eq (SubmitCall.access_consumed mmu backing state call fault spurious).symm
  | consume =>
      simp only [RingState.step] at stepped
      split at stepped
      · exact Option.some.inj stepped ▸ Nat.le_succ _
      · contradiction

theorem RingState.step_published (stepped : state.step mmu backing action = some next) :
    next.published = state.published ∨ next.published = state.published + 1 ∧
      ∃ (id : Nat) (call : SubmitCall),
        state.calls[id]? = some call ∧ call.phase = .writeTail := by
  cases action with
  | submit bytes =>
      simp only [RingState.step] at stepped
      split at stepped
      all_goals exact Or.inl (Option.some.inj stepped ▸ rfl)
  | access id fault spurious =>
      obtain ⟨call, lookup, rfl⟩ := Option.map_eq_some_iff.mp stepped
      rcases SubmitCall.access_published mmu backing state call fault spurious with same | ⟨phase, grown⟩
      · exact Or.inl same
      · exact Or.inr ⟨grown, id, call, lookup, phase⟩
  | consume =>
      simp only [RingState.step] at stepped
      split at stepped
      · exact Or.inl (Option.some.inj stepped ▸ rfl)
      · contradiction

theorem RingState.step_retired (stepped : state.step mmu backing action = some next) :
    next.queue.retired = state.queue.retired ∨
      ∃ (id : Nat) (call : SubmitCall), state.calls[id]? = some call ∧ call.phase.Finishing ∧
        next.queue.retired = wrappingAdd call.ticket 1 := by
  cases action with
  | submit bytes =>
      simp only [RingState.step] at stepped
      split at stepped
      all_goals exact Or.inl (Option.some.inj stepped ▸ rfl)
  | access id fault spurious =>
      obtain ⟨call, lookup, rfl⟩ := Option.map_eq_some_iff.mp stepped
      rcases SubmitCall.access_retired mmu backing state call fault spurious with same | ⟨phase, grown⟩
      · exact Or.inl same
      · exact Or.inr ⟨id, call, lookup, phase, grown⟩
  | consume =>
      simp only [RingState.step] at stepped
      split at stepped
      · exact Or.inl (Option.some.inj stepped ▸ rfl)
      · contradiction

theorem RoomInvariant.step_preserved {room : Nat} (ring : RingInvariant backing state)
    (holds : RoomInvariant room state) (within : AdmittedWithin backing room state action)
    (stepped : state.step mmu backing action = some next) : RoomInvariant room next := by
  have grows := RingState.step_consumed stepped
  constructor
  · rcases RingState.step_published stepped with same | ⟨grown, id, call, lookup, phase⟩
    · have before := holds.published
      omega
    · have facts := (ring.calls id call lookup).2
      simp only [RingState.PhaseFacts, phase] at facts
      have near := holds.admitted id call lookup (by rw [phase]; trivial)
      have unpublished := facts.1.1
      omega
  · intro id moved hit admitted
    suffices near : id < state.consumed + room by omega
    rcases RingState.step_call stepped hit with old | ⟨bytes, _, rfl⟩ |
      ⟨call, fault, spurious, rfl, lookup, rfl⟩
    · exact holds.admitted id moved old admitted
    · exact admitted.elim
    · rcases SubmitCall.access_admitted admitted with before | ⟨polls, phase, fits⟩
      · exact holds.admitted id call lookup before
      · exact within call polls lookup phase fits

theorem consumed_of_fresh {id : Nat} (fresh : id ≤ state.consumed)
    (moved : state.head backing / backing.entryBytes ≠ ticketSlot backing id) :
    id < state.consumed := by
  rw [RingState.head_div, ticketSlot_eq] at moved
  rcases Nat.lt_or_eq_of_le fresh with passed | level
  · exact passed
  · exact absurd (congrArg (· % backing.entryCount) level.symm) moved

theorem DrainInvariant.step_preserved (ring : RingInvariant backing state)
    (holds : DrainInvariant state) (fresh : FreshHeadRead state action)
    (stepped : state.step mmu backing action = some next) : DrainInvariant next := by
  have grows := RingState.step_consumed stepped
  constructor
  · rcases RingState.step_retired stepped with same | ⟨id, call, lookup, finishing, moved⟩
    · have before := holds.retired
      omega
    · have passed := holds.finishing id call lookup finishing
      have below := (List.getElem?_eq_some_iff.mp lookup).1
      have fewer := ring.fewer
      rw [(ring.calls id call lookup).1, wrappingAdd_of_lt (by omega)] at moved
      omega
  · intro id moved hit finishing
    suffices passed : id < state.consumed by omega
    rcases RingState.step_call stepped hit with old | ⟨bytes, _, rfl⟩ |
      ⟨call, fault, spurious, rfl, lookup, rfl⟩
    · exact holds.finishing id moved old finishing
    · exact finishing.elim
    · rcases SubmitCall.access_finishing finishing with before | ⟨rfl, polls, phase, moved⟩
      · exact holds.finishing id call lookup before
      · rw [(ring.calls id call lookup).1] at moved
        exact consumed_of_fresh (fresh call polls lookup phase) moved

theorem DrainInvariant.admittedWithin (ring : RingInvariant backing state)
    (holds : DrainInvariant state) : AdmittedWithin backing backing.entryCount state action := by
  cases action with
  | submit bytes | consume => trivial
  | access id fault spurious =>
      intro call polls lookup phase fits
      have facts := ring.calls id call lookup
      simp only [RingState.PhaseFacts, phase, RingState.Waiting] at facts
      have below := (List.getElem?_eq_some_iff.mp lookup).1
      have fewer := ring.fewer
      have retiredLe := ring.retiredLe
      have committedLe := ring.committedLe
      have behind := holds.retired
      rw [facts.1, wrappingSub_of_le (by omega) (by omega)] at fits
      omega

end Step

section SmallRings

def ringRun (backing : CommandQueueBacking) (actions : List SubmitAction) : Option (RingState 4) :=
  Transition.run (RingState.step id backing) (RingState.initial (ready backing) fun _ => 0) actions

/-- Two tickets filled side by side and published. The second submitter reads the head only when the
first ticket is consumed, and its exchange fails once because the other's came before. -/
def overlapping : List SubmitAction :=
  .submit (List.replicate 8 1) :: .submit (List.replicate 8 2) ::
    (List.replicate 12 [.access 0 none false, .access 1 none false]).flatten ++
      List.replicate 5 (.access 0 none false) ++ List.replicate 4 (.access 1 none false) ++
        .consume :: .access 1 none false :: .access 0 none false :: .consume ::
          (List.replicate 4 [.access 1 none false, .access 0 none false]).flatten ++
            [.access 1 none false, .access 1 none false]

/-- The second ticket of a ring of two is admitted when the first has been consumed, and published before
the first is finished. -/
def handedOver : List SubmitAction :=
  .submit (List.replicate 8 1) :: .submit (List.replicate 8 2) ::
    List.replicate 16 (.access 0 none false) ++ .consume :: List.replicate 16 (.access 1 none false) ++
      [.access 0 none false, .access 1 none false]

/-- Two published descriptors on four slots: the second submitter finds the head at slot 0,
returns, and the ticket one lap later starts to fill its slot. -/
def earlyReturn : List SubmitAction :=
  .submit (List.replicate 8 1) :: .submit (List.replicate 8 2) ::
    List.replicate 16 (.access 0 none false) ++ List.replicate 21 (.access 1 none false) ++
      List.replicate 4 (.submit (List.replicate 8 3)) ++ List.replicate 4 (.access 5 none false)

def fullRing : List SubmitAction :=
  .submit (List.replicate 8 1) :: List.replicate 16 (.access 0 none false) ++
    .submit (List.replicate 8 2) :: List.replicate 14 (.access 1 none false)

end SmallRings

section Run

variable {mmu : Translation} {backing : CommandQueueBacking} {fresh queue : CommandQueue N}
  {memory : Memory} {actions : List SubmitAction} {state : RingState N}

theorem RoomInvariant.initial (room : Nat) (queue : CommandQueue N) (memory : Memory) :
    RoomInvariant room (RingState.initial queue memory) :=
  ⟨Nat.zero_le _, fun id call lookup => by simp [RingState.initial] at lookup⟩

theorem DrainInvariant.initial (ready : fresh.init backing = .ok queue) (memory : Memory) :
    DrainInvariant (RingState.initial queue memory) :=
  ⟨Nat.le_of_eq (init_counters ready).2.2,
    fun id call lookup => by simp [RingState.initial] at lookup⟩

theorem roomInvariant_of_run (mapped : backing.Mapped mmu) (ready : fresh.init backing = .ok queue)
    {room : Nat}
    (meets : Transition.Meets (RingState.step mmu backing) (AdmittedWithin backing room)
      (RingState.initial queue memory) actions)
    (reached : Transition.run (RingState.step mmu backing) (RingState.initial queue memory) actions =
      some state)
    (fewer : state.calls.length < limit) : RoomInvariant room state := by
  refine (Transition.invariant_of_meets
    (fun state => state.calls.length < limit →
      RingInvariant backing state ∧ RoomInvariant room state)
    ?_ (fun _ => ⟨.initial_holds ready memory, .initial room queue memory⟩) meets reached fewer).2
  intro state action next holds within stepped small
  have before := RingState.calls_grow state action next stepped
  obtain ⟨ring, roomy⟩ := holds (by omega)
  exact ⟨ring.step_preserved mapped stepped small, roomy.step_preserved ring within stepped⟩

theorem drainInvariant_of_run (mapped : backing.Mapped mmu)
    (ready : fresh.init backing = .ok queue)
    (meets : Transition.Meets (RingState.step mmu backing) FreshHeadRead
      (RingState.initial queue memory) actions)
    (reached : Transition.run (RingState.step mmu backing) (RingState.initial queue memory) actions =
      some state)
    (fewer : state.calls.length < limit) :
    DrainInvariant state ∧ RoomInvariant backing.entryCount state := by
  refine (Transition.invariant_of_meets
    (fun state => state.calls.length < limit → RingInvariant backing state ∧
      DrainInvariant state ∧ RoomInvariant backing.entryCount state)
    ?_ (fun _ => ⟨.initial_holds ready memory, .initial ready memory, .initial _ queue memory⟩)
    meets reached fewer).2
  intro state action next holds fresh stepped small
  have before := RingState.calls_grow state action next stepped
  obtain ⟨ring, drained, roomy⟩ := holds (by omega)
  exact ⟨ring.step_preserved mapped stepped small, drained.step_preserved ring fresh stepped,
    roomy.step_preserved ring (drained.admittedWithin ring) stepped⟩

theorem widthFits_of_run
    (reached : Transition.run (RingState.step mmu backing) (RingState.initial queue memory) actions =
      some state) :
    ∀ (id : Nat) (call : SubmitCall), state.calls[id]? = some call →
      WidthFits backing call.bytes := by
  refine Transition.invariant_of_run
    (fun state => ∀ (id : Nat) (call : SubmitCall), state.calls[id]? = some call →
      WidthFits backing call.bytes)
    ?_ (fun id call lookup => by simp [RingState.initial] at lookup) reached
  intro state action next holds stepped id moved hit
  rcases RingState.step_call stepped hit with old | ⟨bytes, fits, rfl⟩ |
    ⟨call, fault, spurious, _, lookup, rfl⟩
  · exact holds id moved old
  · exact fits
  · rw [SubmitCall.access_bytes]
    exact holds id call lookup

/-- Slots have one owner, tails are written in ticket order, and the counters stay ordered. -/
theorem slots_owned_and_published_in_order (mapped : backing.Mapped mmu)
    (ready : fresh.init backing = .ok queue)
    (reached : Transition.run (RingState.step mmu backing) (RingState.initial queue memory) actions =
      some state)
    (fewer : state.calls.length < limit) :
    (∀ first second firstCall secondCall,
      state.calls[first]? = some firstCall → state.calls[second]? = some secondCall →
        firstCall.holdsSlot = true → secondCall.holdsSlot = true →
          ticketSlot backing first = ticketSlot backing second → first = second) ∧
    (∀ (id : Nat) (call : SubmitCall), state.calls[id]? = some call →
      call.ticket = id ∧ (call.phase.Filling → call.holdsSlot = true)) ∧
    (∀ position write, state.tailWrites[position]? = some write →
      ∃ call, state.calls[position]? = some call ∧ write.ticket = position ∧
        write.value = ((position + 1) % backing.entryCount) * backing.entryBytes ∧
        write.entry = call.bytes ++
          List.replicate (backing.entryBytes - call.bytes.length) 0) ∧
    state.queue.retired ≤ state.queue.committed ∧ state.queue.committed ≤ state.queue.claim := by
  have ring := ringInvariant_of_run mapped ready reached fewer
  refine ⟨ring.exclusive, ?_, ?_, ring.retiredLe, ?_⟩
  · intro id call lookup
    obtain ⟨ticket, facts⟩ := ring.calls id call lookup
    exact ⟨ticket, fun filling => RingState.PhaseFacts.holdsSlot_of_filling facts filling⟩
  · intro position write hit
    obtain ⟨call, lookup, rfl⟩ := ring.writes position write hit
    have fits := widthFits_of_run reached position call lookup
    exact ⟨call, lookup, rfl, rfl, paddedEntry_eq fits.2⟩
  · have committedLe := ring.committedLe
    have publishedCalls := ring.publishedCalls
    have claimed := ring.claimed
    omega

set_option maxRecDepth 10000 in
theorem overlapping_publishes_in_order :
    ∃ state, ringRun fourEntryRing overlapping = some state ∧ state.published = 2 ∧
      ∀ position write, state.tailWrites[position]? = some write →
        write.ticket = position ∧ write.value = ((position + 1) % 4) * 8 := by
  obtain ⟨state, reached, counted⟩ := Option.map_eq_some_iff.mp
    (by decide : (ringRun fourEntryRing overlapping).map
      (fun state => (state.calls.length, state.published)) = some (2, 2))
  obtain ⟨calls, published⟩ := Prod.mk.inj counted
  refine ⟨state, reached, published, fun position write hit => ?_⟩
  obtain ⟨call, lookup, ticket, value, entry⟩ :=
    (slots_owned_and_published_in_order (smallRing_mapped 2 _) (init_new (by decide)) reached
      (by rw [calls]; decide)).2.2.1 position write hit
  exact ⟨ticket, value⟩

/-- While heads are read freshly, a finished ticket has been consumed and no slot is refilled
under an unconsumed descriptor; any other head read finishes its ticket too early. -/
theorem finished_tickets_consumed (mapped : backing.Mapped mmu)
    (ready : fresh.init backing = .ok queue)
    (meets : Transition.Meets (RingState.step mmu backing) FreshHeadRead
      (RingState.initial queue memory) actions)
    (reached : Transition.run (RingState.step mmu backing) (RingState.initial queue memory) actions =
      some state)
    (fewer : state.calls.length < limit) :
    (∀ id call, state.calls[id]? = some call → call.phase.Finishing → id < state.consumed) ∧
    (∀ id call, state.calls[id]? = some call → call.phase.Filling →
      ∀ earlier < id, ticketSlot backing earlier = ticketSlot backing id →
        earlier < state.consumed) ∧
    (∀ id call polls spurious, state.calls[id]? = some call →
      call.phase = .waitForConsumed (polls + 1) → state.consumed < id →
        (call.access mmu backing state none spurious).2.phase = .checkError) := by
  have ring := ringInvariant_of_run mapped ready reached fewer
  obtain ⟨drained, roomy⟩ := drainInvariant_of_run mapped ready meets reached fewer
  refine ⟨drained.finishing, ?_, ?_⟩
  · intro id call lookup filling earlier before same
    have near := roomy.admitted id call lookup filling.admitted
    by_contra unconsumed
    have equal := eq_of_ticketSlot_eq state.consumed same (by omega) (by omega) (by omega)
      near
    omega
  · intro id call polls spurious lookup phase unconsumed
    obtain ⟨ticket, facts⟩ := ring.calls id call lookup
    simp only [RingState.PhaseFacts, phase] at facts
    have below := facts.1
    have committedLe := ring.committedLe
    have near := roomy.published
    have apart : state.head backing / backing.entryBytes ≠ ticketSlot backing call.ticket := by
      rw [RingState.head_div, ticket, ← ticketSlot_eq]
      intro same
      have equal := eq_of_ticketSlot_eq state.consumed same (by omega)
        (Nat.lt_add_of_pos_right backing.entryCount_pos) (by omega) (by omega)
      omega
    simp only [SubmitCall.access, phase]
    rw [if_pos apart]
    rfl

set_option maxRecDepth 10000 in
theorem overlapping_finishes_consumed :
    ∃ state, ringRun fourEntryRing overlapping = some state ∧
      (∃ call, state.calls[1]? = some call ∧ call.phase = .returned (.ok ())) ∧ 1 < state.consumed := by
  obtain ⟨state, reached, finished⟩ := Option.map_eq_some_iff.mp
    (by decide : (ringRun fourEntryRing overlapping).map
      (fun state => (state.calls.length, state.calls[1]?.map (·.phase))) =
        some (2, some (.returned (.ok ()))))
  obtain ⟨calls, returned⟩ := Prod.mk.inj finished
  obtain ⟨call, lookup, phase⟩ := Option.map_eq_some_iff.mp returned
  have meets : Transition.Meets (RingState.step id fourEntryRing) FreshHeadRead
      (RingState.initial (N := 4) (ready fourEntryRing) fun _ => 0) overlapping := by decide
  have consumed := (finished_tickets_consumed (smallRing_mapped 2 _) (init_new (by decide)) meets
    reached (by rw [calls]; decide)).1 1 call lookup
  exact ⟨state, reached, ⟨call, lookup, phase⟩, consumed (by rw [phase]; trivial)⟩

set_option maxRecDepth 10000 in
theorem earlyReturn_finishes_unconsumed :
    ∃ state, ringRun fourEntryRing earlyReturn = some state ∧
      ¬(∀ id call, state.calls[id]? = some call → call.phase.Finishing → id < state.consumed) ∧
      ¬(∀ id call, state.calls[id]? = some call → call.phase.Filling →
        ∀ earlier < id, ticketSlot fourEntryRing earlier = ticketSlot fourEntryRing id →
          earlier < state.consumed) := by
  obtain ⟨state, reached, shown⟩ := Option.map_eq_some_iff.mp
    (by decide : (ringRun fourEntryRing earlyReturn).map (fun state =>
      (state.consumed, state.calls[1]?.map (·.phase), state.calls[5]?.map (·.phase))) =
        some (0, some (.returned (.ok ())), some (.writeSlot 8 1)))
  obtain ⟨consumed, shown⟩ := Prod.mk.inj shown
  obtain ⟨returned, filling⟩ := Prod.mk.inj shown
  obtain ⟨first, firstLookup, firstPhase⟩ := Option.map_eq_some_iff.mp returned
  obtain ⟨second, secondLookup, secondPhase⟩ := Option.map_eq_some_iff.mp filling
  refine ⟨state, reached, fun finished => ?_, fun kept => ?_⟩
  · have passed := finished 1 first firstLookup (by rw [firstPhase]; trivial)
    omega
  · have passed := kept 5 second secondLookup (by rw [secondPhase]; trivial) 1 (by decide) (by decide)
    omega

/-- While tickets are admitted with a slot to spare, the tail never catches up with the head. -/
theorem tail_apart_from_head (mapped : backing.Mapped mmu)
    (ready : fresh.init backing = .ok queue)
    (meets : Transition.Meets (RingState.step mmu backing)
      (AdmittedWithin backing (backing.entryCount - 1)) (RingState.initial queue memory) actions)
    (reached : Transition.run (RingState.step mmu backing) (RingState.initial queue memory) actions =
      some state)
    (fewer : state.calls.length < limit) :
    state.published - state.consumed ≤ backing.entryCount - 1 ∧
      (state.consumed < state.published → state.tail ≠ state.head backing) := by
  have ring := ringInvariant_of_run mapped ready reached fewer
  have roomy := (roomInvariant_of_run mapped ready meets reached fewer).published
  refine ⟨by omega, fun unconsumed same => ?_⟩
  have positive := backing.entryCount_pos
  rw [ring.tailValue, RingState.head] at same
  have slots := Nat.eq_of_mul_eq_mul_right backing.entryBytes_pos same
  rw [← ticketSlot_eq, ← ticketSlot_eq] at slots
  have equal := eq_of_ticketSlot_eq state.consumed slots (by omega) (by omega) (by omega)
    (by omega)
  omega

set_option maxRecDepth 10000 in
theorem handedOver_tail_apart :
    ∃ state, ringRun twoEntryRing handedOver = some state ∧ state.published = 2 ∧
      state.consumed = 1 ∧ state.tail ≠ state.head twoEntryRing := by
  obtain ⟨state, reached, shown⟩ := Option.map_eq_some_iff.mp
    (by decide : (ringRun twoEntryRing handedOver).map (fun state =>
      (state.calls.length, state.published, state.consumed)) = some (2, 2, 1))
  obtain ⟨calls, shown⟩ := Prod.mk.inj shown
  obtain ⟨published, consumed⟩ := Prod.mk.inj shown
  have meets : Transition.Meets (RingState.step id twoEntryRing) (AdmittedWithin twoEntryRing 1)
      (RingState.initial (N := 4) (ready twoEntryRing) fun _ => 0) handedOver := by decide
  have apart := (tail_apart_from_head (smallRing_mapped 1 _) (init_new (by decide)) meets
    reached (by rw [calls]; decide)).2
  exact ⟨state, reached, published, consumed, apart (by omega)⟩

set_option maxRecDepth 10000 in
theorem fullRing_tail_meets_head :
    ∃ state, ringRun twoEntryRing fullRing = some state ∧
      state.published - state.consumed = 2 ∧ state.tail = state.head twoEntryRing := by
  obtain ⟨state, reached, shown⟩ := Option.map_eq_some_iff.mp
    (by decide : (ringRun twoEntryRing fullRing).map (fun state =>
      (state.published - state.consumed, decide (state.tail = state.head twoEntryRing))) =
        some (2, true))
  obtain ⟨unconsumed, level⟩ := Prod.mk.inj shown
  exact ⟨state, reached, unconsumed, of_decide_eq_true level⟩

end Run

end Iommu
