import Iommu.Queue.SubmitThreads

/-!
The global invariant of concurrent submits: the counters, the slot states, the ring
memory and the position of every call, linked so that each atomic access keeps them.
-/

namespace Iommu

open MachineWord Memory CommandQueue

variable {N : Nat}

theorem eq_of_ticketSlot_eq {backing : CommandQueueBacking} {first second : Nat} (low : Nat)
    (same : ticketSlot backing first = ticketSlot backing second)
    (firstLow : low ≤ first) (firstHigh : first < low + backing.entryCount)
    (secondLow : low ≤ second) (secondHigh : second < low + backing.entryCount) :
    first = second := by
  rw [ticketSlot_eq, ticketSlot_eq] at same
  rcases Nat.le_total first second with ordered | ordered
  · have congruent : (second - first) % backing.entryCount = 0 :=
      Nat.sub_mod_eq_zero_of_mod_eq same.symm
    rw [Nat.mod_eq_of_lt (by omega)] at congruent
    omega
  · have congruent : (first - second) % backing.entryCount = 0 :=
      Nat.sub_mod_eq_zero_of_mod_eq same
    rw [Nat.mod_eq_of_lt (by omega)] at congruent
    omega

theorem CommandQueue.init_counters {fresh queue : CommandQueue N} {backing : CommandQueueBacking}
    (ready : fresh.init backing = .ok queue) :
    queue.claim = 0 ∧ queue.committed = 0 ∧ queue.retired = 0 := by
  rw [CommandQueue.init] at ready
  split at ready
  · contradiction
  · obtain rfl := Except.ok.inj ready
    exact ⟨rfl, rfl, rfl⟩

namespace RingState

def published (state : RingState N) : Nat := state.tailWrites.length

def entryPaddr (backing : CommandQueueBacking) (ticket : Nat) : Nat :=
  backing.phys.start + ticketSlot backing ticket * backing.entryBytes

def setByte (paddr : Nat) (value : UInt8) (state : RingState N) : RingState N :=
  { state with memory := Function.update state.memory paddr value }

def Waiting (state : RingState N) (id : Nat) (call : SubmitCall) : Prop :=
  state.published ≤ id ∧ call.holdsSlot = false

def Placed (backing : CommandQueueBacking) (state : RingState N) (id : Nat)
    (call : SubmitCall) : Prop :=
  state.published ≤ id ∧ id < state.queue.committed + backing.entryCount ∧ call.holdsSlot = true

def Marked (backing : CommandQueueBacking) (state : RingState N) (id : Nat) : Prop :=
  state.queue.slotState (ticketSlot backing id) ≠ .empty

def Written (backing : CommandQueueBacking) (state : RingState N) (id : Nat) (call : SubmitCall)
    (count : Nat) : Prop :=
  ∀ offset < count, state.memory (entryPaddr backing id + offset) = call.bytes.getD offset 0

def Publishing (backing : CommandQueueBacking) (state : RingState N) (id : Nat)
    (call : SubmitCall) : Prop :=
  state.published = id + 1 ∧ state.queue.committed = id ∧ call.holdsSlot = true ∧
    state.Marked backing id

def Outstanding (backing : CommandQueueBacking) (state : RingState N) (id : Nat)
    (call : SubmitCall) : Prop :=
  id < state.queue.committed ∧ call.holdsSlot = true ∧ state.Marked backing id

def Released (state : RingState N) (id : Nat) (call : SubmitCall) : Prop :=
  id < state.queue.committed ∧ call.holdsSlot = false

/-- What holds of a call that stands at the given access. -/
def PhaseFacts (backing : CommandQueueBacking) (state : RingState N) (id : Nat)
    (call : SubmitCall) : Prop :=
  match call.phase with
  | .waitForCapacity _ => state.Waiting id call
  | .waitForEmpty _ =>
      state.Waiting id call ∧ id < state.queue.committed + backing.entryCount
  | .storeWriting => state.Placed backing id call
  | .writeSlot vaddr offset =>
      state.Placed backing id call ∧ state.Marked backing id ∧
        vaddr = backing.virt.start + ticketSlot backing id * backing.entryBytes ∧
        offset < backing.entryBytes ∧ state.Written backing id call offset
  | .storeReady | .waitToPublish _ =>
      state.Placed backing id call ∧ state.Marked backing id ∧
        state.Written backing id call backing.entryBytes
  | .writeTail =>
      state.Placed backing id call ∧ state.Marked backing id ∧
        state.Written backing id call backing.entryBytes ∧ state.queue.committed = id
  | .storePublished | .storeCommitted => state.Publishing backing id call
  | .waitForConsumed _ | .checkError | .storeEmpty => state.Outstanding backing id call
  | .loadRetired | .exchangeRetired _ | .returned (.ok ()) => state.Released id call
  | .returned (.error _) =>
      state.Waiting id call ∨ (state.Placed backing id call ∧ state.Marked backing id) ∨
        state.Outstanding backing id call

end RingState

def expectedTailWrite (backing : CommandQueueBacking) (id : Nat) (call : SubmitCall) : TailWrite :=
  ⟨id, ((id + 1) % backing.entryCount) * backing.entryBytes,
    paddedEntry backing.entryBytes call.bytes⟩

structure RingInvariant (backing : CommandQueueBacking) (state : RingState N) : Prop where
  claimed : state.queue.claim = state.calls.length
  fewer : state.calls.length < limit
  retiredLe : state.queue.retired ≤ state.queue.committed
  committedLe : state.queue.committed ≤ state.published
  publishedLe : state.published ≤ state.queue.committed + 1
  publishedCalls : state.published ≤ state.calls.length
  consumedLe : state.consumed ≤ state.published
  tailValue : state.tail = (state.published % backing.entryCount) * backing.entryBytes
  calls : ∀ id call, state.calls[id]? = some call →
    call.ticket = id ∧ state.PhaseFacts backing id call
  exclusive : ∀ first second firstCall secondCall,
    state.calls[first]? = some firstCall → state.calls[second]? = some secondCall →
      firstCall.holdsSlot = true → secondCall.holdsSlot = true →
        ticketSlot backing first = ticketSlot backing second → first = second
  writes : ∀ id write, state.tailWrites[id]? = some write →
    ∃ call, state.calls[id]? = some call ∧ write = expectedTailWrite backing id call

/-- What one access of ticket `id` leaves alone from the point of view of another call. -/
structure Undisturbed (backing : CommandQueueBacking) (state shared : RingState N) (id : Nat)
    (call : SubmitCall) : Prop where
  counters :
    (shared.published = state.published ∧ shared.queue.committed = state.queue.committed) ∨
    (shared.published = state.published + 1 ∧ shared.queue.committed = state.queue.committed ∧
      state.published = state.queue.committed ∧ state.queue.committed ≠ id) ∨
    (shared.published = state.published ∧ shared.queue.committed = state.queue.committed + 1 ∧
      state.published = state.queue.committed + 1 ∧ state.queue.committed ≠ id)
  slot : call.holdsSlot = true →
    shared.queue.slotState (ticketSlot backing id) = state.queue.slotState (ticketSlot backing id)
  bytes : call.holdsSlot = true → ∀ offset < backing.entryBytes,
    shared.memory (RingState.entryPaddr backing id + offset) =
      state.memory (RingState.entryPaddr backing id + offset)

namespace Undisturbed

variable {backing : CommandQueueBacking} {state shared : RingState N} {id : Nat} {call : SubmitCall}

theorem waiting (undisturbed : Undisturbed backing state shared id call)
    (facts : state.Waiting id call) : shared.Waiting id call := by
  refine ⟨?_, facts.2⟩
  have below := facts.1
  rcases undisturbed.counters with same | published | committed
  all_goals omega

theorem committed_le (undisturbed : Undisturbed backing state shared id call) :
    state.queue.committed ≤ shared.queue.committed := by
  rcases undisturbed.counters with same | published | committed
  all_goals omega

theorem placed (undisturbed : Undisturbed backing state shared id call)
    (facts : state.Placed backing id call) : shared.Placed backing id call := by
  obtain ⟨below, near, holds⟩ := facts
  have grows := undisturbed.committed_le
  refine ⟨?_, by omega, holds⟩
  rcases undisturbed.counters with same | published | committed
  all_goals omega

theorem marked (undisturbed : Undisturbed backing state shared id call)
    (holds : call.holdsSlot = true) (facts : state.Marked backing id) :
    shared.Marked backing id := by
  rw [RingState.Marked, undisturbed.slot holds]
  exact facts

theorem written (undisturbed : Undisturbed backing state shared id call)
    (holds : call.holdsSlot = true) {count : Nat} (inside : count ≤ backing.entryBytes)
    (facts : state.Written backing id call count) : shared.Written backing id call count := by
  intro offset below
  rw [undisturbed.bytes holds offset (by omega)]
  exact facts offset below

theorem publishing (undisturbed : Undisturbed backing state shared id call)
    (facts : state.Publishing backing id call) : shared.Publishing backing id call := by
  obtain ⟨published, committed, holds, marked⟩ := facts
  refine ⟨?_, ?_, holds, undisturbed.marked holds marked⟩
  all_goals
    rcases undisturbed.counters with same | published | committed
    all_goals omega

theorem outstanding (undisturbed : Undisturbed backing state shared id call)
    (facts : state.Outstanding backing id call) : shared.Outstanding backing id call := by
  obtain ⟨below, holds, marked⟩ := facts
  have grows := undisturbed.committed_le
  exact ⟨by omega, holds, undisturbed.marked holds marked⟩

theorem released (undisturbed : Undisturbed backing state shared id call)
    (facts : state.Released id call) : shared.Released id call := by
  have grows := undisturbed.committed_le
  exact ⟨Nat.lt_of_lt_of_le facts.1 grows, facts.2⟩

theorem phaseFacts (undisturbed : Undisturbed backing state shared id call)
    (facts : state.PhaseFacts backing id call) : shared.PhaseFacts backing id call := by
  have grows := undisturbed.committed_le
  cases phase : call.phase with
  | waitForCapacity polls =>
      simp only [RingState.PhaseFacts, phase] at facts ⊢
      exact undisturbed.waiting facts
  | waitForEmpty polls =>
      simp only [RingState.PhaseFacts, phase] at facts ⊢
      exact ⟨undisturbed.waiting facts.1, by omega⟩
  | storeWriting =>
      simp only [RingState.PhaseFacts, phase] at facts ⊢
      exact undisturbed.placed facts
  | writeSlot vaddr offset =>
      simp only [RingState.PhaseFacts, phase] at facts ⊢
      obtain ⟨placed, marked, address, inside, written⟩ := facts
      exact ⟨undisturbed.placed placed, undisturbed.marked placed.2.2 marked, address, inside,
        undisturbed.written placed.2.2 (by omega) written⟩
  | storeReady | waitToPublish polls =>
      simp only [RingState.PhaseFacts, phase] at facts ⊢
      obtain ⟨placed, marked, written⟩ := facts
      exact ⟨undisturbed.placed placed, undisturbed.marked placed.2.2 marked,
        undisturbed.written placed.2.2 (Nat.le_refl _) written⟩
  | writeTail =>
      simp only [RingState.PhaseFacts, phase] at facts ⊢
      obtain ⟨placed, marked, written, turn⟩ := facts
      refine ⟨undisturbed.placed placed, undisturbed.marked placed.2.2 marked,
        undisturbed.written placed.2.2 (Nat.le_refl _) written, ?_⟩
      have below := placed.1
      rcases undisturbed.counters with same | published | committed
      all_goals omega
  | storePublished | storeCommitted =>
      simp only [RingState.PhaseFacts, phase] at facts ⊢
      exact undisturbed.publishing facts
  | waitForConsumed polls | checkError | storeEmpty =>
      simp only [RingState.PhaseFacts, phase] at facts ⊢
      exact undisturbed.outstanding facts
  | loadRetired | exchangeRetired current =>
      simp only [RingState.PhaseFacts, phase] at facts ⊢
      exact undisturbed.released facts
  | returned outcome =>
      cases outcome with
      | ok value =>
          simp only [RingState.PhaseFacts, phase] at facts ⊢
          exact undisturbed.released facts
      | error error =>
          simp only [RingState.PhaseFacts, phase] at facts ⊢
          rcases facts with waiting | ⟨placed, marked⟩ | outstanding
          · exact Or.inl (undisturbed.waiting waiting)
          · exact Or.inr (Or.inl ⟨undisturbed.placed placed,
              undisturbed.marked placed.2.2 marked⟩)
          · exact Or.inr (Or.inr (undisturbed.outstanding outstanding))

end Undisturbed

/-- Everything an access of ticket `id` can do to the shared state, with the reason it may. -/
inductive SharedChange (backing : CommandQueueBacking) (state : RingState N) (id : Nat)
    (call : SubmitCall) : RingState N → Prop
  | unchanged : SharedChange backing state id call state
  | slotState (value : SlotState) : call.holdsSlot = true →
      SharedChange backing state id call (state.storeSlotState (ticketSlot backing id) value)
  | byte (offset : Nat) (value : UInt8) : call.holdsSlot = true → offset < backing.entryBytes →
      SharedChange backing state id call
        (state.setByte (RingState.entryPaddr backing id + offset) value)
  | tailWrite : state.published = id → state.queue.committed = id →
      state.Written backing id call backing.entryBytes →
      SharedChange backing state id call (state.writeTail backing id)
  | committed : state.queue.committed = id → state.published = id + 1 →
      SharedChange backing state id call (state.storeCommitted (id + 1))
  | retired : id < state.queue.committed →
      SharedChange backing state id call (state.storeRetired (id + 1))

structure AccessSpec (backing : CommandQueueBacking) (state : RingState N) (id : Nat)
    (call : SubmitCall) (outcome : RingState N × SubmitCall) : Prop where
  change : SharedChange backing state id call outcome.1
  ticket : outcome.2.ticket = id
  bytes : outcome.2.bytes = call.bytes
  facts : outcome.1.PhaseFacts backing id outcome.2
  taken : outcome.2.holdsSlot = true → call.holdsSlot = true ∨
    (state.queue.slotState (ticketSlot backing id) = .empty ∧ state.published ≤ id ∧
      id < state.queue.committed + backing.entryCount)

namespace RingInvariant

variable {backing : CommandQueueBacking} {state : RingState N} {id : Nat} {call : SubmitCall}

theorem id_lt (invariant : RingInvariant backing state) (lookup : state.calls[id]? = some call) :
    id + 1 < limit := by
  have below := (List.getElem?_eq_some_iff.mp lookup).1
  have fewer := invariant.fewer
  omega

theorem stays (invariant : RingInvariant backing state) (lookup : state.calls[id]? = some call)
    (phase : SubmitPhase) (facts : state.PhaseFacts backing id (call.moveTo phase)) :
    AccessSpec backing state id call (state, call.moveTo phase) :=
  ⟨.unchanged, (invariant.calls id call lookup).1, rfl, facts, Or.inl⟩

theorem near_committed (invariant : RingInvariant backing state)
    (unpublished : state.published ≤ id) (small : id + 1 < limit)
    (room : wrappingSub id state.queue.retired < backing.entryCount) :
    id < state.queue.committed + backing.entryCount := by
  have retired := invariant.retiredLe
  have committed := invariant.committedLe
  rw [wrappingSub_of_le (by omega) (by omega)] at room
  omega

theorem access_spec {mmu : Translation} (mapped : backing.Mapped mmu)
    (invariant : RingInvariant backing state) (lookup : state.calls[id]? = some call)
    (fault : Option Error) (spurious : Bool) :
    AccessSpec backing state id call (call.access mmu backing state fault spurious) := by
  obtain ⟨ticket, facts⟩ := invariant.calls id call lookup
  have small := invariant.id_lt lookup
  have next : wrappingAdd id 1 = id + 1 := wrappingAdd_of_lt small
  cases phase : call.phase with
  | waitForCapacity polls =>
      simp only [RingState.PhaseFacts, phase] at facts
      cases polls with
      | zero =>
          simp only [SubmitCall.access, phase]
          exact invariant.stays lookup _ (Or.inl facts)
      | succ polls =>
          simp only [SubmitCall.access, phase, ticket]
          split
          · rename_i room
            exact invariant.stays lookup _
              (And.intro facts (invariant.near_committed facts.1 small room))
          · exact invariant.stays lookup _ facts
  | waitForEmpty polls =>
      simp only [RingState.PhaseFacts, phase] at facts
      cases polls with
      | zero =>
          simp only [SubmitCall.access, phase]
          exact invariant.stays lookup _ (Or.inl facts.1)
      | succ polls =>
          simp only [SubmitCall.access, phase, ticket]
          split
          · rename_i empty
            exact ⟨.unchanged, rfl, rfl, And.intro facts.1.1 (And.intro facts.2 rfl),
              fun _ => Or.inr ⟨empty, facts.1.1, facts.2⟩⟩
          · exact invariant.stays lookup _ facts
  | storeWriting =>
      simp only [RingState.PhaseFacts, phase] at facts
      have marked : (state.storeSlotState (ticketSlot backing id) .writing).Marked backing id := by
        simp [RingState.Marked, RingState.storeSlotState]
      simp only [SubmitCall.access, phase, ticket,
        backing.entryVaddr_of_lt (ticketSlot_lt backing id)]
      refine ⟨.slotState .writing facts.2.2, ticket, rfl, ?_, Or.inl⟩
      exact And.intro facts (And.intro marked (And.intro rfl
        (And.intro backing.entryBytes_pos (fun offset below => by omega))))
  | writeSlot vaddr offset =>
      simp only [RingState.PhaseFacts, phase] at facts
      obtain ⟨placed, marked, address, inside, written⟩ := facts
      have target : mmu (vaddr + offset) = RingState.entryPaddr backing id + offset := by
        rw [address]
        exact CommandQueueBacking.slot_contiguous mapped (ticketSlot_lt backing id) offset inside
      have grown : (state.setByte (RingState.entryPaddr backing id + offset)
          (call.bytes.getD offset 0)).Written backing id call (offset + 1) := by
        intro query below
        by_cases same : query = offset
        · subst query
          simp [RingState.setByte]
        · have different : RingState.entryPaddr backing id + query ≠
              RingState.entryPaddr backing id + offset := by omega
          have kept := written query (by omega)
          simpa only [RingState.setByte, Function.update_of_ne different] using kept
      simp only [SubmitCall.access, phase, storeByte, target]
      refine ⟨.byte offset _ placed.2.2 inside, ticket, rfl, ?_, Or.inl⟩
      split
      · rename_i more
        exact And.intro placed (And.intro marked (And.intro address (And.intro more grown)))
      · have complete : offset + 1 = backing.entryBytes := by omega
        exact And.intro placed (And.intro marked (complete ▸ grown))
  | storeReady =>
      simp only [RingState.PhaseFacts, phase] at facts
      obtain ⟨placed, marked, written⟩ := facts
      have ready : (state.storeSlotState (ticketSlot backing id) .ready).Marked backing id := by
        simp [RingState.Marked, RingState.storeSlotState]
      simp only [SubmitCall.access, phase, ticket]
      exact ⟨.slotState .ready placed.2.2, ticket, rfl,
        And.intro placed (And.intro ready written), Or.inl⟩
  | waitToPublish polls =>
      simp only [RingState.PhaseFacts, phase] at facts
      cases polls with
      | zero =>
          simp only [SubmitCall.access, phase]
          exact invariant.stays lookup _ (Or.inr (Or.inl ⟨facts.1, facts.2.1⟩))
      | succ polls =>
          simp only [SubmitCall.access, phase, ticket]
          split
          · rename_i turn
            exact invariant.stays lookup _
              (And.intro facts.1 (And.intro facts.2.1 (And.intro facts.2.2 turn)))
          · exact invariant.stays lookup _ facts
  | writeTail =>
      simp only [RingState.PhaseFacts, phase] at facts
      obtain ⟨placed, marked, written, turn⟩ := facts
      have counted : state.published = id := by
        have committed := invariant.committedLe
        have unpublished := placed.1
        omega
      have grown : (state.writeTail backing id).published = id + 1 := by
        rw [RingState.published, RingState.writeTail, List.length_append]
        exact congrArg (· + 1) counted
      simp only [SubmitCall.access, phase, ticket]
      exact ⟨.tailWrite counted turn written, ticket, rfl,
        And.intro grown (And.intro turn (And.intro placed.2.2 marked)), Or.inl⟩
  | storePublished =>
      simp only [RingState.PhaseFacts, phase] at facts
      obtain ⟨published, committed, holds, _⟩ := facts
      have marked : (state.storeSlotState (ticketSlot backing id) .published).Marked backing id := by
        simp [RingState.Marked, RingState.storeSlotState]
      simp only [SubmitCall.access, phase, ticket]
      exact ⟨.slotState .published holds, ticket, rfl,
        And.intro published (And.intro committed (And.intro holds marked)), Or.inl⟩
  | storeCommitted =>
      simp only [RingState.PhaseFacts, phase] at facts
      obtain ⟨published, committed, holds, marked⟩ := facts
      simp only [SubmitCall.access, phase, ticket, next]
      exact ⟨.committed committed published, ticket, rfl,
        And.intro (Nat.lt_succ_self id) (And.intro holds marked), Or.inl⟩
  | waitForConsumed polls =>
      simp only [RingState.PhaseFacts, phase] at facts
      cases polls with
      | zero =>
          simp only [SubmitCall.access, phase]
          exact invariant.stays lookup _ (Or.inr (Or.inr facts))
      | succ polls =>
          simp only [SubmitCall.access, phase]
          cases fault with
          | some error => exact invariant.stays lookup _ (Or.inr (Or.inr facts))
          | none =>
              simp only
              split
              · exact invariant.stays lookup _ facts
              · exact invariant.stays lookup _ facts
  | checkError =>
      simp only [RingState.PhaseFacts, phase] at facts
      simp only [SubmitCall.access, phase]
      cases fault with
      | some error => exact invariant.stays lookup _ (Or.inr (Or.inr facts))
      | none => exact invariant.stays lookup _ facts
  | storeEmpty =>
      simp only [RingState.PhaseFacts, phase] at facts
      simp only [SubmitCall.access, phase, ticket]
      exact ⟨.slotState .empty facts.2.1, rfl, rfl, And.intro facts.1 rfl,
        fun held => by simp at held⟩
  | loadRetired =>
      simp only [RingState.PhaseFacts, phase] at facts
      simp only [SubmitCall.access, phase]
      exact invariant.stays lookup _ facts
  | exchangeRetired current =>
      simp only [RingState.PhaseFacts, phase] at facts
      simp only [SubmitCall.access, phase, ticket, next]
      split
      · split
        · exact ⟨.retired facts.1, ticket, rfl, facts, Or.inl⟩
        · exact invariant.stays lookup _ facts
      · exact invariant.stays lookup _ facts
  | returned outcome =>
      simp only [SubmitCall.access, phase]
      exact ⟨.unchanged, ticket, rfl, facts, Or.inl⟩

end RingInvariant

namespace SharedChange

variable {backing : CommandQueueBacking} {state shared : RingState N} {id : Nat} {call : SubmitCall}

theorem calls_eq (change : SharedChange backing state id call shared) :
    shared.calls = state.calls := by
  cases change <;> rfl

theorem claim_eq (change : SharedChange backing state id call shared) :
    shared.queue.claim = state.queue.claim := by
  cases change <;> rfl

theorem consumed_eq (change : SharedChange backing state id call shared) :
    shared.consumed = state.consumed := by
  cases change <;> rfl

theorem undisturbed (change : SharedChange backing state id call shared)
    (invariant : RingInvariant backing state) (lookup : state.calls[id]? = some call)
    {other : Nat} {otherCall : SubmitCall} (otherLookup : state.calls[other]? = some otherCall)
    (different : other ≠ id) : Undisturbed backing state shared other otherCall := by
  have apart (held : call.holdsSlot = true) (otherHeld : otherCall.holdsSlot = true) :
      ticketSlot backing other ≠ ticketSlot backing id := fun same =>
    different (invariant.exclusive other id otherCall call otherLookup lookup otherHeld held same)
  cases change with
  | unchanged => exact ⟨Or.inl ⟨rfl, rfl⟩, fun _ => rfl, fun _ _ _ => rfl⟩
  | slotState value held =>
      refine ⟨Or.inl ⟨rfl, rfl⟩, fun otherHeld => ?_, fun _ _ _ => rfl⟩
      exact Function.update_of_ne (apart held otherHeld) _ _
  | byte offset value held inside =>
      refine ⟨Or.inl ⟨rfl, rfl⟩, fun _ => rfl, fun otherHeld query below => ?_⟩
      apply Function.update_of_ne
      rcases Nat.lt_or_gt_of_ne (apart held otherHeld) with before | after
      · have disjoint := backing.slots_disjoint before
        simp only [RingState.entryPaddr]
        omega
      · have disjoint := backing.slots_disjoint after
        simp only [RingState.entryPaddr]
        omega
  | tailWrite counted turn written =>
      refine ⟨Or.inr (Or.inl ⟨?_, rfl, by omega, by omega⟩), fun _ => rfl, fun _ _ _ => rfl⟩
      rw [RingState.published, RingState.writeTail, List.length_append]
      rfl
  | committed turn counted =>
      refine ⟨Or.inr (Or.inr ⟨rfl, ?_, by omega, by omega⟩), fun _ => rfl, fun _ _ _ => rfl⟩
      exact congrArg (· + 1) turn.symm
  | retired committed => exact ⟨Or.inl ⟨rfl, rfl⟩, fun _ => rfl, fun _ _ _ => rfl⟩

theorem counters (change : SharedChange backing state id call shared)
    (invariant : RingInvariant backing state) (lookup : state.calls[id]? = some call) :
    shared.queue.retired ≤ shared.queue.committed ∧ shared.queue.committed ≤ shared.published ∧
      shared.published ≤ shared.queue.committed + 1 ∧ shared.published ≤ state.calls.length ∧
      state.consumed ≤ shared.published ∧
      shared.tail = (shared.published % backing.entryCount) * backing.entryBytes := by
  have retiredLe := invariant.retiredLe
  have committedLe := invariant.committedLe
  have publishedLe := invariant.publishedLe
  have publishedCalls := invariant.publishedCalls
  have consumedLe := invariant.consumedLe
  have tailValue := invariant.tailValue
  have exists_ := (List.getElem?_eq_some_iff.mp lookup).1
  cases change with
  | unchanged | slotState value held | byte offset value held inside =>
      exact ⟨retiredLe, committedLe, publishedLe, publishedCalls, consumedLe, tailValue⟩
  | tailWrite counted turn written =>
      have grown : (state.writeTail backing id).published = id + 1 := by
        rw [RingState.published, RingState.writeTail, List.length_append]
        exact congrArg (· + 1) counted
      have value : (state.writeTail backing id).tail =
          ((id + 1) % backing.entryCount) * backing.entryBytes :=
        tailAfter_ticketSlot backing id
      have frame : (state.writeTail backing id).queue = state.queue := rfl
      rw [grown, value, frame]
      exact ⟨retiredLe, by omega, by omega, by omega, by omega, rfl⟩
  | committed turn counted =>
      refine ⟨?_, ?_, ?_, publishedCalls, consumedLe, tailValue⟩
      all_goals
        simp only [RingState.storeCommitted, RingState.published] at *
        omega
  | retired committed => exact ⟨committed, committedLe, publishedLe, publishedCalls, consumedLe, tailValue⟩

theorem writes (change : SharedChange backing state id call shared)
    (invariant : RingInvariant backing state) (lookup : state.calls[id]? = some call)
    {position : Nat} {write : TailWrite} (found : shared.tailWrites[position]? = some write) :
    ∃ owner, state.calls[position]? = some owner ∧
      write = expectedTailWrite backing position owner := by
  cases change with
  | unchanged | slotState value held | byte offset value held inside | committed turn counted
  | retired committed => exact invariant.writes position write found
  | tailWrite counted turn written =>
      simp only [RingState.writeTail] at found
      rcases Nat.lt_or_ge position state.published with old | new
      · rw [List.getElem?_append_left old] at found
        exact invariant.writes position write found
      · rw [List.getElem?_append_right new, List.getElem?_singleton] at found
        split at found
        · rename_i first
          have last : position = id := by
            rw [RingState.published] at counted new
            omega
          subst position
          refine ⟨call, lookup, ?_⟩
          rw [← Option.some.inj found, expectedTailWrite, tailAfter_ticketSlot]
          congr 1
          apply List.map_congr_left
          intro offset member
          exact written offset (List.mem_range.mp member)
        · contradiction

end SharedChange

namespace RingInvariant

variable {backing : CommandQueueBacking} {state : RingState N}

/-- A slot just taken is not held by any other ticket: an unpublished holder would be the same
ticket, and any other holder would have marked the slot. -/
theorem free_slot (invariant : RingInvariant backing state) {id other : Nat}
    {otherCall : SubmitCall} (otherLookup : state.calls[other]? = some otherCall)
    (held : otherCall.holdsSlot = true)
    (empty : state.queue.slotState (ticketSlot backing id) = .empty)
    (unpublished : state.published ≤ id) (near : id < state.queue.committed + backing.entryCount)
    (same : ticketSlot backing other = ticketSlot backing id) : other = id := by
  have committedLe := invariant.committedLe
  have facts := (invariant.calls other otherCall otherLookup).2
  have unmarked : ¬state.Marked backing other := by
    rw [RingState.Marked, same]
    exact fun marked => marked empty
  cases phase : otherCall.phase with
  | storeWriting =>
      simp only [RingState.PhaseFacts, phase] at facts
      exact eq_of_ticketSlot_eq _ same (Nat.le_trans committedLe facts.1) facts.2.1
        (Nat.le_trans committedLe unpublished) near
  | waitForCapacity polls =>
      simp only [RingState.PhaseFacts, phase, RingState.Waiting] at facts
      exact absurd held (by simp [facts.2])
  | waitForEmpty polls =>
      simp only [RingState.PhaseFacts, phase, RingState.Waiting] at facts
      exact absurd held (by simp [facts.1.2])
  | loadRetired | exchangeRetired current =>
      simp only [RingState.PhaseFacts, phase, RingState.Released] at facts
      exact absurd held (by simp [facts.2])
  | writeSlot vaddr offset | storeReady | waitToPublish polls | writeTail =>
      simp only [RingState.PhaseFacts, phase] at facts
      exact absurd facts.2.1 unmarked
  | storePublished | storeCommitted =>
      simp only [RingState.PhaseFacts, phase] at facts
      exact absurd facts.2.2.2 unmarked
  | waitForConsumed polls | checkError | storeEmpty =>
      simp only [RingState.PhaseFacts, phase] at facts
      exact absurd facts.2.2 unmarked
  | returned outcome =>
      cases outcome with
      | ok value =>
          simp only [RingState.PhaseFacts, phase, RingState.Released] at facts
          exact absurd held (by simp [facts.2])
      | error error =>
          simp only [RingState.PhaseFacts, phase, RingState.Waiting] at facts
          rcases facts with waiting | placed | outstanding
          · exact absurd held (by simp [waiting.2])
          · exact absurd placed.2 unmarked
          · exact absurd outstanding.2.2 unmarked

theorem access_preserved {id : Nat} {call : SubmitCall} {outcome : RingState N × SubmitCall}
    (invariant : RingInvariant backing state) (lookup : state.calls[id]? = some call)
    (spec : AccessSpec backing state id call outcome) :
    RingInvariant backing (RingState.setCall id outcome) := by
  obtain ⟨shared, moved⟩ := outcome
  have change := spec.change
  have calls : (RingState.setCall id (shared, moved)).calls = state.calls.set id moved := by
    rw [RingState.setCall, change.calls_eq]
  obtain ⟨retiredLe, committedLe, publishedLe, publishedCalls, consumedLe, tailValue⟩ :=
    change.counters invariant lookup
  have below := (List.getElem?_eq_some_iff.mp lookup).1
  -- Looking up a call after the access finds the moved call or one the access did not touch.
  have found (query : Nat) (result : SubmitCall)
      (hit : (RingState.setCall id (shared, moved)).calls[query]? = some result) :
      (query = id ∧ result = moved) ∨ (query ≠ id ∧ state.calls[query]? = some result) := by
    rw [calls, List.getElem?_set] at hit
    split at hit
    · rename_i same
      exact Or.inl ⟨same.symm, (Option.some.inj hit).symm⟩
    · rename_i other
      exact Or.inr ⟨Ne.symm other, hit⟩
  constructor
  · rw [calls, List.length_set]
    exact change.claim_eq.trans invariant.claimed
  · rw [calls, List.length_set]
    exact invariant.fewer
  · exact retiredLe
  · exact committedLe
  · exact publishedLe
  · rw [calls, List.length_set]
    exact publishedCalls
  · exact change.consumed_eq ▸ consumedLe
  · exact tailValue
  · intro query result hit
    rcases found query result hit with ⟨rfl, rfl⟩ | ⟨other, hit⟩
    · exact ⟨spec.ticket, spec.facts⟩
    · have facts := invariant.calls query result hit
      have undisturbed := change.undisturbed invariant lookup hit other
      exact ⟨facts.1, undisturbed.phaseFacts facts.2⟩
  · intro first second firstCall secondCall firstHit secondHit firstHeld secondHeld same
    rcases found first firstCall firstHit with ⟨rfl, rfl⟩ | ⟨firstOther, firstOld⟩
    · rcases found second secondCall secondHit with ⟨rfl, rfl⟩ | ⟨secondOther, secondOld⟩
      · rfl
      · rcases spec.taken firstHeld with held | ⟨empty, unpublished, near⟩
        · exact invariant.exclusive _ _ _ _ lookup secondOld held secondHeld same
        · exact (invariant.free_slot secondOld secondHeld empty unpublished near same.symm).symm
    · rcases found second secondCall secondHit with ⟨rfl, rfl⟩ | ⟨secondOther, secondOld⟩
      · rcases spec.taken secondHeld with held | ⟨empty, unpublished, near⟩
        · exact invariant.exclusive _ _ _ _ firstOld lookup firstHeld held same
        · exact invariant.free_slot firstOld firstHeld empty unpublished near same
      · exact invariant.exclusive _ _ _ _ firstOld secondOld firstHeld secondHeld same
  · intro position write hit
    obtain ⟨owner, ownerLookup, expected⟩ := change.writes invariant lookup hit
    by_cases mine : position = id
    · subst position
      rw [lookup] at ownerLookup
      obtain rfl := Option.some.inj ownerLookup
      refine ⟨moved, ?_, ?_⟩
      · rw [calls, List.getElem?_set_self below]
      · rw [expected, expectedTailWrite, expectedTailWrite, spec.bytes]
    · refine ⟨owner, ?_, expected⟩
      rw [calls, List.getElem?_set_ne (Ne.symm mine)]
      exact ownerLookup

theorem submit_preserved (invariant : RingInvariant backing state) (bytes : List UInt8)
    (fewer : state.calls.length + 1 < limit) :
    RingInvariant backing ({ state with
      queue := { state.queue with claim := wrappingAdd state.queue.claim 1 }
      calls := state.calls ++
        [⟨state.queue.claim, bytes, .waitForCapacity COMMAND_QUEUE_POLL_LIMIT, false⟩] } :
      RingState N) := by
  have claimed := invariant.claimed
  have found (query : Nat) (result : SubmitCall)
      (hit : (state.calls ++ [⟨state.queue.claim, bytes,
        .waitForCapacity COMMAND_QUEUE_POLL_LIMIT, false⟩])[query]? = some result) :
      (query = state.calls.length ∧ result = ⟨state.queue.claim, bytes,
        .waitForCapacity COMMAND_QUEUE_POLL_LIMIT, false⟩) ∨ state.calls[query]? = some result := by
    rcases Nat.lt_or_ge query state.calls.length with old | new
    · rw [List.getElem?_append_left old] at hit
      exact Or.inr hit
    · rw [List.getElem?_append_right new, List.getElem?_singleton] at hit
      split at hit
      · exact Or.inl ⟨by omega, (Option.some.inj hit).symm⟩
      · contradiction
  constructor
  · rw [List.length_append, claimed]
    exact wrappingAdd_of_lt fewer
  · rw [List.length_append]
    exact fewer
  · exact invariant.retiredLe
  · exact invariant.committedLe
  · exact invariant.publishedLe
  · rw [List.length_append]
    exact Nat.le_succ_of_le invariant.publishedCalls
  · exact invariant.consumedLe
  · exact invariant.tailValue
  · intro query result hit
    rcases found query result hit with ⟨rfl, rfl⟩ | old
    · exact ⟨claimed, And.intro invariant.publishedCalls rfl⟩
    · exact invariant.calls query result old
  · intro first second firstCall secondCall firstHit secondHit firstHeld secondHeld same
    rcases found first firstCall firstHit with ⟨_, rfl⟩ | firstOld
    · exact absurd firstHeld (by simp)
    · rcases found second secondCall secondHit with ⟨_, rfl⟩ | secondOld
      · exact absurd secondHeld (by simp)
      · exact invariant.exclusive _ _ _ _ firstOld secondOld firstHeld secondHeld same
  · intro position write hit
    obtain ⟨owner, ownerLookup, expected⟩ := invariant.writes position write hit
    have below := (List.getElem?_eq_some_iff.mp ownerLookup).1
    refine ⟨owner, ?_, expected⟩
    rw [List.getElem?_append_left below]
    exact ownerLookup

theorem consume_preserved (invariant : RingInvariant backing state)
    (moving : state.head backing ≠ state.tail) :
    RingInvariant backing ({ state with consumed := state.consumed + 1 } : RingState N) := by
  have behind : state.consumed ≠ state.published := by
    intro level
    apply moving
    rw [RingState.head, level, invariant.tailValue]
  have consumedLe := invariant.consumedLe
  exact {
    claimed := invariant.claimed
    fewer := invariant.fewer
    retiredLe := invariant.retiredLe
    committedLe := invariant.committedLe
    publishedLe := invariant.publishedLe
    publishedCalls := invariant.publishedCalls
    consumedLe := show state.consumed + 1 ≤ state.published by omega
    tailValue := invariant.tailValue
    calls := invariant.calls
    exclusive := invariant.exclusive
    writes := invariant.writes
  }

theorem step_preserved {mmu : Translation} (mapped : backing.Mapped mmu) {next : RingState N}
    {action : SubmitAction} (invariant : RingInvariant backing state)
    (stepped : state.step mmu backing action = some next) (fewer : next.calls.length < limit) :
    RingInvariant backing next := by
  cases action with
  | submit bytes =>
      simp only [RingState.step] at stepped
      split at stepped
      · obtain rfl := Option.some.inj stepped
        rw [List.length_append] at fewer
        exact invariant.submit_preserved bytes fewer
      · obtain rfl := Option.some.inj stepped
        exact invariant
  | access id fault spurious =>
      obtain ⟨call, lookup, rfl⟩ := Option.map_eq_some_iff.mp stepped
      exact invariant.access_preserved lookup (invariant.access_spec mapped lookup fault spurious)
  | consume =>
      simp only [RingState.step] at stepped
      split at stepped
      · rename_i moving
        obtain rfl := Option.some.inj stepped
        exact invariant.consume_preserved moving
      · contradiction

theorem initial_holds {fresh queue : CommandQueue N} (ready : fresh.init backing = .ok queue)
    (memory : Memory) : RingInvariant backing (RingState.initial queue memory) := by
  obtain ⟨claim, committed, retired⟩ := init_counters ready
  constructor
  · exact claim
  · exact Nat.two_pow_pos 64
  · exact Nat.le_of_eq (retired.trans committed.symm)
  · exact Nat.le_of_eq committed
  · exact Nat.zero_le _
  · exact Nat.le_refl 0
  · exact Nat.le_refl 0
  · simp [RingState.initial, RingState.published]
  · intro id call lookup
    simp [RingState.initial] at lookup
  · intro first second firstCall secondCall firstHit
    simp [RingState.initial] at firstHit
  · intro position write hit
    simp [RingState.initial] at hit

end RingInvariant

theorem RingState.access_calls (mmu : Translation) (backing : CommandQueueBacking)
    (state : RingState N) (call : SubmitCall) (fault : Option Error) (spurious : Bool) :
    (call.access mmu backing state fault spurious).1.calls = state.calls := by
  unfold SubmitCall.access
  dsimp only
  repeat' split
  all_goals rfl

theorem RingState.calls_grow {mmu : Translation} {backing : CommandQueueBacking}
    (state : RingState N) (action : SubmitAction) (next : RingState N)
    (stepped : state.step mmu backing action = some next) :
    state.calls.length ≤ next.calls.length := by
  cases action with
  | submit bytes =>
      simp only [RingState.step] at stepped
      split at stepped
      · obtain rfl := Option.some.inj stepped
        simp
      · obtain rfl := Option.some.inj stepped
        exact Nat.le_refl _
  | access id fault spurious =>
      obtain ⟨call, lookup, rfl⟩ := Option.map_eq_some_iff.mp stepped
      simp only [RingState.setCall, List.length_set, RingState.access_calls, Nat.le_refl]
  | consume =>
      simp only [RingState.step] at stepped
      split at stepped
      · obtain rfl := Option.some.inj stepped
        exact Nat.le_refl _
      · contradiction

theorem ringInvariant_of_run {mmu : Translation} {backing : CommandQueueBacking}
    (mapped : backing.Mapped mmu) {fresh queue : CommandQueue N}
    (ready : fresh.init backing = .ok queue) {memory : Memory} {actions : List SubmitAction}
    {state : RingState N}
    (reached : Transition.run (RingState.step mmu backing) (RingState.initial queue memory) actions =
      some state)
    (fewer : state.calls.length < limit) : RingInvariant backing state := by
  refine Transition.invariant_of_run
    (fun state => state.calls.length < limit → RingInvariant backing state)
    ?_ (fun _ => RingInvariant.initial_holds ready memory) reached fewer
  intro state action next holds stepped small
  have before := RingState.calls_grow state action next stepped
  exact (holds (by omega)).step_preserved mapped stepped small

end Iommu
