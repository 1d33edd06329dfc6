import Iommu.Queue.SubmitSafety
import Iommu.Library.Fifo

/-!
The ring as a channel: what the hardware reads is what was submitted, once each and in ticket order,
as long as no slot is given away under a descriptor the hardware has not read.
-/

namespace Iommu

open MachineWord Memory CommandQueue

variable {N : Nat}

theorem SubmitCall.access_memory (mmu : Translation) (backing : CommandQueueBacking)
    (state : RingState N) (call : SubmitCall) (fault : Option Error) (spurious : Bool) :
    (call.access mmu backing state fault spurious).1.memory = state.memory ∨ call.phase.Filling := by
  cases phase : call.phase with
  | storeWriting | writeSlot vaddr offset => exact Or.inr trivial
  | _ =>
      refine Or.inl ?_
      simp only [SubmitCall.access, phase]
      repeat' split
      all_goals first | rfl | contradiction

namespace RingState

/-- The entry at the head, which is what the hardware reads when it moves the head past it. -/
def headEntry (backing : CommandQueueBacking) (state : RingState N) : List UInt8 :=
  backing.slotBytes state.memory (state.head backing / backing.entryBytes)

def Intact (backing : CommandQueueBacking) (state : RingState N) : Prop :=
  ∀ (ticket : Nat) (write : TailWrite), state.consumed ≤ ticket →
    state.tailWrites[ticket]? = some write →
      backing.slotBytes state.memory (ticketSlot backing ticket) = write.entry

end RingState

/-- A ring together with everything the hardware has read from it. -/
structure ServedRing (N : Nat) where
  ring : RingState N
  received : List (List UInt8)

namespace ServedRing

def step (mmu : Translation) (backing : CommandQueueBacking) (served : ServedRing N)
    (action : SubmitAction) : Option (ServedRing N) :=
  (served.ring.step mmu backing action).map fun next =>
    match action with
    | .consume => ⟨next, served.received ++ [served.ring.headEntry backing]⟩
    | _ => ⟨next, served.received⟩

def channel (served : ServedRing N) : Fifo.Channel (List UInt8) :=
  ⟨(served.ring.tailWrites.drop served.ring.consumed).map TailWrite.entry, served.received⟩

def published (served : ServedRing N) : List (List UInt8) :=
  served.ring.tailWrites.map TailWrite.entry

end ServedRing

theorem SharedChange.slotBytes {backing : CommandQueueBacking} {state shared : RingState N} {id : Nat}
    {call : SubmitCall} (change : SharedChange backing state id call shared) {slot : Nat}
    (apart : slot ≠ ticketSlot backing id) :
    backing.slotBytes shared.memory slot = backing.slotBytes state.memory slot := by
  cases change with
  | unchanged | slotState value held | tailWrite counted turn written | committed turn counted
  | retired committed => rfl
  | byte offset value held inside =>
      apply loadBytes_congr
      intro query below
      apply Function.update_of_ne
      simp only [RingState.entryPaddr]
      rcases Nat.lt_or_gt_of_ne apart with before | after
      · have disjoint := backing.slots_disjoint before
        omega
      · have disjoint := backing.slots_disjoint after
        omega

theorem SharedChange.tailWrites {backing : CommandQueueBacking} {state shared : RingState N} {id : Nat}
    {call : SubmitCall} (change : SharedChange backing state id call shared) :
    shared.tailWrites = state.tailWrites ∨
      state.published = id ∧ shared = state.writeTail backing id := by
  cases change with
  | tailWrite counted turn written => exact Or.inr ⟨counted, rfl⟩
  | unchanged | slotState value held | byte offset value held inside | committed turn counted
  | retired committed => exact Or.inl rfl

section Step

variable {mmu : Translation} {backing : CommandQueueBacking} {state : RingState N} {id : Nat}
  {call : SubmitCall} {fault : Option Error} {spurious : Bool}

theorem RoomInvariant.filling_apart (ring : RingInvariant backing state)
    (roomy : RoomInvariant backing.entryCount state) (lookup : state.calls[id]? = some call)
    (filling : call.phase.Filling) {ticket : Nat} (unread : state.consumed ≤ ticket)
    (published : ticket < state.published) : ticketSlot backing ticket ≠ ticketSlot backing id := by
  have near := roomy.admitted id call lookup filling.admitted
  have facts := (ring.calls id call lookup).2
  have unpublished : state.published ≤ id := by
    cases phase : call.phase with
    | storeWriting =>
        simp only [RingState.PhaseFacts, phase] at facts
        exact facts.1
    | writeSlot vaddr offset =>
        simp only [RingState.PhaseFacts, phase] at facts
        exact facts.1.1
    | _ =>
        rw [phase] at filling
        exact filling.elim
  intro same
  have equal := eq_of_ticketSlot_eq state.consumed same unread (by omega) (by omega) near
  omega

theorem RingState.Intact.access (mapped : backing.Mapped mmu) (ring : RingInvariant backing state)
    (roomy : RoomInvariant backing.entryCount state) (intact : state.Intact backing)
    (lookup : state.calls[id]? = some call) (fault : Option Error) (spurious : Bool) :
    (RingState.setCall id (call.access mmu backing state fault spurious)).Intact backing := by
  have change := (ring.access_spec mapped lookup fault spurious).change
  have consumed := SubmitCall.access_consumed mmu backing state call fault spurious
  have kept : ∀ ticket, state.consumed ≤ ticket → ticket < state.published →
      backing.slotBytes (call.access mmu backing state fault spurious).1.memory
        (ticketSlot backing ticket) = backing.slotBytes state.memory (ticketSlot backing ticket) := by
    intro ticket unread published
    rcases SubmitCall.access_memory mmu backing state call fault spurious with same | filling
    · rw [same]
    · exact change.slotBytes (roomy.filling_apart ring lookup filling unread published)
  intro ticket write unread found
  simp only [RingState.setCall] at unread found ⊢
  rw [consumed] at unread
  rcases change.tailWrites with same | ⟨counted, written⟩
  · rw [same] at found
    rw [kept ticket unread (List.getElem?_eq_some_iff.mp found).1]
    exact intact ticket write unread found
  · rw [written] at found ⊢
    simp only [RingState.writeTail] at found ⊢
    rcases Nat.lt_or_ge ticket state.tailWrites.length with old | new
    · rw [List.getElem?_append_left old] at found
      exact intact ticket write unread found
    · rw [List.getElem?_append_right new, List.getElem?_singleton] at found
      split at found
      · rename_i first
        have last : ticket = id := by
          rw [RingState.published] at counted
          omega
        rw [last, ← Option.some.inj found]
      · contradiction

theorem RingInvariant.consumed_lt (ring : RingInvariant backing state)
    (moving : state.head backing ≠ state.tail) : state.consumed < state.published := by
  apply Nat.lt_of_le_of_ne ring.consumedLe
  intro level
  apply moving
  rw [RingState.head, level, ring.tailValue]

structure Delivering (backing : CommandQueueBacking) (served : ServedRing N) : Prop where
  ring : RingInvariant backing served.ring
  drained : DrainInvariant served.ring
  roomy : RoomInvariant backing.entryCount served.ring
  intact : served.ring.Intact backing
  carries : served.channel.Carries served.published

namespace Delivering

variable {served next : ServedRing N} {action : SubmitAction}

theorem access (delivering : Delivering backing served) (mapped : backing.Mapped mmu)
    (lookup : served.ring.calls[id]? = some call) (fault : Option Error) (spurious : Bool) :
    let after : ServedRing N :=
      ⟨RingState.setCall id (call.access mmu backing served.ring fault spurious), served.received⟩
    after.channel.Carries after.published := by
  have change := (delivering.ring.access_spec mapped lookup fault spurious).change
  have consumed := SubmitCall.access_consumed mmu backing served.ring call fault spurious
  have consumedLe := delivering.ring.consumedLe
  rw [RingState.published] at consumedLe
  simp only [ServedRing.channel, ServedRing.published, RingState.setCall]
  rw [consumed]
  rcases change.tailWrites with same | ⟨counted, written⟩
  · rw [same]
    exact delivering.carries
  · simp only [written, RingState.writeTail]
    rw [List.drop_append_of_le_length consumedLe, List.map_append, List.map_append]
    exact delivering.carries.send _

theorem consume (delivering : Delivering backing served)
    (moving : served.ring.head backing ≠ served.ring.tail) :
    let after : ServedRing N := ⟨{ served.ring with consumed := served.ring.consumed + 1 },
      served.received ++ [served.ring.headEntry backing]⟩
    after.channel.Carries after.published := by
  have below := delivering.ring.consumed_lt moving
  rw [RingState.published] at below
  have found := List.getElem?_eq_getElem below
  have entry : served.ring.headEntry backing = served.ring.tailWrites[served.ring.consumed].entry := by
    rw [RingState.headEntry, RingState.head_div, ← ticketSlot_eq]
    exact delivering.intact _ _ (Nat.le_refl _) found
  simp only [ServedRing.channel, ServedRing.published, entry]
  apply delivering.carries.deliver
  simp only [ServedRing.channel]
  rw [List.drop_eq_getElem_cons below, List.map_cons]

theorem step (delivering : Delivering backing served) (mapped : backing.Mapped mmu)
    (fresh : FreshHeadRead served.ring action) (stepped : served.step mmu backing action = some next)
    (fewer : next.ring.calls.length < limit) : Delivering backing next := by
  obtain ⟨ring, moved, rfl⟩ := Option.map_eq_some_iff.mp stepped
  have small : ring.calls.length < limit := by
    cases action <;> exact fewer
  have kept := delivering.ring.step_preserved mapped moved small
  have drained := delivering.drained.step_preserved delivering.ring fresh moved
  have roomy := delivering.roomy.step_preserved delivering.ring
    (delivering.drained.admittedWithin delivering.ring) moved
  cases action with
  | submit bytes =>
      simp only [RingState.step] at moved
      split at moved
      all_goals
        obtain rfl := Option.some.inj moved
        exact ⟨kept, drained, roomy, delivering.intact, delivering.carries⟩
  | access id fault spurious =>
      obtain ⟨call, lookup, rfl⟩ := Option.map_eq_some_iff.mp moved
      exact ⟨kept, drained, roomy,
        delivering.intact.access mapped delivering.ring delivering.roomy lookup fault spurious,
        delivering.access mapped lookup fault spurious⟩
  | consume =>
      simp only [RingState.step] at moved
      split at moved
      · rename_i moving
        obtain rfl := Option.some.inj moved
        refine ⟨kept, drained, roomy, ?_, delivering.consume moving⟩
        exact fun ticket write unread => delivering.intact ticket write (Nat.le_of_succ_le unread)
      · contradiction

theorem initial {fresh queue : CommandQueue N} (ready : fresh.init backing = .ok queue)
    (memory : Memory) : Delivering backing ⟨RingState.initial queue memory, []⟩ :=
  ⟨.initial_holds ready memory, .initial ready memory, .initial _ queue memory,
    fun ticket write _ found => by simp [RingState.initial] at found, Fifo.Channel.Carries.empty⟩

theorem received_length (delivering : Delivering backing served) :
    served.received.length = served.ring.consumed := by
  have conserved := congrArg List.length delivering.carries.conserved
  have consumedLe := delivering.ring.consumedLe
  simp only [ServedRing.channel, ServedRing.published, List.length_append, List.length_map,
    List.length_drop] at conserved
  rw [RingState.published] at consumedLe
  omega

theorem received_entry (delivering : Delivering backing served) {ticket : Nat}
    (read : ticket < served.ring.consumed) :
    ∃ call, served.ring.calls[ticket]? = some call ∧
      served.received[ticket]? = some (paddedEntry backing.entryBytes call.bytes) := by
  have consumedLe := delivering.ring.consumedLe
  have below : ticket < served.ring.tailWrites.length := Nat.lt_of_lt_of_le read consumedLe
  obtain ⟨call, lookup, expected⟩ :=
    delivering.ring.writes ticket _ (List.getElem?_eq_getElem below)
  refine ⟨call, lookup, ?_⟩
  have conserved := congrArg (fun entries => entries[ticket]?) delivering.carries.conserved
  simp only [ServedRing.channel, ServedRing.published] at conserved
  rw [List.getElem?_append_left (by rw [delivering.received_length]; exact read),
    List.getElem?_map, List.getElem?_eq_getElem below, expected] at conserved
  exact conserved

end Delivering

end Step

section Run

variable {mmu : Translation} {backing : CommandQueueBacking} {fresh queue : CommandQueue N}
  {memory : Memory} {actions : List SubmitAction} {served : ServedRing N}

theorem ServedRing.calls_grow {next : ServedRing N} {action : SubmitAction}
    (stepped : served.step mmu backing action = some next) :
    served.ring.calls.length ≤ next.ring.calls.length := by
  obtain ⟨ring, moved, rfl⟩ := Option.map_eq_some_iff.mp stepped
  have grown := RingState.calls_grow served.ring action ring moved
  cases action <;> exact grown

theorem delivering_of_run (mapped : backing.Mapped mmu) (ready : fresh.init backing = .ok queue)
    (meets : Transition.Meets (ServedRing.step mmu backing)
      (fun served => FreshHeadRead served.ring) ⟨RingState.initial queue memory, []⟩ actions)
    (reached : Transition.run (ServedRing.step mmu backing) ⟨RingState.initial queue memory, []⟩
      actions = some served)
    (fewer : served.ring.calls.length < limit) : Delivering backing served := by
  refine Transition.invariant_of_meets
    (fun served => served.ring.calls.length < limit → Delivering backing served)
    ?_ (fun _ => .initial ready memory) meets reached fewer
  intro served action next holds fresh stepped small
  have before := ServedRing.calls_grow stepped
  exact (holds (by omega)).step mapped fresh stepped small

/-- The ring refines a channel of descriptors: what the hardware has read and what it has still to
read are the descriptors of the published tickets in ticket order, and a submit that returned `Ok`
had its descriptor read in its turn. -/
theorem submissions_delivered_in_order (mapped : backing.Mapped mmu)
    (ready : fresh.init backing = .ok queue)
    (meets : Transition.Meets (ServedRing.step mmu backing)
      (fun served => FreshHeadRead served.ring) ⟨RingState.initial queue memory, []⟩ actions)
    (reached : Transition.run (ServedRing.step mmu backing) ⟨RingState.initial queue memory, []⟩
      actions = some served)
    (fewer : served.ring.calls.length < limit) :
    served.channel.Carries served.published ∧
    served.received.length = served.ring.consumed ∧
    (∀ ticket < served.ring.consumed, ∃ call, served.ring.calls[ticket]? = some call ∧
      served.received[ticket]? = some (paddedEntry backing.entryBytes call.bytes)) ∧
    (∀ (id : Nat) (call : SubmitCall), served.ring.calls[id]? = some call →
      call.phase = .returned (.ok ()) →
        served.received[id]? = some (paddedEntry backing.entryBytes call.bytes)) := by
  have delivering := delivering_of_run mapped ready meets reached fewer
  refine ⟨delivering.carries, delivering.received_length,
    fun ticket read => delivering.received_entry read, ?_⟩
  intro id call lookup returned
  have read := delivering.drained.finishing id call lookup (by rw [returned]; trivial)
  obtain ⟨owner, ownerLookup, entry⟩ := delivering.received_entry read
  obtain rfl := Option.some.inj (lookup.symm.trans ownerLookup)
  exact entry

def servedRun (backing : CommandQueueBacking) (actions : List SubmitAction) : Option (ServedRing 4) :=
  Transition.run (ServedRing.step id backing) ⟨RingState.initial (.ready backing) fun _ => 0, []⟩
    actions

set_option maxRecDepth 10000 in
theorem overlapping_delivered :
    ∃ served, servedRun fourEntryRing overlapping = some served ∧
      served.received[0]? = some (List.replicate 8 1) ∧
      served.received[1]? = some (List.replicate 8 2) := by
  obtain ⟨served, reached, finished⟩ := Option.map_eq_some_iff.mp
    (by decide : (servedRun fourEntryRing overlapping).map (fun served =>
      (served.ring.calls.length, served.ring.calls.map fun call => (call.phase, call.bytes))) =
        some (2, [(.returned (.ok ()), List.replicate 8 1), (.returned (.ok ()), List.replicate 8 2)]))
  obtain ⟨calls, shown⟩ := Prod.mk.inj finished
  obtain ⟨first, rest, whole, firstShown, restShown⟩ := List.map_eq_cons_iff.mp shown
  obtain ⟨second, none, rfl, secondShown, ended⟩ := List.map_eq_cons_iff.mp restShown
  obtain ⟨firstReturned, firstBytes⟩ := Prod.mk.inj firstShown
  obtain ⟨secondReturned, secondBytes⟩ := Prod.mk.inj secondShown
  have meets : Transition.Meets (ServedRing.step id fourEntryRing)
      (fun served => FreshHeadRead served.ring)
      ⟨RingState.initial (N := 4) (.ready fourEntryRing) fun _ => 0, []⟩ overlapping := by decide
  have delivered := (submissions_delivered_in_order (smallRing_mapped 2 _) (init_new (by decide))
    meets reached (by rw [calls]; decide)).2.2.2
  have firstDelivered := delivered 0 first (by rw [whole]; rfl) firstReturned
  have secondDelivered := delivered 1 second (by rw [whole]; rfl) secondReturned
  rw [firstBytes] at firstDelivered
  rw [secondBytes] at secondDelivered
  exact ⟨served, reached, firstDelivered, secondDelivered⟩

end Run

end Iommu
