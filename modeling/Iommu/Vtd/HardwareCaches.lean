import Iommu.Library.Caching
import Iommu.Vtd.Replacement
import Iommu.Vtd.RingHardware
import Iommu.Vtd.TornEntries

/-!
The hardware's caches of the tables: what a cache can take in while one operation stores to memory,
and what the descriptors the operation hands over make it drop.
-/

namespace Iommu

open MachineWord Memory Caching

variable {QN : Nat} {Registers Key Value : Type} {mmu : Translation}

def Event.isPublish : Event → Bool
  | .store _ _ => false
  | .publish _ _ => true

/-- The moments of a cache that reads memory through `view`, during the stores and submissions of
one operation of which the hardware has carried out the first descriptors, so many. Of the others
nothing is known. -/
def momentsOf (mmu : Translation) (view : Memory → Key → Option Value)
    (drops : Invalidation → Key → Bool) : Nat → Memory → List Event → List (Moment Key Value)
  | _, _, [] => []
  | carriedOut, memory, .store vaddr word :: rest =>
      .shown (view (store64 mmu memory vaddr word)) ::
        momentsOf mmu view drops carriedOut (store64 mmu memory vaddr word) rest
  | 0, memory, .publish _ _ :: rest => momentsOf mmu view drops 0 memory rest
  | carriedOut + 1, memory, .publish _ entry :: rest =>
      (Invalidation.ofEntry entry).toList.map (fun invalidation => .dropped (drops invalidation)) ++
        momentsOf mmu view drops carriedOut memory rest

/-- The moments of one operation that has returned with so many descriptors still waiting, and what
the memory shows then. -/
def callMoments (mmu : Translation) (view : Memory → Key → Option Value)
    (drops : Invalidation → Key → Bool) (waiting : Nat) (before after : QueueWorld QN Registers) :
    List (Moment Key Value) :=
  let logged := after.events.drop before.events.length
  momentsOf mmu view drops (logged.countP Event.isPublish - waiting) before.memory logged ++
    [.shown (view after.memory)]

def OnlyPublishes (events : List Event) : Prop :=
  ∀ event ∈ events, ∃ tail entry, event = .publish tail entry

theorem OnlyPublishes.append {first second : List Event} (before : OnlyPublishes first)
    (after : OnlyPublishes second) : OnlyPublishes (first ++ second) := by
  intro event member
  rcases List.mem_append.mp member with early | late
  · exact before event early
  · exact after event late

variable {view : Memory → Key → Option Value} {drops : Invalidation → Key → Bool}

theorem OnlyPublishes.count {events : List Event} (publishes : OnlyPublishes events) :
    events.countP Event.isPublish = events.length := by
  rw [List.countP_eq_length]
  intro event member
  obtain ⟨_, _, rfl⟩ := publishes event member
  rfl

theorem OnlyPublishes.no_shown {events : List Event} (publishes : OnlyPublishes events)
    (carriedOut : Nat) (memory : Memory) (source : Key → Option Value) :
    Moment.shown source ∉ momentsOf mmu view drops carriedOut memory events := by
  induction events generalizing carriedOut with
  | nil => exact List.not_mem_nil
  | cons event rest ih =>
      obtain ⟨tail, entry, rfl⟩ := publishes event List.mem_cons_self
      have later := ih fun event member => publishes event (List.mem_cons_of_mem _ member)
      cases carriedOut with
      | zero => exact later 0
      | succ carriedOut =>
          rw [momentsOf, List.mem_append, not_or]
          exact ⟨by simp, later carriedOut⟩

theorem OnlyPublishes.mem_dropped {events : List Event} (publishes : OnlyPublishes events)
    {invalidation : Invalidation} (handed : some invalidation ∈ Invalidation.ofEvents events)
    (memory : Memory) :
    Moment.dropped (drops invalidation) ∈
      momentsOf mmu view drops events.length memory events := by
  induction events with
  | nil => contradiction
  | cons event rest ih =>
      obtain ⟨tail, entry, rfl⟩ := publishes event List.mem_cons_self
      rw [List.length_cons, momentsOf, List.mem_append]
      rcases List.mem_cons.mp handed with first | later
      · left
        simp [← first]
      · right
        exact ih (fun event member => publishes event (List.mem_cons_of_mem _ member)) later

theorem submitWithTail_publishes (window : VtdRegisterWindow Registers)
    (writeTail : Nat → Effect Registers Error Unit) {world : QueueWorld QN Registers}
    (mapped : world.RingMapped mmu) (descriptor : VtdQueuedInvalidationDescriptor) :
    ∃ handed, (submitWithTail mmu window writeTail descriptor world).2.events =
      world.events ++ handed ∧ OnlyPublishes handed := by
  have opened : world.withTailResult.RingMapped mmu := mapped
  rw [submitWithTail_apply]
  rcases CommandQueue.submit_events (invalidationHooks window writeTail) descriptor.bytes opened with
    ⟨tail, padding, events⟩ | ⟨events, _⟩
  · refine ⟨_, events, ?_⟩
    intro event member
    exact ⟨_, _, List.mem_singleton.mp member⟩
  · exact ⟨[], events.trans (List.append_nil _).symm, fun _ member => absurd member List.not_mem_nil⟩

theorem entryWords_store64_outside {vaddr paddr : Nat} (contiguous : Contiguous mmu vaddr paddr 8)
    (memory : Memory) (word : UInt64) {query : Nat}
    (apart : query + 16 ≤ paddr ∨ paddr + 8 ≤ query) :
    entryWords (store64 mmu memory vaddr word) query = entryWords memory query := by
  apply entryWords_congr
  intro offset below
  exact store64_apply_outside _ _ contiguous (by omega)

/-- An operation that writes one entry and then only submits descriptors. -/
structure EntryUpdate (vaddr : Nat) (low high : UInt64) (before after : QueueWorld QN Registers)
    (handed : List Event) : Prop where
  events : after.events =
    before.events ++ [.store vaddr low, .store (vaddr + 8) high] ++ handed
  publishes : OnlyPublishes handed

namespace EntryUpdate

variable {vaddr : Nat} {low high : UInt64} {before after : QueueWorld QN Registers}
  {handed : List Event} {key : Key} {clean : Prop}

theorem moments_eq (update : EntryUpdate vaddr low high before after handed) (waiting : Nat) :
    callMoments mmu view drops waiting before after =
      .shown (view (store64 mmu before.memory vaddr low)) ::
        .shown (view (store128 mmu before.memory vaddr low high)) ::
          (momentsOf mmu view drops (handed.length - waiting)
              (store128 mmu before.memory vaddr low high) handed ++
            [.shown (view after.memory)]) := by
  rw [callMoments, update.events, List.append_assoc, List.drop_left, List.countP_append,
    update.publishes.count]
  simp only [List.countP_cons, List.countP_nil, Event.isPublish, Bool.false_eq_true, if_false,
    Nat.zero_add, List.cons_append, List.nil_append, momentsOf]
  rfl

theorem settles_other (update : EntryUpdate vaddr low high before after handed)
    (between : view (store64 mmu before.memory vaddr low) key = view before.memory key)
    (written : view (store128 mmu before.memory vaddr low high) key = view before.memory key)
    (ended : view after.memory key = view before.memory key) (waiting : Nat) (holds : clean) :
    Settles key (view before.memory) clean (callMoments mmu view drops waiting before after) := by
  apply Untouched.settles _ holds
  intro next member
  rw [update.moments_eq, List.mem_cons, List.mem_cons, List.mem_append, List.mem_singleton] at member
  rcases member with first | second | submitted | last
  · rw [Moment.shown.inj first, between]
  · rw [Moment.shown.inj second, written]
  · exact absurd submitted (update.publishes.no_shown _ _ next)
  · rw [Moment.shown.inj last, ended]

/-- A key that an operation has named is coherent once none of its descriptors is waiting, whatever
was cached of it before and during the two stores. -/
theorem settles_named (update : EntryUpdate vaddr low high before after handed)
    (ended : view after.memory key = view (store128 mmu before.memory vaddr low high) key)
    {invalidation : Invalidation} (submitted : some invalidation ∈ Invalidation.ofEvents handed)
    (named : drops invalidation key = true) :
    Settles key (view before.memory) clean (callMoments mmu view drops 0 before after) := by
  rw [update.moments_eq, Settles, Settles]
  apply settles_of_dropped _ (List.mem_append_left _ (update.publishes.mem_dropped submitted _)) named
  intro next member
  rcases List.mem_append.mp member with early | last
  · exact absurd early (update.publishes.no_shown _ _ next)
  · rw [Moment.shown.inj (List.mem_singleton.mp last), ended]

end EntryUpdate

theorem lastShown_callMoments (source : Key → Option Value) (waiting : Nat)
    (before after : QueueWorld QN Registers) :
    lastShown source (callMoments mmu view drops waiting before after) = view after.memory := by
  rw [callMoments, lastShown_append]
  rfl

theorem settles_unchanged {world : QueueWorld QN Registers} {key : Key} {clean : Prop}
    (waiting : Nat) (holds : clean) :
    Settles key (view world.memory) clean (callMoments mmu view drops waiting world world) := by
  apply Untouched.settles _ holds
  intro next member
  rw [callMoments, List.drop_length] at member
  rw [Moment.shown.inj (List.mem_singleton.mp member)]

end Iommu
