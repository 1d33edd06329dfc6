import Iommu.Queue.CommandQueueCore

/-!
What one `submit` does when nobody else touches the queue: which of its checks
refuse the ticket, and what the closures decide once the tail has been written.
-/

namespace Iommu

open MachineWord Memory

variable {N : Nat} {Env : Type}

namespace QueueWorld

def fill (mmu : Translation) (backing : CommandQueueBacking) (bytes : List UInt8) (slot : Nat)
    (world : QueueWorld N Env) : QueueWorld N Env :=
  storeSlotState slot .ready { world with
    memory := storeBytes mmu world.memory (backing.virt.start + slot * backing.entryBytes)
      (paddedEntry backing.entryBytes bytes) }

def publish (backing : CommandQueueBacking) (ticket : Nat) (world : QueueWorld N Env) :
    QueueWorld N Env :=
  let slot := CommandQueue.ticketSlot backing ticket
  storeCommitted (wrappingAdd ticket 1) (storeSlotState slot .published { world with
    events := world.events ++
      [.publish (CommandQueue.tailAfter backing slot) (backing.slotBytes world.memory slot)] })

def retire (backing : CommandQueueBacking) (ticket : Nat) (world : QueueWorld N Env) :
    QueueWorld N Env :=
  let emptied := storeSlotState (CommandQueue.ticketSlot backing ticket) .empty world
  { emptied with queue := { emptied.queue with
      retired := max emptied.queue.retired (wrappingAdd ticket 1) } }

@[simp] theorem fill_queue (mmu : Translation) (backing : CommandQueueBacking) (bytes : List UInt8)
    (slot : Nat) (world : QueueWorld N Env) :
    (world.fill mmu backing bytes slot).queue = { world.queue with
      slotState := Function.update world.queue.slotState slot .ready } := rfl

@[simp] theorem publish_queue (backing : CommandQueueBacking) (ticket : Nat)
    (world : QueueWorld N Env) :
    (world.publish backing ticket).queue = { world.queue with
      committed := wrappingAdd ticket 1
      slotState := Function.update world.queue.slotState (CommandQueue.ticketSlot backing ticket)
        .published } := rfl

@[simp] theorem retire_queue (backing : CommandQueueBacking) (ticket : Nat)
    (world : QueueWorld N Env) :
    (world.retire backing ticket).queue = { world.queue with
      retired := max world.queue.retired (wrappingAdd ticket 1)
      slotState := Function.update world.queue.slotState (CommandQueue.ticketSlot backing ticket)
        .empty } := rfl

end QueueWorld

namespace CommandQueue

/-- What the closures decide after the slot has been filled: the tail write, the head reads,
the error check. -/
def serve (hooks : QueueHooks Env) (backing : CommandQueueBacking) (slot : Nat) :
    Effect Env Error Unit := do
  .modify (hooks.writeTail (tailAfter backing slot))
  .poll .controllerUnavailable (headLeft hooks slot backing.entryBytes) COMMAND_QUEUE_POLL_LIMIT
  hooks.checkError

theorem pollLimit_pos : 0 < COMMAND_QUEUE_POLL_LIMIT := by
  rw [COMMAND_QUEUE_POLL_LIMIT]
  omega

theorem waitForCapacity_apply (ticket entryCount : Nat) (world : QueueWorld N Env) :
    waitForCapacity ticket entryCount COMMAND_QUEUE_POLL_LIMIT world =
      (if wrappingSub ticket world.queue.retired < entryCount then .ok ()
        else .error .controllerUnavailable, world) := by
  rw [waitForCapacity, Effect.poll_get]
  simp [pollLimit_pos]

theorem waitForEmpty_apply (slot : Nat) (world : QueueWorld N Env) :
    waitForEmpty slot COMMAND_QUEUE_POLL_LIMIT world =
      (if world.queue.slotState slot = .empty then .ok () else .error .controllerUnavailable,
        world) := by
  rw [waitForEmpty, Effect.poll_get]
  simp [pollLimit_pos]

theorem waitToPublish_apply (ticket : Nat) (world : QueueWorld N Env) :
    waitToPublish ticket COMMAND_QUEUE_POLL_LIMIT world =
      (if world.queue.committed = ticket then .ok () else .error .controllerUnavailable, world) := by
  rw [waitToPublish, Effect.poll_get]
  simp [pollLimit_pos]

theorem waitForConsumed_eq (hooks : QueueHooks Env) (slot entryBytes polls : Nat) :
    (waitForConsumed hooks slot entryBytes polls : Effect (QueueWorld N Env) Error Unit) =
      callHook (.poll .controllerUnavailable (headLeft hooks slot entryBytes) polls) :=
  (Effect.within_poll (fun world : QueueWorld N Env => world.env)
    (fun world env => { world with env }) (fun _ _ => rfl) (fun _ _ _ => rfl)
    (fun _ => rfl) _ _ _).symm

theorem callHook_of_eq {Value : Type} {hook : Effect Env Error Value} {env after : Env}
    {outcome : Except Error Value} (ran : hook env = (outcome, after)) {world : QueueWorld N Env}
    (captured : world.env = env) : callHook hook world = (outcome, { world with env := after }) := by
  subst captured
  rw [callHook, Effect.within_apply, ran]

theorem advanceRetired_apply (next : Nat) (world : QueueWorld N Env) :
    advanceRetired next world = (.ok (), { world with queue := { world.queue with
      retired := max world.queue.retired next } }) := by
  rw [advanceRetired, Effect.modify_apply]
  by_cases behind : world.queue.retired < next
  · rw [if_pos behind, Nat.max_eq_right (Nat.le_of_lt behind)]
  · rw [if_neg behind, Nat.max_eq_left (Nat.le_of_not_lt behind)]

theorem writeSlot_apply (mmu : Translation) {backing : CommandQueueBacking} {slot : Nat}
    (below : slot < backing.entryCount) (bytes : List UInt8) (world : QueueWorld N Env) :
    writeSlot mmu backing slot bytes world = (.ok (), { world with
      memory := storeBytes mmu world.memory (backing.virt.start + slot * backing.entryBytes)
        (paddedEntry backing.entryBytes bytes) }) := by
  rw [writeSlot, backing.entryVaddr_of_lt below]
  rfl

section Ticket

variable {mmu : Translation} {hooks : QueueHooks Env} {backing : CommandQueueBacking}
  {bytes : List UInt8} {ticket : Nat} {world : QueueWorld N Env}

theorem submitTicket_of_full (full : ¬wrappingSub ticket world.queue.retired < backing.entryCount) :
    submitTicket mmu hooks backing bytes ticket world = (.error .controllerUnavailable, world) := by
  rw [submitTicket]
  apply Effect.bind_of_error
  rw [waitForCapacity_apply, if_neg full]

theorem submitTicket_of_taken (capacity : wrappingSub ticket world.queue.retired < backing.entryCount)
    (taken : world.queue.slotState (ticketSlot backing ticket) ≠ .empty) :
    submitTicket mmu hooks backing bytes ticket world = (.error .controllerUnavailable, world) := by
  have admitted := waitForCapacity_apply ticket backing.entryCount world
  rw [if_pos capacity] at admitted
  rw [submitTicket, Effect.bind_of_ok admitted]
  apply Effect.bind_of_error
  rw [waitForEmpty_apply, if_neg taken]

theorem submitTicket_of_empty (capacity : wrappingSub ticket world.queue.retired < backing.entryCount)
    (empty : world.queue.slotState (ticketSlot backing ticket) = .empty) :
    submitTicket mmu hooks backing bytes ticket world =
      publishTicket hooks backing ticket
        (world.fill mmu backing bytes (ticketSlot backing ticket)) := by
  have admitted := waitForCapacity_apply ticket backing.entryCount world
  have found := waitForEmpty_apply (ticketSlot backing ticket) world
  rw [if_pos capacity] at admitted
  rw [if_pos empty] at found
  have written := writeSlot_apply mmu (ticketSlot_lt backing ticket) bytes
    (world.storeSlotState (ticketSlot backing ticket) .writing)
  rw [submitTicket, Effect.bind_of_ok admitted, Effect.bind_of_ok found,
    Effect.bind_of_ok (Effect.modify_apply _ _), Effect.bind_of_ok written,
    Effect.bind_of_ok (Effect.modify_apply _ _)]
  congr 1
  simp [QueueWorld.fill, QueueWorld.storeSlotState]

theorem submitTicket_of_early (capacity : wrappingSub ticket world.queue.retired < backing.entryCount)
    (empty : world.queue.slotState (ticketSlot backing ticket) = .empty)
    (early : world.queue.committed ≠ ticket) :
    submitTicket mmu hooks backing bytes ticket world =
      (.error .controllerUnavailable, world.fill mmu backing bytes (ticketSlot backing ticket)) := by
  rw [submitTicket_of_empty capacity empty, publishTicket]
  apply Effect.bind_of_error
  rw [waitToPublish_apply, QueueWorld.fill_queue, if_neg early]

theorem submitTicket_of_clear (capacity : wrappingSub ticket world.queue.retired < backing.entryCount)
    (empty : world.queue.slotState (ticketSlot backing ticket) = .empty)
    (turn : world.queue.committed = ticket) :
    submitTicket mmu hooks backing bytes ticket world =
      let served := serve hooks backing (ticketSlot backing ticket) world.env
      let published := { (world.fill mmu backing bytes (ticketSlot backing ticket)).publish backing
        ticket with env := served.2 }
      match served.1 with
      | .ok () => (.ok (), published.retire backing ticket)
      | .error error => (.error error, published) := by
  have next := waitToPublish_apply ticket
    (world.fill mmu backing bytes (ticketSlot backing ticket))
  rw [QueueWorld.fill_queue, if_pos turn] at next
  rw [submitTicket_of_empty capacity empty, publishTicket, Effect.bind_of_ok next, writeTail,
    Effect.bind_of_ok (Effect.modify_apply _ _), Effect.bind_of_ok (Effect.modify_apply _ _),
    Effect.bind_of_ok (Effect.modify_apply _ _), waitForConsumed_eq, serve,
    Effect.bind_of_ok (Effect.modify_apply _ _)]
  rcases read : Effect.poll .controllerUnavailable
    (headLeft hooks (ticketSlot backing ticket) backing.entryBytes) COMMAND_QUEUE_POLL_LIMIT
    (hooks.writeTail (tailAfter backing (ticketSlot backing ticket)) world.env) with ⟨outcome, env⟩
  cases outcome with
  | error error =>
      rw [Effect.bind_of_error read, Effect.bind_of_error (callHook_of_eq read rfl)]
      rfl
  | ok value =>
      rw [Effect.bind_of_ok read, Effect.bind_of_ok (callHook_of_eq read rfl)]
      rcases checked : hooks.checkError env with ⟨outcome, final⟩
      cases outcome with
      | error error =>
          rw [Effect.bind_of_error (callHook_of_eq checked rfl)]
          rfl
      | ok value =>
          rw [Effect.bind_of_ok (callHook_of_eq checked rfl),
            Effect.bind_of_ok (Effect.modify_apply _ _), advanceRetired_apply]
          rfl

theorem submitTicket_cases (mmu : Translation) (hooks : QueueHooks Env)
    (backing : CommandQueueBacking) (bytes : List UInt8) (ticket : Nat) (world : QueueWorld N Env) :
    submitTicket mmu hooks backing bytes ticket world = (.error .controllerUnavailable, world) ∨
    world.queue.slotState (ticketSlot backing ticket) = .empty ∧
      (submitTicket mmu hooks backing bytes ticket world =
        (.error .controllerUnavailable, world.fill mmu backing bytes (ticketSlot backing ticket)) ∨
      ∃ env, (∃ error, submitTicket mmu hooks backing bytes ticket world = (.error error,
          { (world.fill mmu backing bytes (ticketSlot backing ticket)).publish backing ticket with
            env })) ∨
        submitTicket mmu hooks backing bytes ticket world = (.ok (),
          ({ (world.fill mmu backing bytes (ticketSlot backing ticket)).publish backing ticket with
            env } : QueueWorld N Env).retire backing ticket)) := by
  by_cases capacity : wrappingSub ticket world.queue.retired < backing.entryCount
  · by_cases empty : world.queue.slotState (ticketSlot backing ticket) = .empty
    · refine Or.inr ⟨empty, ?_⟩
      by_cases turn : world.queue.committed = ticket
      · rw [submitTicket_of_clear capacity empty turn]
        rcases serve hooks backing (ticketSlot backing ticket) world.env with ⟨outcome, env⟩
        refine Or.inr ⟨env, ?_⟩
        cases outcome with
        | error error => exact Or.inl ⟨error, rfl⟩
        | ok value => exact Or.inr rfl
      · exact Or.inl (submitTicket_of_early capacity empty turn)
    · exact Or.inl (submitTicket_of_taken capacity empty)
  · exact Or.inl (submitTicket_of_full capacity)

end Ticket

theorem submit_of_inactive {mmu : Translation} {hooks : QueueHooks Env} {bytes : List UInt8}
    {world : QueueWorld N Env} (inactive : world.queue.backing = none) :
    submit mmu hooks bytes world = (.error .controllerUnavailable, world) := by
  rw [submit, Effect.bind_of_ok (Effect.get_apply _ _), inactive]
  rfl

theorem submit_of_unfit {mmu : Translation} {hooks : QueueHooks Env} {backing : CommandQueueBacking}
    {bytes : List UInt8} {world : QueueWorld N Env} (active : world.queue.backing = some backing)
    (unfit : ¬WidthFits backing bytes) :
    submit mmu hooks bytes world = (.error .invalidGranule, world) := by
  rw [submit, Effect.bind_of_ok (Effect.get_apply _ _), active]
  simp only
  rw [if_neg unfit, Effect.fail_apply]

theorem submit_of_fits {mmu : Translation} {hooks : QueueHooks Env} {backing : CommandQueueBacking}
    {bytes : List UInt8} {world : QueueWorld N Env} (active : world.queue.backing = some backing)
    (fits : WidthFits backing bytes) :
    submit mmu hooks bytes world =
      submitTicket mmu hooks backing bytes world.queue.claim
        { world with queue := { world.queue with claim := wrappingAdd world.queue.claim 1 } } := by
  rw [submit, Effect.bind_of_ok (Effect.get_apply _ _), active]
  simp only
  rw [if_pos fits]
  rfl

end CommandQueue

/-- The ring has room for the bytes and no ticket of another submission is in the way. -/
structure CommandQueue.Accepts {N : Nat} (queue : CommandQueue N) (backing : CommandQueueBacking)
    (bytes : List UInt8) : Prop where
  active : queue.backing = some backing
  fits : WidthFits backing bytes
  capacity : wrappingSub queue.claim queue.retired < backing.entryCount
  empty : queue.slotState (ticketSlot backing queue.claim) = .empty
  turn : queue.committed = queue.claim

namespace CommandQueue

variable {mmu : Translation} {hooks : QueueHooks Env} {bytes : List UInt8} {world : QueueWorld N Env}

theorem submitTicket_ok_serves {backing : CommandQueueBacking} {ticket : Nat}
    (returned : (submitTicket mmu hooks backing bytes ticket world).1 = .ok ()) :
    wrappingSub ticket world.queue.retired < backing.entryCount ∧
      world.queue.slotState (ticketSlot backing ticket) = .empty ∧ world.queue.committed = ticket ∧
      serve hooks backing (ticketSlot backing ticket) world.env =
        (.ok (), (submitTicket mmu hooks backing bytes ticket world).2.env) := by
  by_cases capacity : wrappingSub ticket world.queue.retired < backing.entryCount
  · by_cases empty : world.queue.slotState (ticketSlot backing ticket) = .empty
    · by_cases turn : world.queue.committed = ticket
      · refine ⟨capacity, empty, turn, ?_⟩
        rw [submitTicket_of_clear capacity empty turn] at returned ⊢
        rcases served : serve hooks backing (ticketSlot backing ticket) world.env with ⟨outcome, env⟩
        rw [served] at returned
        cases outcome with
        | error error => cases returned
        | ok value => rfl
      · rw [submitTicket_of_early capacity empty turn] at returned
        cases returned
    · rw [submitTicket_of_taken capacity empty] at returned
      cases returned
  · rw [submitTicket_of_full capacity] at returned
    cases returned

theorem submit_ok_serves (returned : (submit mmu hooks bytes world).1 = .ok ()) :
    ∃ backing, world.queue.Accepts backing bytes ∧
      serve hooks backing (ticketSlot backing world.queue.claim) world.env =
        (.ok (), (submit mmu hooks bytes world).2.env) := by
  cases active : world.queue.backing with
  | none =>
      rw [submit_of_inactive active] at returned
      cases returned
  | some backing =>
      by_cases fits : WidthFits backing bytes
      · rw [submit_of_fits active fits] at returned ⊢
        obtain ⟨capacity, empty, turn, served⟩ := submitTicket_ok_serves returned
        exact ⟨backing, ⟨active, fits, capacity, empty, turn⟩, served⟩
      · rw [submit_of_unfit active fits] at returned
        cases returned

theorem Accepts.submit_ok (mmu : Translation) {backing : CommandQueueBacking}
    (accepts : world.queue.Accepts backing bytes) {after : Env}
    (served : serve hooks backing (ticketSlot backing world.queue.claim) world.env = (.ok (), after)) :
    (submit mmu hooks bytes world).1 = .ok () ∧ (submit mmu hooks bytes world).2.env = after := by
  let claimed : QueueWorld N Env :=
    { world with queue := { world.queue with claim := wrappingAdd world.queue.claim 1 } }
  have ticket : submitTicket mmu hooks backing bytes world.queue.claim claimed = _ :=
    submitTicket_of_clear accepts.capacity accepts.empty accepts.turn
  have same : claimed.env = world.env := rfl
  rw [submit_of_fits accepts.active accepts.fits, ticket, same, served]
  exact ⟨rfl, rfl⟩

theorem Accepts.submit_committed (mmu : Translation) {backing : CommandQueueBacking}
    (accepts : world.queue.Accepts backing bytes) {after : Env}
    (served : serve hooks backing (ticketSlot backing world.queue.claim) world.env = (.ok (), after)) :
    (submit mmu hooks bytes world).2.queue.backing = some backing ∧
      (submit mmu hooks bytes world).2.queue.committed = wrappingAdd world.queue.committed 1 := by
  let claimed : QueueWorld N Env :=
    { world with queue := { world.queue with claim := wrappingAdd world.queue.claim 1 } }
  have ticket : submitTicket mmu hooks backing bytes world.queue.claim claimed = _ :=
    submitTicket_of_clear accepts.capacity accepts.empty accepts.turn
  have same : claimed.env = world.env := rfl
  rw [submit_of_fits accepts.active accepts.fits, ticket, same, served, accepts.turn]
  exact ⟨accepts.active, rfl⟩

end CommandQueue

end Iommu
