import Iommu.Vtd.PromptHardware

/-!
The hardware's side of the invalidation queue, which is not under the driver's control. It carries
descriptors out in the order of the ring, up to the tail it was last given, and its head register
shows the first that it has not carried out yet. A submission that returns `Ok` on a ring that was
caught up leaves it caught up: its head comparison has then seen the descriptor carried out.
-/

namespace Iommu

open MachineWord Memory CommandQueue

variable {QN : Nat} {Registers : Type}

def CommandQueueBacking.distance (backing : CommandQueueBacking) (first second : Nat) : Nat :=
  (second + (backing.entryCount - first)) % backing.entryCount

/-- The slot of the first descriptor that is not carried out yet, and the slot the hardware stops
at. -/
structure RingHardware (Registers : Type) where
  head : Registers → Nat
  tail : Registers → Nat

namespace RingHardware

/-- How many descriptors were handed over and are still to be carried out. -/
def pending (hardware : RingHardware Registers) (backing : CommandQueueBacking)
    (registers : Registers) : Nat :=
  backing.distance (hardware.head registers) (hardware.tail registers)

/-- The hardware goes on for a while, and is handed nothing. -/
structure Advances (hardware : RingHardware Registers) (backing : CommandQueueBacking)
    (before after : Registers) : Prop where
  tail : hardware.tail after = hardware.tail before
  inside : hardware.head after < backing.entryCount
  fewer : hardware.pending backing after ≤ hardware.pending backing before

/-- What is assumed of the hardware. It goes on as it likes while its registers are read, and shows
its head as it then stands; a write of the tail is what hands descriptors over. -/
structure Serves (hardware : RingHardware Registers) (backing : CommandQueueBacking)
    (window : VtdRegisterWindow Registers) (writeTail : Nat → Effect Registers Error Unit) : Prop where
  reading : ∀ registers, hardware.head registers < backing.entryCount →
    hardware.Advances backing registers (window.invalidateQueueHead registers).2
  shown : ∀ registers head after, hardware.head registers < backing.entryCount →
    window.invalidateQueueHead registers = (.ok head, after) →
      head / backing.entryBytes = hardware.head after
  checking : ∀ registers, hardware.head registers < backing.entryCount →
    hardware.Advances backing registers (window.faultStatus registers).2
  handed : ∀ registers slot after, hardware.head registers < backing.entryCount →
    slot < backing.entryCount → writeTail (slot * backing.entryBytes) registers = (.ok (), after) →
      hardware.tail after = slot ∧ hardware.head after < backing.entryCount ∧
        hardware.pending backing after ≤ backing.distance (hardware.head registers) slot

/-- All that was published has been carried out. -/
structure CaughtUp (hardware : RingHardware Registers) (backing : CommandQueueBacking)
    (world : QueueWorld QN Registers) : Prop where
  active : world.queue.backing = some backing
  head : hardware.head world.env = world.queue.committed % backing.entryCount
  tail : hardware.tail world.env = world.queue.committed % backing.entryCount

end RingHardware

namespace CommandQueueBacking

variable (backing : CommandQueueBacking) {first second : Nat}

theorem distance_eq (below : first < backing.entryCount) (inside : second < backing.entryCount) :
    backing.distance first second =
      if first ≤ second then second - first else second + backing.entryCount - first := by
  rw [distance]
  split
  · rw [show second + (backing.entryCount - first) = second - first + backing.entryCount by omega,
      Nat.add_mod_right, Nat.mod_eq_of_lt (by omega)]
  · rw [Nat.mod_eq_of_lt (by omega)]
    omega

theorem distance_self (below : first < backing.entryCount) : backing.distance first first = 0 := by
  rw [backing.distance_eq below below, if_pos (Nat.le_refl _), Nat.sub_self]

theorem eq_of_distance_eq_zero (below : first < backing.entryCount)
    (inside : second < backing.entryCount) (none : backing.distance first second = 0) :
    first = second := by
  rw [backing.distance_eq below inside] at none
  split at none <;> omega

theorem eq_next_of_distance {slot place : Nat} (below : slot < backing.entryCount)
    (inside : place < backing.entryCount) (left : place ≠ slot)
    (near : backing.distance place ((slot + 1) % backing.entryCount) ≤
      backing.distance slot ((slot + 1) % backing.entryCount)) :
    place = (slot + 1) % backing.entryCount := by
  have next : (slot + 1) % backing.entryCount < backing.entryCount :=
    Nat.mod_lt _ backing.entryCount_pos
  have wraps : (slot + 1) % backing.entryCount = slot + 1 ∨
      slot + 1 = backing.entryCount ∧ (slot + 1) % backing.entryCount = 0 := by
    by_cases last : slot + 1 = backing.entryCount
    · exact Or.inr ⟨last, by rw [last, Nat.mod_self]⟩
    · exact Or.inl (Nat.mod_eq_of_lt (by omega))
  rw [backing.distance_eq below next, backing.distance_eq inside next] at near
  split at near <;> split at near <;> omega

theorem wrapping_slot (ticket : Nat) :
    wrappingAdd ticket 1 % backing.entryCount = (ticket + 1) % backing.entryCount := by
  obtain ⟨exponent, power⟩ := backing.countPower
  have bounded : backing.entryCount < limit :=
    Nat.lt_of_le_of_lt (Nat.le_mul_of_pos_right _ backing.entryBytes_pos) backing.sizeBound
  have small : exponent < 64 := by
    rw [power, limit] at bounded
    exact (Nat.pow_lt_pow_iff_right (by decide)).mp bounded
  rw [wrappingAdd, power, limit]
  exact Nat.mod_mod_of_dvd _ (Nat.pow_dvd_pow 2 (Nat.le_of_lt small))

end CommandQueueBacking

namespace RingHardware

variable {hardware : RingHardware Registers} {backing : CommandQueueBacking}

theorem Advances.trans {first second third : Registers}
    (before : hardware.Advances backing first second)
    (after : hardware.Advances backing second third) : hardware.Advances backing first third :=
  ⟨after.tail.trans before.tail, after.inside, Nat.le_trans after.fewer before.fewer⟩

theorem CaughtUp.pending_eq {world : QueueWorld QN Registers}
    (caught : hardware.CaughtUp backing world) : hardware.pending backing world.env = 0 := by
  rw [pending, caught.head, caught.tail]
  exact backing.distance_self (Nat.mod_lt _ backing.entryCount_pos)

theorem CaughtUp.congr {before after : QueueWorld QN Registers}
    (caught : hardware.CaughtUp backing before) (queue : after.queue = before.queue)
    (env : after.env = before.env) : hardware.CaughtUp backing after := by
  obtain ⟨active, head, tail⟩ := caught
  constructor
  · rw [queue, active]
  · rw [queue, env, head]
  · rw [queue, env, tail]

section Submission

variable {mmu : Translation} {window : VtdRegisterWindow Registers}
  {writeTail : Nat → Effect Registers Error Unit} {slot : Nat}
  {env after : Registers × Except Error Unit}

def KeepsOutcome (before after : Registers × Except Error Unit) : Prop := after.2 = before.2

theorem KeepsOutcome.refl (env : Registers × Except Error Unit) : KeepsOutcome env env := rfl

theorem KeepsOutcome.trans (first second third : Registers × Except Error Unit)
    (before : KeepsOutcome first second) (after : KeepsOutcome second third) :
    KeepsOutcome first third :=
  Eq.trans after before

theorem headLeft_keeps (window : VtdRegisterWindow Registers)
    (writeTail : Nat → Effect Registers Error Unit) (slot entryBytes : Nat) :
    (headLeft (invalidationHooks window writeTail) slot entryBytes).Respects KeepsOutcome := by
  apply Effect.Respects.bind KeepsOutcome.trans
  · exact fun _ => rfl
  · exact fun _ => Effect.Respects.pure KeepsOutcome.refl _

theorem headLeft_advances (serves : hardware.Serves backing window writeTail)
    {sampled : Registers × Except Error Unit} {found : Bool}
    (inside : hardware.head env.1 < backing.entryCount)
    (sample : headLeft (invalidationHooks window writeTail) slot backing.entryBytes env =
      (.ok found, sampled)) :
    hardware.Advances backing env.1 sampled.1 ∧ (found = true → hardware.head sampled.1 ≠ slot) := by
  obtain ⟨head, middle, read, shows⟩ := Effect.bind_eq_ok.mp sample
  rw [Effect.pure_apply] at shows
  cases shows
  have through : Effect.within Prod.fst (fun env registers => (registers, env.2))
      window.invalidateQueueHead env = (.ok head, sampled) := read
  obtain ⟨registers, raw, rfl⟩ := Effect.within_eq_ok.mp through
  have went := serves.reading env.1 inside
  have place := serves.shown env.1 head registers inside raw
  rw [raw] at went
  refine ⟨went, fun left => ?_⟩
  rw [← place]
  exact of_decide_eq_true left

/-- What the closures of a submission wait for, on a ring that stood at its slot. -/
theorem serve_carriesOut (serves : hardware.Serves backing window writeTail)
    (below : slot < backing.entryCount) (stood : hardware.head env.1 = slot)
    (served : serve (invalidationHooks window writeTail) backing slot env = (.ok (), after))
    (written : after.2 = .ok ()) :
    hardware.head after.1 = (slot + 1) % backing.entryCount ∧
      hardware.tail after.1 = (slot + 1) % backing.entryCount := by
  have next : (slot + 1) % backing.entryCount < backing.entryCount :=
    Nat.mod_lt _ backing.entryCount_pos
  have tailSlot : tailAfter backing slot = (slot + 1) % backing.entryCount * backing.entryBytes := by
    rw [tailAfter, and_pred_of_isPowerOfTwo backing.countPower]
  rw [serve] at served
  obtain ⟨_, start, wrote, polled⟩ := Effect.bind_eq_ok.mp served
  rw [Effect.modify_apply] at wrote
  obtain rfl := congrArg Prod.snd wrote
  obtain ⟨_, waited, polling, checked⟩ := Effect.bind_eq_ok.mp polled
  rcases pushed : writeTail (tailAfter backing slot) env.1 with ⟨result, registers⟩
  have handedOver : (invalidationHooks window writeTail).writeTail (tailAfter backing slot) env =
      (registers, result) := by
    simp only [invalidationHooks, pushed]
  rw [handedOver] at polling
  have through : Effect.within Prod.fst (fun env registers => (registers, env.2))
      (window.faultStatus >>= fun _ => pure ()) waited = (.ok (), after) := checked
  obtain ⟨last, status, rfl⟩ := Effect.within_eq_ok.mp through
  obtain ⟨_, _, read, finished⟩ := Effect.bind_eq_ok.mp status
  cases finished
  -- The write of the tail has gone through, for its outcome is still there.
  have outcome : KeepsOutcome (registers, result) _ := Effect.Respects.poll
    KeepsOutcome.refl KeepsOutcome.trans Error.controllerUnavailable
    (headLeft_keeps window writeTail slot backing.entryBytes) COMMAND_QUEUE_POLL_LIMIT
    (registers, result)
  rw [polling] at outcome
  obtain rfl : result = .ok () := outcome.symm.trans written
  rw [tailSlot] at pushed
  obtain ⟨tail, inside, near⟩ := serves.handed env.1 _ registers (stood ▸ below) next pushed
  let Since (state : Registers × Except Error Unit) : Prop :=
    hardware.Advances backing registers state.1
  have stays : ∀ state after, Since state →
      headLeft (invalidationHooks window writeTail) slot backing.entryBytes state =
        (.ok false, after) → Since after :=
    fun _ _ since sample => since.trans (headLeft_advances serves since.inside sample).1
  obtain ⟨sampled, since, sample⟩ :=
    Effect.poll_returned stays (⟨rfl, inside, Nat.le_refl _⟩ : Since (registers, .ok ())) polling
  obtain ⟨moved, left⟩ := headLeft_advances serves since.inside sample
  have waited := since.trans moved
  have checking := serves.checking _ waited.inside
  rw [read] at checking
  -- The head has left its slot for the only place that is not farther from the tail.
  have fewer := waited.fewer
  rw [pending, waited.tail, tail] at fewer
  rw [stood] at near
  have arrived := backing.eq_next_of_distance below waited.inside (left rfl)
    (Nat.le_trans fewer near)
  have nothing := checking.fewer
  rw [pending, pending, checking.tail, waited.tail, tail, arrived, backing.distance_self next,
    Nat.le_zero] at nothing
  exact ⟨backing.eq_of_distance_eq_zero checking.inside next nothing,
    checking.tail.trans (waited.tail.trans tail)⟩

/-- A submission that returns `Ok` on a ring that was caught up leaves it caught up: its descriptor
has been carried out. -/
theorem CaughtUp.submitted (serves : hardware.Serves backing window writeTail)
    {descriptor : VtdQueuedInvalidationDescriptor} {world after : QueueWorld QN Registers}
    (caught : hardware.CaughtUp backing world)
    (ran : submitWithTail mmu window writeTail descriptor world = (.ok (), after)) :
    hardware.CaughtUp backing after := by
  rw [submitWithTail_apply] at ran
  cases returned : (submit mmu (invalidationHooks window writeTail) descriptor.bytes
      world.withTailResult).1 with
  | error error =>
      simp only [returned] at ran
      cases ran
  | ok value =>
      obtain ⟨other, accepts, served⟩ := submit_ok_serves returned
      obtain rfl : other = backing := Option.some.inj (accepts.active.symm.trans caught.active)
      obtain ⟨active, committed⟩ := accepts.submit_committed mmu served
      have turn : world.queue.committed = world.queue.claim := accepts.turn
      have stood : hardware.head world.env = ticketSlot other world.queue.claim := by
        rw [caught.head, turn, ticketSlot_eq]
      simp only [returned, Prod.mk.injEq] at ran
      obtain ⟨written, rfl⟩ := ran
      obtain ⟨head, tail⟩ := serve_carriesOut serves (ticketSlot_lt other _) stood served written
      have slot : (ticketSlot other world.queue.claim + 1) % other.entryCount =
          wrappingAdd world.queue.committed 1 % other.entryCount := by
        rw [ticketSlot_eq, Nat.mod_add_mod, other.wrapping_slot, turn]
      have reached := slot.trans (congrArg (fun ticket => ticket % other.entryCount) committed.symm)
      exact ⟨active, head.trans reached, tail.trans reached⟩

end Submission

end RingHardware

/-- A call, and the registers as the hardware has left them by the time it is made. -/
structure Timed (Registers Call : Type) where
  registers : Registers
  call : Call

def QueueWorld.resumed (world : QueueWorld QN Registers) (registers : Registers) :
    QueueWorld QN Registers :=
  { world with env := registers }

def promptHardware : RingHardware UInt64 :=
  ⟨fun tail => tail.toNat / 16, fun tail => tail.toNat / 16⟩

theorem promptHardware_serves {writeTail : Nat → Effect UInt64 Error Unit}
    (takes : TakesTail writeTail) : promptHardware.Serves descriptorRing .prompt writeTail := by
  constructor
  · exact fun registers inside => ⟨rfl, inside, Nat.le_refl _⟩
  · rintro registers head after _ ⟨⟩
    rfl
  · exact fun registers inside => ⟨rfl, inside, Nat.le_refl _⟩
  · intro registers slot after _ below wrote
    rw [takes] at wrote
    cases wrote
    have small : slot < 2 := below
    have place : (UInt64.ofNat (slot * descriptorRing.entryBytes)).toNat / 16 = slot := by
      have width : descriptorRing.entryBytes = 16 := rfl
      rw [width, UInt64.toNat_ofNat_of_lt' (by simp [UInt64.size]; omega)]
      omega
    refine ⟨place, place.trans_lt below, ?_⟩
    have head : promptHardware.head (UInt64.ofNat (slot * descriptorRing.entryBytes)) = slot := place
    have tail : promptHardware.tail (UInt64.ofNat (slot * descriptorRing.entryBytes)) = slot := place
    rw [RingHardware.pending, head, tail, descriptorRing.distance_self below]
    exact Nat.zero_le _

end Iommu
