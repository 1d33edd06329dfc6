import Iommu.Queue.SubmitOutcome

/-!
What a `submit` leaves alone. In every outcome the installed ring stays installed
and no byte outside it changes; a submission that succeeded has handed exactly its
own entry to the hardware.
-/

namespace Iommu

open MachineWord Memory

variable {N : Nat} {Env : Type}

namespace QueueWorld

def RingMapped (mmu : Translation) (world : QueueWorld N Env) : Prop :=
  ∀ backing, world.queue.backing = some backing → backing.Mapped mmu

def OwnsRing (world : QueueWorld N Env) (paddr : Nat) : Prop :=
  ∃ backing, world.queue.backing = some backing ∧ backing.Owns paddr

/-- The second world keeps the first one's ring and every byte outside it. -/
structure RingOnly (before after : QueueWorld N Env) : Prop where
  ring : after.queue.backing = before.queue.backing
  memory : ∀ paddr, ¬before.OwnsRing paddr → after.memory paddr = before.memory paddr

theorem RingOnly.refl (world : QueueWorld N Env) : RingOnly world world :=
  ⟨rfl, fun _ _ => rfl⟩

theorem ownsRing_congr {first second : QueueWorld N Env}
    (same : second.queue.backing = first.queue.backing) (paddr : Nat) :
    second.OwnsRing paddr ↔ first.OwnsRing paddr := by
  rw [OwnsRing, OwnsRing, same]

theorem RingMapped.congr {mmu : Translation} {first second : QueueWorld N Env}
    (mapped : first.RingMapped mmu) (same : second.queue.backing = first.queue.backing) :
    second.RingMapped mmu := by
  rw [RingMapped, same]
  exact mapped

theorem RingOnly.trans {first second third : QueueWorld N Env} (before : RingOnly first second)
    (after : RingOnly second third) : RingOnly first third := by
  constructor
  · rw [after.ring, before.ring]
  · intro paddr apart
    rw [after.memory paddr (mt (ownsRing_congr before.ring paddr).mp apart),
      before.memory paddr apart]

theorem fill_memory_outside {mmu : Translation} {backing : CommandQueueBacking}
    (mapped : backing.Mapped mmu) (bytes : List UInt8) {slot : Nat}
    (below : slot < backing.entryCount) (world : QueueWorld N Env) {paddr : Nat}
    (apart : ¬backing.Owns paddr) :
    (world.fill mmu backing bytes slot).memory paddr = world.memory paddr := by
  have covers : Contiguous mmu (backing.virt.start + slot * backing.entryBytes)
      (backing.phys.start + slot * backing.entryBytes)
      (paddedEntry backing.entryBytes bytes).length := by
    simp only [paddedEntry, List.length_map, List.length_range]
    exact CommandQueueBacking.slot_contiguous mapped below
  have fits := backing.slot_fits below
  rw [CommandQueueBacking.Owns] at apart
  simp only [fill, storeSlotState]
  rw [storeBytes_apply _ _ covers, if_neg]
  simp only [paddedEntry, List.length_map, List.length_range]
  omega

theorem fill_slotBytes {mmu : Translation} {backing : CommandQueueBacking}
    (mapped : backing.Mapped mmu) (bytes : List UInt8) {slot : Nat}
    (below : slot < backing.entryCount) (world : QueueWorld N Env) :
    backing.slotBytes (world.fill mmu backing bytes slot).memory slot =
      paddedEntry backing.entryBytes bytes := by
  have width : (paddedEntry backing.entryBytes bytes).length = backing.entryBytes := by
    simp [paddedEntry]
  have covers := CommandQueueBacking.slot_contiguous mapped below
  rw [← width] at covers
  have stored := loadBytes_storeBytes world.memory (paddedEntry backing.entryBytes bytes) covers
  rw [width] at stored
  exact stored

end QueueWorld

namespace CommandQueue

variable {mmu : Translation} {hooks : QueueHooks Env} {bytes : List UInt8}

theorem submitTicket_frame (hooks : QueueHooks Env) {backing : CommandQueueBacking}
    (mapped : backing.Mapped mmu) (bytes : List UInt8) (ticket : Nat) (world : QueueWorld N Env) :
    (submitTicket mmu hooks backing bytes ticket world).2.queue.backing = world.queue.backing ∧
      ∀ paddr, ¬backing.Owns paddr →
        (submitTicket mmu hooks backing bytes ticket world).2.memory paddr = world.memory paddr := by
  have outside : ∀ paddr, ¬backing.Owns paddr →
      (world.fill mmu backing bytes (ticketSlot backing ticket)).memory paddr =
        world.memory paddr := fun paddr apart =>
    QueueWorld.fill_memory_outside mapped bytes (ticketSlot_lt backing ticket) world apart
  obtain ran | ⟨_, ran | ⟨env, ⟨error, ran⟩ | ran⟩⟩ :=
    submitTicket_cases mmu hooks backing bytes ticket world
  all_goals rw [ran]
  · exact ⟨rfl, fun _ _ => rfl⟩
  · exact ⟨rfl, outside⟩
  · exact ⟨rfl, outside⟩
  · exact ⟨rfl, outside⟩

/-- A ticket hands its own entry to the hardware, or nothing; when it returns `Ok` it has done so. -/
theorem submitTicket_events (hooks : QueueHooks Env) {backing : CommandQueueBacking}
    (mapped : backing.Mapped mmu) (bytes : List UInt8) (ticket : Nat) (world : QueueWorld N Env) :
    (submitTicket mmu hooks backing bytes ticket world).2.events = world.events ++
        [.publish (tailAfter backing (ticketSlot backing ticket)) (paddedEntry backing.entryBytes bytes)] ∨
      (submitTicket mmu hooks backing bytes ticket world).2.events = world.events ∧
        (submitTicket mmu hooks backing bytes ticket world).1 ≠ .ok () := by
  have stored := QueueWorld.fill_slotBytes mapped bytes (ticketSlot_lt backing ticket) world
  obtain ran | ⟨_, ran | ⟨env, ⟨error, ran⟩ | ran⟩⟩ :=
    submitTicket_cases mmu hooks backing bytes ticket world
  all_goals rw [ran]
  · exact Or.inr ⟨rfl, by simp⟩
  · exact Or.inr ⟨rfl, by simp⟩
  · exact Or.inl (by rw [← stored]; rfl)
  · exact Or.inl (by rw [← stored]; rfl)

theorem submit_ringOnly (hooks : QueueHooks Env) (bytes : List UInt8) {world : QueueWorld N Env}
    (mapped : world.RingMapped mmu) :
    world.RingOnly (submit mmu hooks bytes world).2 := by
  cases active : world.queue.backing with
  | none =>
      rw [submit_of_inactive active]
      exact QueueWorld.RingOnly.refl world
  | some backing =>
      by_cases fits : WidthFits backing bytes
      · rw [submit_of_fits active fits]
        obtain ⟨ring, memory⟩ := submitTicket_frame hooks (mapped backing active) bytes
          world.queue.claim
          { world with queue := { world.queue with claim := wrappingAdd world.queue.claim 1 } }
        exact ⟨ring, fun paddr apart => memory paddr fun owned => apart ⟨backing, active, owned⟩⟩
      · rw [submit_of_unfit active fits]
        exact QueueWorld.RingOnly.refl world

theorem submit_events (hooks : QueueHooks Env) (bytes : List UInt8) {world : QueueWorld N Env}
    (mapped : world.RingMapped mmu) :
    (∃ tail padding, (submit mmu hooks bytes world).2.events =
      world.events ++ [.publish tail (bytes ++ List.replicate padding 0)]) ∨
    (submit mmu hooks bytes world).2.events = world.events ∧
      (submit mmu hooks bytes world).1 ≠ .ok () := by
  cases active : world.queue.backing with
  | none =>
      rw [submit_of_inactive active]
      exact Or.inr ⟨rfl, by simp⟩
  | some backing =>
      by_cases fits : WidthFits backing bytes
      · rw [submit_of_fits active fits]
        rcases submitTicket_events hooks (mapped backing active) bytes world.queue.claim
          { world with queue := { world.queue with claim := wrappingAdd world.queue.claim 1 } }
          with handed | kept
        · rw [paddedEntry_eq fits.2] at handed
          exact Or.inl ⟨_, _, handed⟩
        · exact Or.inr kept
      · rw [submit_of_unfit active fits]
        exact Or.inr ⟨rfl, by simp⟩

end CommandQueue

end Iommu
