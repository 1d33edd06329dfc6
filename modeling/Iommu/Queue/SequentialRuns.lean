import Iommu.Queue.SubmitRecovery
import Iommu.Queue.SubmitFrame

/-!
Runs of submits one after the other, served by hardware that sets its head to each tail it is
given: what they return, the tails they write, and what is in the ring after them.
-/

namespace Iommu

open MachineWord Memory CommandQueue

variable {N : Nat} {Env : Type}

namespace QueueWorld

theorem fill_slotBytes_apart {mmu : Translation} {backing : CommandQueueBacking}
    (mapped : backing.Mapped mmu) (bytes : List UInt8) {slot other : Nat}
    (below : slot < backing.entryCount) (apart : other ≠ slot) (world : QueueWorld N Env) :
    backing.slotBytes (world.fill mmu backing bytes slot).memory other =
      backing.slotBytes world.memory other := by
  have width : (paddedEntry backing.entryBytes bytes).length = backing.entryBytes := by
    simp [paddedEntry]
  have covers : Contiguous mmu (backing.virt.start + slot * backing.entryBytes)
      (backing.phys.start + slot * backing.entryBytes)
      (paddedEntry backing.entryBytes bytes).length := by
    rw [width]
    exact CommandQueueBacking.slot_contiguous mapped below
  have stored : (world.fill mmu backing bytes slot).memory = storeBytes mmu world.memory
      (backing.virt.start + slot * backing.entryBytes) (paddedEntry backing.entryBytes bytes) := rfl
  apply loadBytes_congr
  intro offset inside
  rw [stored, storeBytes_apply _ _ covers, if_neg]
  rw [width]
  rcases Nat.lt_or_gt_of_ne apart with before | after
  · have disjoint := backing.slots_disjoint before
    omega
  · have disjoint := backing.slots_disjoint after
    omega

end QueueWorld

def CommandQueueBacking.entryOf (backing : CommandQueueBacking) (bytes : List UInt8) : List UInt8 :=
  bytes ++ List.replicate (backing.entryBytes - bytes.length) 0

/-- What a prompt submit adds to a ring that waits for nothing. -/
structure Adds (backing : CommandQueueBacking) (ticket : Nat) (bytes : List UInt8)
    (before after : QueueWorld N Env) : Prop where
  clean : Clean backing (ticket + 1) after
  events : after.events = before.events ++
    [.publish (((ticket + 1) % backing.entryCount) * backing.entryBytes) (backing.entryOf bytes)]
  written : backing.slotBytes after.memory (ticket % backing.entryCount) = backing.entryOf bytes
  kept : ∀ slot, slot ≠ ticket % backing.entryCount →
    backing.slotBytes after.memory slot = backing.slotBytes before.memory slot
  beyond : ∀ slot, backing.entryCount ≤ slot →
    after.queue.slotState slot = before.queue.slotState slot

section Runs

variable (mmu : Translation) {backing : CommandQueueBacking} {submission : Submission Env}
  {ticket : Nat} {world : QueueWorld N Env} {head : Env → Nat}

theorem Submission.Prompt.submit_adds (prompt : submission.Prompt backing head)
    (mapped : backing.Mapped mmu) (several : 2 ≤ backing.entryCount)
    (clean : Clean backing ticket world) (small : ticket + 1 < limit) :
    (submit mmu submission.hooks submission.bytes world).1 = .ok () ∧
      Adds backing ticket submission.bytes world
        (submit mmu submission.hooks submission.bytes world).2 := by
  have served := prompt.serve_ok several ticket world.env
  obtain ⟨returned, next, _⟩ := clean.submit_served mmu prompt.fits small served
  have below := ticketSlot_lt backing ticket
  have padded := paddedEntry_eq prompt.fits.2
  have filled : ∀ claimed : QueueWorld N Env,
      backing.slotBytes (claimed.fill mmu backing submission.bytes
        (ticketSlot backing ticket)).memory (ticketSlot backing ticket) =
        backing.entryOf submission.bytes := by
    intro claimed
    rw [QueueWorld.fill_slotBytes mapped submission.bytes below, padded]
    rfl
  refine ⟨returned, next, ?_, ?_, ?_, ?_⟩
  all_goals
    rw [clean.submit_eq mmu prompt.fits (by omega)]
    simp only [served]
  · rw [← tailAfter_ticketSlot, ← filled { world with queue := { world.queue with
      claim := wrappingAdd ticket 1 } }]
    rfl
  · rw [← ticketSlot_eq]
    exact filled _
  · intro slot apart
    rw [← ticketSlot_eq] at apart
    exact QueueWorld.fill_slotBytes_apart mapped submission.bytes below apart _
  · intro slot far
    have apart : slot ≠ ticketSlot backing ticket := by omega
    simp [apart]

/-- What a run of prompt submits comes to, the tickets counted from `ticket`. -/
structure RanFrom (backing : CommandQueueBacking) (ticket : Nat) (run : List (Submission Env))
    (before : QueueWorld N Env) (result : List (Except Error Unit) × QueueWorld N Env) : Prop where
  returned : result.1 = List.replicate run.length (.ok ())
  clean : Clean backing (ticket + run.length) result.2
  events : result.2.events = before.events ++ run.mapIdx fun index submission =>
    .publish (((ticket + index + 1) % backing.entryCount) * backing.entryBytes)
      (backing.entryOf submission.bytes)
  written : ∀ index submission, run[index]? = some submission →
    (∀ later, index < later → later < run.length →
      (ticket + later) % backing.entryCount ≠ (ticket + index) % backing.entryCount) →
    backing.slotBytes result.2.memory ((ticket + index) % backing.entryCount) =
      backing.entryOf submission.bytes
  untouched : ∀ slot, (∀ index < run.length, (ticket + index) % backing.entryCount ≠ slot) →
    backing.slotBytes result.2.memory slot = backing.slotBytes before.memory slot
  beyond : ∀ slot, backing.entryCount ≤ slot →
    result.2.queue.slotState slot = before.queue.slotState slot

theorem Submission.Prompt.run_from (mapped : backing.Mapped mmu) (several : 2 ≤ backing.entryCount)
    {run : List (Submission Env)} (prompt : ∀ submission ∈ run, submission.Prompt backing head)
    (clean : Clean backing ticket world) (small : ticket + run.length < limit) :
    RanFrom backing ticket run world (runSubmissions mmu run world) := by
  induction run generalizing ticket world with
  | nil => exact ⟨rfl, clean, by simp [runSubmissions], by simp, fun _ _ => rfl, fun _ _ => rfl⟩
  | cons submission rest ih =>
      rw [List.length_cons] at small
      obtain ⟨returned, adds⟩ := (prompt submission List.mem_cons_self).submit_adds mmu mapped several
        clean (by omega)
      have later := ih (fun other member => prompt other (List.mem_cons_of_mem _ member)) adds.clean
        (by omega)
      have shifted : ∀ index, ticket + 1 + index = ticket + (index + 1) := by omega
      rw [runSubmissions_cons]
      constructor
      · rw [returned, later.returned, List.length_cons, List.replicate_succ]
      · rw [List.length_cons, ← shifted]
        exact later.clean
      · rw [later.events, adds.events, List.append_assoc, List.mapIdx_cons]
        simp only [shifted]
        rfl
      · intro index other found last
        cases index with
        | zero =>
            obtain rfl := Option.some.inj found
            rw [later.untouched _ ?_, Nat.add_zero, adds.written]
            intro index below
            rw [shifted]
            exact last (index + 1) (Nat.succ_pos _) (Nat.succ_lt_succ below)
        | succ index =>
            rw [← shifted]
            apply later.written index other found
            intro others before below
            rw [shifted, shifted]
            exact last (others + 1) (Nat.succ_lt_succ before) (Nat.succ_lt_succ below)
      · intro slot apart
        rw [later.untouched slot, adds.kept slot]
        · exact (apart 0 (Nat.succ_pos _)).symm
        · intro index below
          rw [shifted]
          exact apart (index + 1) (Nat.succ_lt_succ below)
      · intro slot far
        rw [later.beyond slot far, adds.beyond slot far]

theorem runSubmissions_claims (active : world.queue.backing = some backing)
    {run : List (Submission Env)} (fits : ∀ submission ∈ run, WidthFits backing submission.bytes)
    (bounded : world.queue.claim < limit) :
    (runSubmissions mmu run world).2.queue.claim = (world.queue.claim + run.length) % limit := by
  induction run generalizing world with
  | nil => exact (Nat.mod_eq_of_lt bounded).symm
  | cons submission rest ih =>
      obtain ⟨still, claimed⟩ := submit_claims mmu submission active
      rw [if_pos (fits submission List.mem_cons_self)] at claimed
      have positive : 0 < limit := by decide
      have wrapped : wrappingAdd world.queue.claim 1 < limit := Nat.mod_lt _ positive
      rw [← claimed] at wrapped
      have later := ih still (fun other member => fits other (List.mem_cons_of_mem _ member)) wrapped
      have together : world.queue.claim + 1 + rest.length = world.queue.claim + (rest.length + 1) := by
        omega
      rw [claimed, wrappingAdd, Nat.mod_add_mod, together] at later
      exact later

end Runs

/-- Fewer than 2^64 prompt submits on a new ring all return, write their tails in order, leave the last
entry of each slot in it, and leave the counters at their number and the slots empty. -/
theorem sequential_run (mmu : Translation) {backing : CommandQueueBacking} {fresh queue : CommandQueue N}
    (ready : fresh.init backing = .ok queue) (mapped : backing.Mapped mmu)
    (several : 2 ≤ backing.entryCount) {head : Env → Nat} (run : List (Submission Env))
    (prompt : ∀ submission ∈ run, submission.Prompt backing head) (few : run.length < limit)
    (memory : Memory) (env : Env) :
    RanFrom backing 0 run ⟨queue, memory, env, []⟩ (runSubmissions mmu run ⟨queue, memory, env, []⟩) ∧
      ∀ slot, fresh.slotState slot = .empty →
        (runSubmissions mmu run ⟨queue, memory, env, []⟩).2.queue.slotState slot = .empty := by
  have ran := Submission.Prompt.run_from mmu mapped several prompt
    (Clean.initial ready memory env []) (by omega)
  refine ⟨ran, fun slot empty => ?_⟩
  by_cases inside : slot < backing.entryCount
  · exact ran.clean.slots slot inside
  · rw [ran.beyond slot (Nat.le_of_not_lt inside)]
    rw [CommandQueue.init] at ready
    split at ready
    · cases ready
    · cases ready
      simp [inside, empty]

section TwoEntries

def freshWorld : QueueWorld 2 Nat := ⟨CommandQueue.ready twoEntryRing, fun _ => 0, 0, []⟩

theorem sequential_run_three_laps :
    RanFrom twoEntryRing 0 (List.replicate 6 promptSubmission) freshWorld
      (runSubmissions id (List.replicate 6 promptSubmission) freshWorld) :=
  (sequential_run id (init_new (show twoEntryRing.entryCount ≤ 2 by decide))
    (smallRing_mapped 1 (by decide)) (by decide) (List.replicate 6 promptSubmission)
    (fun _ member => List.eq_of_mem_replicate member ▸ promptSubmission_prompt) (by decide)
    (fun _ => 0) 0).1

/-- After 2^64 submits the claim counter is back at zero. -/
theorem sequential_run_wraps :
    (∀ submission ∈ List.replicate limit promptSubmission, submission.Prompt twoEntryRing id) ∧
      (runSubmissions id (List.replicate limit promptSubmission) freshWorld).2.queue.claim = 0 ∧
      ¬RanFrom twoEntryRing 0 (List.replicate limit promptSubmission) freshWorld
        (runSubmissions id (List.replicate limit promptSubmission) freshWorld) := by
  have prompt : ∀ submission ∈ List.replicate limit promptSubmission,
      submission.Prompt twoEntryRing id :=
    fun _ member => List.eq_of_mem_replicate member ▸ promptSubmission_prompt
  have active : freshWorld.queue.backing = some twoEntryRing := rfl
  have start : freshWorld.queue.claim = 0 := rfl
  have positive : 0 < limit := by decide
  have claimed := runSubmissions_claims id active
    (fun submission member => (prompt submission member).fits) (start ▸ positive)
  rw [start, Nat.zero_add, List.length_replicate, Nat.mod_self] at claimed
  refine ⟨prompt, claimed, fun ran => ?_⟩
  have counted := ran.clean.claim
  rw [claimed, Nat.zero_add, List.length_replicate] at counted
  exact Nat.ne_of_lt positive counted

end TwoEntries

end Iommu
