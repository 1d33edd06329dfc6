import Iommu.Queue.SubmitOutcome

/-!
Submits one after the other, some of which fail: what a failed submit leaves
behind, and when the submits after it can still succeed.
-/

namespace Iommu

open MachineWord Memory CommandQueue

variable {N : Nat} {Env : Type}

structure Submission (Env : Type) where
  bytes : List UInt8
  hooks : QueueHooks Env

def runSubmissions (mmu : Translation) : List (Submission Env) → QueueWorld N Env →
    List (Except Error Unit) × QueueWorld N Env
  | [], world => ([], world)
  | submission :: rest, world =>
      let (outcome, after) := submit mmu submission.hooks submission.bytes world
      let (outcomes, final) := runSubmissions mmu rest after
      (outcome :: outcomes, final)

def serveAll (backing : CommandQueueBacking) : Nat → List (Submission Env) → Effect Env Error Unit
  | _, [] => pure ()
  | ticket, submission :: rest =>
      if WidthFits backing submission.bytes then do
        serve submission.hooks backing (ticketSlot backing ticket)
        serveAll backing (ticket + 1) rest
      else serveAll backing ticket rest

/-- The hardware consumes each descriptor as soon as its tail is written, and no closure fails. -/
structure Submission.Prompt (backing : CommandQueueBacking) (head : Env → Nat)
    (submission : Submission Env) : Prop where
  fits : WidthFits backing submission.bytes
  consumes : ∀ tail env, head (submission.hooks.writeTail tail env) = tail
  reads : ∀ env, (submission.hooks.readHead env).1 = .ok (head env)
  checks : ∀ env, (submission.hooks.checkError env).1 = .ok ()

def writtenTail (events : List Event) : Nat :=
  (events.filterMap fun
    | .publish tail _ => some tail
    | .store _ _ => none).getLast?.getD 0

structure Clean (backing : CommandQueueBacking) (ticket : Nat) (world : QueueWorld N Env) :
    Prop where
  active : world.queue.backing = some backing
  claim : world.queue.claim = ticket
  committed : world.queue.committed = ticket
  retired : world.queue.retired = ticket
  slots : ∀ slot < backing.entryCount, world.queue.slotState slot = .empty

/-- A slot nobody is going to give back. -/
structure Leaked (backing : CommandQueueBacking) (slot : Nat) (world : QueueWorld N Env) :
    Prop where
  active : world.queue.backing = some backing
  taken : world.queue.slotState slot ≠ .empty

variable (mmu : Translation) {backing : CommandQueueBacking} {submission : Submission Env}
  {ticket slot : Nat} {world : QueueWorld N Env}

namespace Clean

theorem submit_eq (clean : Clean backing ticket world) (fits : WidthFits backing submission.bytes)
    (small : ticket < limit) :
    submit mmu submission.hooks submission.bytes world =
      let served := serve submission.hooks backing (ticketSlot backing ticket) world.env
      let claimed := { world with queue := { world.queue with claim := wrappingAdd ticket 1 } }
      let published := { (claimed.fill mmu backing submission.bytes (ticketSlot backing ticket)).publish
        backing ticket with env := served.2 }
      match served.1 with
      | .ok () => (.ok (), published.retire backing ticket)
      | .error error => (.error error, published) := by
  obtain ⟨active, claim, committed, retired, slots⟩ := clean
  rw [submit_of_fits active fits, claim]
  apply submitTicket_of_clear
  · have level : wrappingSub ticket ticket = 0 := by
      rw [wrappingSub_of_le (Nat.le_refl _) small, Nat.sub_self]
    simpa only [retired, level] using backing.entryCount_pos
  · exact slots _ (ticketSlot_lt backing ticket)
  · exact committed

theorem submit_served (clean : Clean backing ticket world)
    (fits : WidthFits backing submission.bytes) (small : ticket + 1 < limit)
    (served : (serve submission.hooks backing (ticketSlot backing ticket) world.env).1 = .ok ()) :
    (submit mmu submission.hooks submission.bytes world).1 = .ok () ∧
      Clean backing (ticket + 1) (submit mmu submission.hooks submission.bytes world).2 ∧
      (submit mmu submission.hooks submission.bytes world).2.env =
        (serve submission.hooks backing (ticketSlot backing ticket) world.env).2 := by
  have next := wrappingAdd_of_lt small
  rw [clean.submit_eq mmu fits (by omega)]
  simp only [served]
  refine ⟨trivial, ⟨?_, ?_, ?_, ?_, ?_⟩, ?_⟩
  · simpa using clean.active
  · simpa using next
  · simpa using next
  · simp [clean.retired, next]
  · intro slot below
    have empty := clean.slots slot below
    by_cases own : slot = ticketSlot backing ticket
    · simp [own]
    · simp [own, empty]
  · rfl

theorem submit_unserved (clean : Clean backing ticket world)
    (fits : WidthFits backing submission.bytes) (small : ticket + 1 < limit) {error : Error}
    (failed : (serve submission.hooks backing (ticketSlot backing ticket) world.env).1 =
      .error error) :
    Leaked backing (ticketSlot backing ticket)
        (submit mmu submission.hooks submission.bytes world).2 ∧
      (submit mmu submission.hooks submission.bytes world).2.queue.claim = ticket + 1 := by
  have next := wrappingAdd_of_lt small
  rw [clean.submit_eq mmu fits (by omega)]
  simp only [failed]
  refine ⟨⟨?_, ?_⟩, ?_⟩
  · simpa using clean.active
  · simp
  · simpa using next

end Clean

theorem submit_claims (submission : Submission Env) (active : world.queue.backing = some backing) :
    (submit mmu submission.hooks submission.bytes world).2.queue.backing = some backing ∧
      (submit mmu submission.hooks submission.bytes world).2.queue.claim =
        if WidthFits backing submission.bytes then wrappingAdd world.queue.claim 1
        else world.queue.claim := by
  by_cases fits : WidthFits backing submission.bytes
  · rw [submit_of_fits active fits, if_pos fits]
    rcases submitTicket_cases mmu submission.hooks backing submission.bytes world.queue.claim
      { world with queue := { world.queue with claim := wrappingAdd world.queue.claim 1 } }
      with refused | ⟨empty, filled | ⟨env, ⟨error, failed⟩ | returned⟩⟩
    · rw [refused]
      exact ⟨active, rfl⟩
    · rw [filled]
      exact ⟨active, rfl⟩
    · rw [failed]
      exact ⟨active, rfl⟩
    · rw [returned]
      exact ⟨active, rfl⟩
  · rw [submit_of_unfit active fits, if_neg fits]
    exact ⟨active, rfl⟩

namespace Leaked

theorem submit_keeps (submission : Submission Env) (leaked : Leaked backing slot world) :
    Leaked backing slot (submit mmu submission.hooks submission.bytes world).2 := by
  by_cases fits : WidthFits backing submission.bytes
  · rw [submit_of_fits leaked.active fits]
    rcases submitTicket_cases mmu submission.hooks backing submission.bytes world.queue.claim
      { world with queue := { world.queue with claim := wrappingAdd world.queue.claim 1 } }
      with refused | ⟨empty, filled | ⟨env, ⟨error, failed⟩ | returned⟩⟩
    · rw [refused]
      exact ⟨leaked.active, leaked.taken⟩
    all_goals
      have apart : slot ≠ ticketSlot backing world.queue.claim := by
        rintro rfl
        exact leaked.taken empty
    · rw [filled]
      exact ⟨leaked.active, by simpa [apart] using leaked.taken⟩
    · rw [failed]
      exact ⟨leaked.active, by simpa [apart] using leaked.taken⟩
    · rw [returned]
      exact ⟨leaked.active, by simpa [apart] using leaked.taken⟩
  · rw [submit_of_unfit leaked.active fits]
    exact leaked

theorem submit_fails (leaked : Leaked backing (ticketSlot backing world.queue.claim) world)
    (fits : WidthFits backing submission.bytes) :
    (submit mmu submission.hooks submission.bytes world).1 = .error .controllerUnavailable := by
  rw [submit_of_fits leaked.active fits]
  rcases submitTicket_cases mmu submission.hooks backing submission.bytes world.queue.claim
    { world with queue := { world.queue with claim := wrappingAdd world.queue.claim 1 } }
    with refused | ⟨empty, _⟩
  · rw [refused]
  · exact absurd empty leaked.taken

end Leaked

theorem runSubmissions_cons (rest : List (Submission Env)) :
    runSubmissions mmu (submission :: rest) world =
      ((submit mmu submission.hooks submission.bytes world).1 ::
        (runSubmissions mmu rest (submit mmu submission.hooks submission.bytes world).2).1,
        (runSubmissions mmu rest (submit mmu submission.hooks submission.bytes world).2).2) := rfl

theorem Clean.run_served (clean : Clean backing ticket world) (history : List (Submission Env))
    (small : ticket + history.length < limit)
    (served : (serveAll backing ticket history world.env).1 = .ok ()) :
    ∃ reached ≤ ticket + history.length,
      Clean backing reached (runSubmissions mmu history world).2 := by
  induction history generalizing ticket world with
  | nil => exact ⟨ticket, Nat.le_refl _, clean⟩
  | cons submission rest ih =>
      rw [List.length_cons] at small ⊢
      rw [runSubmissions_cons]
      by_cases fits : WidthFits backing submission.bytes
      · rw [serveAll, if_pos fits, Effect.bind_apply] at served
        rcases ran : serve submission.hooks backing (ticketSlot backing ticket) world.env with
          ⟨outcome, env⟩
        rw [ran] at served
        cases outcome with
        | error error => contradiction
        | ok value =>
            obtain ⟨_, next, captured⟩ := clean.submit_served mmu fits (by omega)
              (by rw [ran])
            rw [ran] at captured
            obtain ⟨reached, bound, final⟩ := ih next (by omega) (by rw [captured]; exact served)
            exact ⟨reached, by omega, final⟩
      · rw [serveAll, if_neg fits] at served
        rw [submit_of_unfit clean.active fits]
        obtain ⟨reached, bound, final⟩ := ih clean (by omega) served
        exact ⟨reached, by omega, final⟩

theorem Leaked.run_keeps (leaked : Leaked backing slot world) (history : List (Submission Env)) :
    Leaked backing slot (runSubmissions mmu history world).2 := by
  induction history generalizing world with
  | nil => exact leaked
  | cons submission rest ih =>
      rw [runSubmissions_cons]
      exact ih (leaked.submit_keeps mmu submission)

theorem Leaked.run_claim_le (leaked : Leaked backing slot world) (history : List (Submission Env))
    (small : world.queue.claim + history.length < limit) :
    (runSubmissions mmu history world).2.queue.claim ≤ world.queue.claim + history.length := by
  induction history generalizing world with
  | nil => exact Nat.le_refl _
  | cons submission rest ih =>
      rw [List.length_cons] at small ⊢
      rw [runSubmissions_cons]
      have claimed := (submit_claims mmu submission leaked.active).2
      rw [wrappingAdd_of_lt (by omega)] at claimed
      have bounded : (submit mmu submission.hooks submission.bytes world).2.queue.claim ≤
          world.queue.claim + 1 := by
        rw [claimed]
        split
        all_goals omega
      have final := ih (leaked.submit_keeps mmu submission) (by omega)
      dsimp only
      omega

theorem Clean.run_unserved (clean : Clean backing ticket world) (history : List (Submission Env))
    (small : ticket + history.length < limit) {error : Error}
    (failed : (serveAll backing ticket history world.env).1 = .error error) :
    (∃ slot < backing.entryCount, Leaked backing slot (runSubmissions mmu history world).2) ∧
      (runSubmissions mmu history world).2.queue.claim ≤ ticket + history.length := by
  induction history generalizing ticket world with
  | nil => contradiction
  | cons submission rest ih =>
      rw [List.length_cons] at small ⊢
      rw [runSubmissions_cons]
      by_cases fits : WidthFits backing submission.bytes
      · rw [serveAll, if_pos fits, Effect.bind_apply] at failed
        rcases ran : serve submission.hooks backing (ticketSlot backing ticket) world.env with
          ⟨outcome, env⟩
        rw [ran] at failed
        cases outcome with
        | error error =>
            obtain ⟨leaked, claimed⟩ := clean.submit_unserved mmu fits (by omega)
              (congrArg Prod.fst ran)
            have bounded := leaked.run_claim_le mmu rest (by rw [claimed]; omega)
            refine ⟨⟨_, ticketSlot_lt backing ticket, leaked.run_keeps mmu rest⟩, ?_⟩
            dsimp only
            omega
        | ok value =>
            obtain ⟨_, next, captured⟩ := clean.submit_served mmu fits (by omega)
              (congrArg Prod.fst ran)
            rw [ran] at captured
            obtain ⟨leaked, bounded⟩ := ih next (by omega) (by rw [captured]; exact failed)
            exact ⟨leaked, by dsimp only; omega⟩
      · rw [serveAll, if_neg fits] at failed
        rw [submit_of_unfit clean.active fits]
        obtain ⟨leaked, bounded⟩ := ih clean (by omega) failed
        exact ⟨leaked, by dsimp only; omega⟩

namespace Submission.Prompt

variable {head : Env → Nat}

theorem serve_ok (prompt : submission.Prompt backing head) (several : 2 ≤ backing.entryCount)
    (ticket : Nat) (env : Env) :
    (serve submission.hooks backing (ticketSlot backing ticket) env).1 = .ok () := by
  obtain ⟨fits, consumes, reads, checks⟩ := prompt
  have left : tailAfter backing (ticketSlot backing ticket) / backing.entryBytes ≠
      ticketSlot backing ticket := by
    rw [tailAfter_ticketSlot, Nat.mul_div_cancel _ backing.entryBytes_pos, ticketSlot_eq]
    intro same
    have apart : (ticket + 1 - ticket) % backing.entryCount = 0 :=
      Nat.sub_mod_eq_zero_of_mod_eq same
    rw [Nat.add_sub_cancel_left, Nat.mod_eq_of_lt (by omega)] at apart
    contradiction
  rw [serve, Effect.bind_of_ok (Effect.modify_apply _ _)]
  rcases read : submission.hooks.readHead
    (submission.hooks.writeTail (tailAfter backing (ticketSlot backing ticket)) env) with
    ⟨outcome, after⟩
  have shown := reads (submission.hooks.writeTail (tailAfter backing (ticketSlot backing ticket)) env)
  rw [read, consumes] at shown
  have sampled : headLeft submission.hooks (ticketSlot backing ticket) backing.entryBytes
      (submission.hooks.writeTail (tailAfter backing (ticketSlot backing ticket)) env) =
        (.ok true, after) := by
    rw [headLeft, Effect.bind_of_ok (read.trans (congrArg (·, after) shown)), Effect.pure_apply]
    simp [left]
  rw [Effect.bind_of_ok (Effect.poll_of_first pollLimit_pos sampled)]
  exact checks after

theorem run_ok {later : List (Submission Env)}
    (prompt : ∀ submission ∈ later, submission.Prompt backing head)
    (several : 2 ≤ backing.entryCount) (clean : Clean backing ticket world)
    (small : ticket + later.length < limit) :
    ∀ outcome ∈ (runSubmissions mmu later world).1, outcome = .ok () := by
  induction later generalizing ticket world with
  | nil => simp [runSubmissions]
  | cons submission rest ih =>
      rw [List.length_cons] at small
      have first := prompt submission List.mem_cons_self
      obtain ⟨returned, next, _⟩ := clean.submit_served mmu first.fits (by omega)
        (first.serve_ok several ticket world.env)
      rw [runSubmissions_cons, returned]
      intro outcome member
      rcases List.mem_cons.mp member with rfl | member
      · rfl
      · exact ih (fun later member => prompt later (List.mem_cons_of_mem _ member)) next (by omega)
          outcome member

theorem run_fails (prompt : submission.Prompt backing head) {distance : Nat}
    (leaked : Leaked backing (ticketSlot backing (world.queue.claim + distance)) world)
    (small : world.queue.claim + distance < limit) :
    .error .controllerUnavailable ∈
      (runSubmissions mmu (List.replicate (distance + 1) submission) world).1 := by
  induction distance generalizing world with
  | zero =>
      rw [List.replicate_succ, runSubmissions_cons, leaked.submit_fails mmu prompt.fits]
      exact List.mem_cons_self
  | succ distance ih =>
      have claimed := (submit_claims mmu submission leaked.active).2
      rw [if_pos prompt.fits, wrappingAdd_of_lt (by omega)] at claimed
      have moved : world.queue.claim + (distance + 1) =
          (submit mmu submission.hooks submission.bytes world).2.queue.claim + distance := by
        rw [claimed]
        omega
      rw [List.replicate_succ, runSubmissions_cons]
      apply List.mem_cons_of_mem
      rw [moved] at leaked small
      exact ih (leaked.submit_keeps mmu submission) small

end Submission.Prompt

theorem Clean.initial {fresh queue : CommandQueue N} (ready : fresh.init backing = .ok queue)
    (memory : Memory) (env : Env) (events : List Event) :
    Clean backing 0 (⟨queue, memory, env, events⟩ : QueueWorld N Env) := by
  rw [CommandQueue.init] at ready
  split at ready
  · contradiction
  · obtain rfl := Except.ok.inj ready
    exact ⟨rfl, rfl, rfl, rfl, fun slot below => if_pos below⟩

theorem Leaked.run_fails {head : Env → Nat} (leaked : Leaked backing slot world)
    (below : slot < backing.entryCount) (prompt : submission.Prompt backing head)
    (small : world.queue.claim + backing.entryCount < limit) :
    ∃ count ≤ backing.entryCount,
      .error .controllerUnavailable ∈
        (runSubmissions mmu (List.replicate count submission) world).1 := by
  have positive := backing.entryCount_pos
  let distance := (slot + (backing.entryCount - world.queue.claim % backing.entryCount)) %
    backing.entryCount
  have near : distance < backing.entryCount := Nat.mod_lt _ positive
  have reaches : ticketSlot backing (world.queue.claim + distance) = slot := by
    have position := Nat.mod_lt world.queue.claim positive
    have whole : world.queue.claim % backing.entryCount +
        (slot + (backing.entryCount - world.queue.claim % backing.entryCount)) =
          slot + backing.entryCount := by omega
    rw [ticketSlot_eq, Nat.add_mod_mod, ← Nat.mod_add_mod, whole, Nat.add_mod_right,
      Nat.mod_eq_of_lt below]
  exact ⟨distance + 1, near, prompt.run_fails mmu (reaches ▸ leaked) (by omega)⟩

/-- Once the hardware has caught up with the tail a history left, all prompt submits return Ok
exactly when the closures served every submission of the history. -/
theorem prompt_submits_succeed_iff {fresh queue : CommandQueue N}
    (ready : fresh.init backing = .ok queue) (several : 2 ≤ backing.entryCount)
    {head : Env → Nat} (prompt : submission.Prompt backing head)
    {history : List (Submission Env)} (small : history.length + backing.entryCount < limit)
    (memory : Memory) (env : Env) :
    (∀ (caughtUp : Env) (later : List (Submission Env)),
      head caughtUp = writtenTail (runSubmissions mmu history ⟨queue, memory, env, []⟩).2.events →
        history.length + later.length < limit →
          (∀ submission ∈ later, submission.Prompt backing head) →
            ∀ outcome ∈ (runSubmissions mmu later
              { (runSubmissions mmu history ⟨queue, memory, env, []⟩).2 with env := caughtUp }).1,
              outcome = .ok ()) ↔
      (serveAll backing 0 history env).1 = .ok () := by
  have clean := Clean.initial ready memory env []
  constructor
  · intro succeed
    rcases served : serveAll backing 0 history env with ⟨outcome, after⟩
    cases outcome with
    | ok value => rfl
    | error error =>
        obtain ⟨⟨slot, below, leaked⟩, bounded⟩ := clean.run_unserved mmu history
          (by omega) (congrArg Prod.fst served)
        let final := (runSubmissions mmu history ⟨queue, memory, env, []⟩).2
        let caughtUp := submission.hooks.writeTail (writtenTail final.events) env
        have still : Leaked backing slot { final with env := caughtUp } :=
          ⟨leaked.active, leaked.taken⟩
        obtain ⟨count, near, failed⟩ := still.run_fails mmu below prompt
          (by dsimp only [final]; omega)
        have returned := succeed caughtUp (List.replicate count submission)
          (prompt.consumes _ _) (by rw [List.length_replicate]; omega)
          (fun other member => List.eq_of_mem_replicate member ▸ prompt) _ failed
        contradiction
  · intro served caughtUp later _ few prompts
    obtain ⟨reached, bound, final⟩ := clean.run_served mmu history
      (by omega) served
    have still : Clean backing reached
        { (runSubmissions mmu history ⟨queue, memory, env, []⟩).2 with env := caughtUp } :=
      ⟨final.active, final.claim, final.committed, final.retired, final.slots⟩
    exact Submission.Prompt.run_ok mmu prompts several still (by omega)

section SmallRings

def followingHooks : QueueHooks Nat where
  readHead := .get id
  writeTail := fun tail _ => tail
  checkError := pure ()

def promptSubmission : Submission Nat := ⟨List.replicate 8 1, followingHooks⟩

def unreadableSubmission : Submission Nat :=
  ⟨List.replicate 8 1, { followingHooks with readHead := .fail .controllerUnavailable }⟩

theorem promptSubmission_prompt : promptSubmission.Prompt twoEntryRing id :=
  ⟨by decide, fun _ _ => rfl, fun _ => rfl, fun _ => rfl⟩

def afterSubmissions (history : List (Submission Nat)) : QueueWorld 2 Nat :=
  (runSubmissions id history ⟨CommandQueue.ready twoEntryRing, fun _ => 0, 0, []⟩).2

theorem promptSubmission_keeps_succeeding : ∃ caughtUp : Nat,
    caughtUp = writtenTail (afterSubmissions [promptSubmission]).events ∧
      ∀ outcome ∈ (runSubmissions id (List.replicate 3 promptSubmission)
        { afterSubmissions [promptSubmission] with env := caughtUp }).1, outcome = .ok () := by
  have served : (serveAll twoEntryRing 0 [promptSubmission] 0).1 = .ok () := rfl
  have ready := init_new (show twoEntryRing.entryCount ≤ 2 by decide)
  have succeed := (prompt_submits_succeed_iff id ready (by decide) promptSubmission_prompt
    (by decide) (fun _ => 0) 0).mpr served
  exact ⟨_, rfl, succeed _ _ rfl (by decide)
    fun other member => List.eq_of_mem_replicate member ▸ promptSubmission_prompt⟩

theorem unreadable_head_poisons_ring :
    (afterSubmissions [unreadableSubmission]).env =
        writtenTail (afterSubmissions [unreadableSubmission]).events ∧
      ∃ later : List (Submission Nat), later.length ≤ 2 ∧
        (∀ submission ∈ later, submission.Prompt twoEntryRing id) ∧
          .error .controllerUnavailable ∈
            (runSubmissions id later (afterSubmissions [unreadableSubmission])).1 := by
  have clean := Clean.initial (init_new (show twoEntryRing.entryCount ≤ 2 by decide))
    (fun _ => 0) 0 []
  have failed : (serve unreadableSubmission.hooks twoEntryRing (ticketSlot twoEntryRing 0) 0).1 =
      .error .controllerUnavailable := rfl
  obtain ⟨leaked, claimed⟩ := clean.submit_unserved id
    (show WidthFits twoEntryRing unreadableSubmission.bytes by decide) (by decide) failed
  obtain ⟨count, near, refused⟩ := leaked.run_fails id (ticketSlot_lt twoEntryRing 0)
    promptSubmission_prompt (by rw [claimed]; decide)
  refine ⟨rfl, List.replicate count promptSubmission, ?_, ?_, refused⟩
  · rw [List.length_replicate]
    exact near
  · exact fun other member => List.eq_of_mem_replicate member ▸ promptSubmission_prompt

end SmallRings

end Iommu
