import Iommu.Library.Effect
import Iommu.Library.Parsing

/-!
Loops that hand what they find to a visitor, and iterators of results. What a loop
finds does not depend on its visitor, so a loop is a visit of its transcript.
-/

/-- What one round of a loop comes to: its end, or an item or none with the state to go on from. -/
inductive Round (Failure Item State : Type)
  | done
  | next (item : Option Item) (after : Parse Failure State)

section Walks

variable {World State Item Failure : Type}

def visitEach (visit : Item → Effect World (Stop Failure) Unit) :
    List Item → Effect World (Stop Failure) Unit
  | [] => pure ()
  | item :: rest => do
      visit item
      visitEach visit rest

def visitAll (visit : Item → Effect World (Stop Failure) Unit)
    (found : List Item × Parse Failure Unit) : Effect World (Stop Failure) Unit := do
  visitEach visit found.1
  .ofExcept found.2

/-- The loop, with a bound on its rounds. -/
def walk (round : State → Parse Failure (Round Failure Item State))
    (visit : Item → Effect World (Stop Failure) Unit) :
    Nat → State → Effect World (Stop Failure) Unit
  | 0, _ => .fail .diverged
  | rounds + 1, state => do
      match ← .ofExcept (round state) with
      | .done => pure ()
      | .next item after => do
          visitEach visit item.toList
          let state ← .ofExcept after
          walk round visit rounds state

/-- The items of a loop in order, and how it ends when no visitor stops it. -/
def transcript (round : State → Parse Failure (Round Failure Item State)) :
    Nat → State → List Item × Parse Failure Unit
  | 0, _ => ([], .error .diverged)
  | rounds + 1, state =>
      match round state with
      | .error stop => ([], .error stop)
      | .ok .done => ([], .ok ())
      | .ok (.next item (.error stop)) => (item.toList, .error stop)
      | .ok (.next item (.ok after)) =>
          let (items, outcome) := transcript round rounds after
          (item.toList ++ items, outcome)

theorem visitEach_append (visit : Item → Effect World (Stop Failure) Unit)
    (first second : List Item) (world : World) :
    visitEach visit (first ++ second) world =
      (visitEach visit first >>= fun _ => visitEach visit second) world := by
  induction first generalizing world with
  | nil => rfl
  | cons item rest ih =>
      rw [List.cons_append, visitEach, visitEach, Effect.bind_apply, Effect.bind_apply,
        Effect.bind_apply]
      rcases visit item world with ⟨outcome, after⟩
      cases outcome with
      | error stop => rfl
      | ok value => exact ih after

theorem visitAll_prepend (visit : Item → Effect World (Stop Failure) Unit) (items : List Item)
    (found : List Item × Parse Failure Unit) (world : World) :
    visitAll visit (items ++ found.1, found.2) world =
      (visitEach visit items >>= fun _ => visitAll visit found) world := by
  rw [visitAll, Effect.bind_apply, Effect.bind_apply, visitEach_append, Effect.bind_apply]
  rcases visitEach visit items world with ⟨outcome, after⟩
  cases outcome with
  | error stop => rfl
  | ok value => rfl

theorem visitAll_eq_ok {visit : Item → Effect World (Stop Failure) Unit}
    {found : List Item × Parse Failure Unit} {world final : World} :
    visitAll visit found world = (.ok (), final) ↔
      found.2 = .ok () ∧ visitEach visit found.1 world = (.ok (), final) := by
  rw [visitAll, Effect.bind_eq_ok]
  constructor
  · rintro ⟨_, middle, visited, ended⟩
    obtain ⟨outcome, rfl⟩ := Prod.mk.inj ended
    exact ⟨outcome, visited⟩
  · rintro ⟨outcome, visited⟩
    exact ⟨(), final, visited, Prod.ext outcome rfl⟩

theorem visitAll_of_ok {found : List Item × Parse Failure Unit} (ended : found.2 = .ok ())
    (visit : Item → Effect World (Stop Failure) Unit) (world : World) :
    visitAll visit found world = visitEach visit found.1 world := by
  rw [visitAll, Effect.bind_apply, ended]
  rcases visitEach visit found.1 world with ⟨outcome, after⟩
  cases outcome <;> rfl

theorem visitEach_total {visit : Item → Effect World (Stop Failure) Unit}
    (succeeds : ∀ item world, ∃ final, visit item world = (.ok (), final)) (items : List Item)
    (world : World) : ∃ final, visitEach visit items world = (.ok (), final) := by
  induction items generalizing world with
  | nil => exact ⟨world, rfl⟩
  | cons item rest ih =>
      obtain ⟨middle, visited⟩ := succeeds item world
      obtain ⟨final, others⟩ := ih middle
      refine ⟨final, ?_⟩
      rw [visitEach, Effect.bind_of_ok visited, others]

theorem visitEach_returns {visit : Item → Effect World (Stop Failure) Unit}
    (returns : ∀ item world, Parse.Returns (visit item world).1) (items : List Item) (world : World) :
    Parse.Returns (visitEach visit items world).1 := by
  induction items generalizing world with
  | nil => exact True.intro
  | cons item rest ih =>
      have returned := returns item world
      rw [visitEach, Effect.bind_apply]
      rcases visited : visit item world with ⟨outcome, after⟩
      rw [visited] at returned
      cases outcome with
      | error stop => exact returned.error
      | ok value => exact ih after

theorem visitAll_returns {visit : Item → Effect World (Stop Failure) Unit}
    {found : List Item × Parse Failure Unit}
    (returns : ∀ item world, Parse.Returns (visit item world).1) (ended : found.2.Returns)
    (world : World) : Parse.Returns (visitAll visit found world).1 := by
  have visits := visitEach_returns returns found.1 world
  rw [visitAll, Effect.bind_apply]
  rcases visited : visitEach visit found.1 world with ⟨outcome, after⟩
  rw [visited] at visits
  cases outcome with
  | error stop => exact visits.error
  | ok value => exact ended

/-- A loop visits its transcript. -/
theorem walk_eq_visitAll (round : State → Parse Failure (Round Failure Item State))
    (visit : Item → Effect World (Stop Failure) Unit) (rounds : Nat) (state : State) :
    walk round visit rounds state = visitAll visit (transcript round rounds state) := by
  induction rounds generalizing state with
  | zero => rfl
  | succ rounds ih =>
      funext world
      rw [walk, transcript, Effect.bind_apply, Effect.ofExcept_apply]
      match round state with
      | .error stop => rfl
      | .ok .done => rfl
      | .ok (.next item (.error stop)) =>
          simp only [visitAll, Effect.bind_apply, Effect.ofExcept_apply]
      | .ok (.next item (.ok after)) =>
          simp only [visitAll_prepend, ← ih, Effect.bind_apply, Effect.ofExcept_apply]

theorem transcript_next {round : State → Parse Failure (Round Failure Item State)} {rounds : Nat}
    {state after : State} {item : Option Item} (ran : round state = .ok (.next item (.ok after))) :
    transcript round (rounds + 1) state =
      (item.toList ++ (transcript round rounds after).1, (transcript round rounds after).2) := by
  rw [transcript, ran]

theorem transcript_failed {round : State → Parse Failure (Round Failure Item State)} {rounds : Nat}
    {state : State} {stop : Stop Failure} (ran : round state = .error stop) :
    transcript round (rounds + 1) state = ([], .error stop) := by
  rw [transcript, ran]

theorem transcript_done {round : State → Parse Failure (Round Failure Item State)} {rounds : Nat}
    {state : State} (ran : round state = .ok .done) :
    transcript round (rounds + 1) state = ([], .ok ()) := by
  rw [transcript, ran]

theorem transcript_returns {round : State → Parse Failure (Round Failure Item State)}
    (measure : State → Nat) (returns : ∀ state, (round state).Returns)
    (advances : ∀ state item after, round state = .ok (.next item after) →
      ∃ next, after = .ok next ∧ measure next < measure state)
    {rounds : Nat} {state : State} (enough : measure state < rounds) :
    (transcript round rounds state).2.Returns := by
  induction rounds generalizing state with
  | zero => omega
  | succ rounds ih =>
      rw [transcript]
      have returned := returns state
      match ran : round state with
      | .error stop =>
          rw [ran] at returned
          exact returned.error
      | .ok .done => exact .ok ()
      | .ok (.next item (.error stop)) =>
          obtain ⟨next, impossible, _⟩ := advances state item _ ran
          cases impossible
      | .ok (.next item (.ok after)) =>
          obtain ⟨next, same, less⟩ := advances state item _ ran
          cases same
          exact ih (Nat.lt_of_lt_of_le less (Nat.le_of_lt_succ enough))

/-- A loop whose rounds each leave less ends without trouble or with the failure of a round, however many
more rounds it is given than it needs. -/
theorem transcript_enough {round : State → Parse Failure (Round Failure Item State)}
    (measure : State → Nat)
    (advances : ∀ state item after, round state = .ok (.next item after) →
      ∃ next, after = .ok next ∧ measure next < measure state)
    {rounds more : Nat} {state : State} (enough : measure state < rounds)
    (others : measure state < more) :
    transcript round rounds state = transcript round more state ∧
      ((transcript round rounds state).2 = .ok () ∨
        ∃ last stop, round last = .error stop ∧ (transcript round rounds state).2 = .error stop) := by
  induction rounds generalizing state more with
  | zero => omega
  | succ rounds ih =>
      obtain ⟨fewer, rfl⟩ : ∃ fewer, more = fewer + 1 := ⟨more - 1, by omega⟩
      match ran : round state with
      | .error stop =>
          rw [transcript_failed ran, transcript_failed ran]
          exact ⟨rfl, Or.inr ⟨state, stop, ran, rfl⟩⟩
      | .ok .done =>
          rw [transcript_done ran, transcript_done ran]
          exact ⟨rfl, Or.inl rfl⟩
      | .ok (.next item after) =>
          obtain ⟨next, rfl, less⟩ := advances state item after ran
          have enoughNext : measure next < rounds := by omega
          have othersNext : measure next < fewer := by omega
          obtain ⟨same, ends⟩ := ih enoughNext othersNext
          rw [transcript_next ran, transcript_next ran, same]
          rw [same] at ends
          exact ⟨rfl, ends⟩

theorem transcript_failsWith {round : State → Parse Failure (Round Failure Item State)}
    {property : Failure → Prop} (rounds_fail : ∀ state, (round state).FailsWith property)
    (steps_fail : ∀ state item after, round state = .ok (.next item after) →
      after.FailsWith property) (rounds : Nat) (state : State) :
    (transcript round rounds state).2.FailsWith property := by
  induction rounds generalizing state with
  | zero =>
      rintro _ ⟨⟩
  | succ rounds ih =>
      rw [transcript]
      have failing := rounds_fail state
      match ran : round state with
      | .error stop =>
          rw [ran] at failing
          rintro failure ⟨⟩
          exact failing failure rfl
      | .ok .done => exact .ok ()
      | .ok (.next item (.error stop)) =>
          rintro failure ⟨⟩
          exact steps_fail state item _ ran failure rfl
      | .ok (.next item (.ok after)) => exact ih after

theorem mem_transcript {round : State → Parse Failure (Round Failure Item State)} {rounds : Nat}
    {state : State} {item : Item} (member : item ∈ (transcript round rounds state).1) :
    ∃ state after, round state = .ok (.next (some item) after) := by
  induction rounds generalizing state with
  | zero => simp [transcript] at member
  | succ rounds ih =>
      rw [transcript] at member
      match ran : round state with
      | .error stop => simp [ran] at member
      | .ok .done => simp [ran] at member
      | .ok (.next found (.error stop)) =>
          rw [ran] at member
          obtain rfl := Option.mem_toList.mp member
          exact ⟨state, _, ran⟩
      | .ok (.next found (.ok after)) =>
          rw [ran] at member
          rcases List.mem_append.mp member with here | later
          · obtain rfl := Option.mem_toList.mp here
            exact ⟨state, _, ran⟩
          · exact ih later

/-- An iterator run to its end; a failure is an item like another. -/
def drain (next : Effect State (Stop Failure) (Option Item)) :
    Nat → State → Parse Failure (List (Except Failure Item))
  | 0, _ => .error .diverged
  | rounds + 1, state =>
      match next state with
      | (.ok none, _) => .ok []
      | (.ok (some item), after) => do
          let rest ← drain next rounds after
          pure (.ok item :: rest)
      | (.error (.failed failure), after) => do
          let rest ← drain next rounds after
          pure (.error failure :: rest)
      | (.error stop, _) => .error stop

section Drains

variable {next : Effect State (Stop Failure) (Option Item)} {rounds : Nat} {state after : State}
  {items : List (Except Failure Item)}

theorem drain_done (ran : next state = (.ok none, after)) : drain next (rounds + 1) state = .ok [] := by
  rw [drain, ran]

theorem drain_item {item : Item} (ran : next state = (.ok (some item), after))
    (rest : drain next rounds after = .ok items) :
    drain next (rounds + 1) state = .ok (.ok item :: items) := by
  rw [drain, ran]
  exact Parse.bind_eq_ok.mpr ⟨items, rest, rfl⟩

theorem drain_failed {failure : Failure} (ran : next state = (.error (.failed failure), after))
    (rest : drain next rounds after = .ok items) :
    drain next (rounds + 1) state = .ok (.error failure :: items) := by
  rw [drain, ran]
  exact Parse.bind_eq_ok.mpr ⟨items, rest, rfl⟩

theorem drain_eq_nil (drained : drain next rounds state = .ok []) :
    ∃ after, next state = (.ok none, after) := by
  cases rounds with
  | zero => cases drained
  | succ rounds =>
      rw [drain] at drained
      split at drained
      · next ran => exact ⟨_, ran⟩
      · obtain ⟨_, _, built⟩ := Parse.bind_eq_ok.mp drained
        cases built
      · obtain ⟨_, _, built⟩ := Parse.bind_eq_ok.mp drained
        cases built
      · cases drained

theorem drain_eq_cons {item : Item} (drained : drain next rounds state = .ok (.ok item :: items)) :
    ∃ fewer after, next state = (.ok (some item), after) ∧ drain next fewer after = .ok items := by
  cases rounds with
  | zero => cases drained
  | succ rounds =>
      rw [drain] at drained
      split at drained
      · cases drained
      · next ran =>
        obtain ⟨_, rest, built⟩ := Parse.bind_eq_ok.mp drained
        cases built
        exact ⟨rounds, _, ran, rest⟩
      · obtain ⟨_, _, built⟩ := Parse.bind_eq_ok.mp drained
        cases built
      · cases drained

end Drains

def itemRound (next : Effect State (Stop Failure) (Option Item)) (state : State) :
    Parse Failure (Round Failure Item State) :=
  match next state with
  | (.ok none, _) => .ok .done
  | (.ok (some item), after) => .ok (.next (some item) (.ok after))
  | (.error stop, _) => .error stop

def untilFailure : List (Except Failure Item) → List Item × Parse Failure Unit
  | [] => ([], .ok ())
  | .ok item :: rest => (item :: (untilFailure rest).1, (untilFailure rest).2)
  | .error failure :: _ => ([], .fail failure)

def prepend (outcome : Except Failure Item) (found : List Item × Parse Failure Unit) :
    List Item × Parse Failure Unit :=
  match outcome with
  | .ok item => (item :: found.1, found.2)
  | .error failure => ([], .fail failure)

theorem untilFailure_cons (outcome : Except Failure Item) (rest : List (Except Failure Item)) :
    untilFailure (outcome :: rest) = prepend outcome (untilFailure rest) := by
  cases outcome <;> rfl

theorem untilFailure_eq_ok {outcomes : List (Except Failure Item)} {items : List Item} :
    untilFailure outcomes = (items, .ok ()) ↔ outcomes = items.map .ok := by
  induction outcomes generalizing items with
  | nil => cases items <;> simp [untilFailure]
  | cons outcome rest ih =>
      cases outcome with
      | error failure => cases items <;> simp [untilFailure, Parse.fail]
      | ok item =>
          cases items with
          | nil => simp [untilFailure]
          | cons first others =>
              rw [untilFailure, Prod.mk.injEq, List.cons.injEq, and_assoc, ← Prod.mk.injEq, ih]
              simp

/-- A loop over an iterator of results, with a bound on its rounds. A failure ends it, and the body may
leave it. -/
def forItems {Found : Type} (next : Effect State (Stop Failure) (Option Item))
    (body : Item → Found → Parse Failure (ForInStep Found)) :
    Nat → State → Found → Parse Failure Found
  | 0, _, _ => .error .diverged
  | rounds + 1, state, found =>
      match next state with
      | (.ok none, _) => .ok found
      | (.error stop, _) => .error stop
      | (.ok (some item), after) => do
          match ← body item found with
          | .done last => pure last
          | .yield last => forItems next body rounds after last

def onResult {Found : Type} (body : Item → Found → Parse Failure (ForInStep Found))
    (result : Except Failure Item) (found : Found) : Parse Failure (ForInStep Found) := do
  let item ← (result.mapError .failed : Parse Failure Item)
  body item found

theorem forItems_of_drain {Found : Type} {next : Effect State (Stop Failure) (Option Item)}
    {body : Item → Found → Parse Failure (ForInStep Found)} {rounds : Nat} {state : State}
    {items : List (Except Failure Item)} (drained : drain next rounds state = .ok items)
    (found : Found) :
    forItems next body rounds state found = forIn items found (onResult body) := by
  induction rounds generalizing state items found with
  | zero => simp [drain] at drained
  | succ rounds ih =>
      rw [drain] at drained
      rw [forItems]
      rcases ran : next state with ⟨outcome, after⟩
      rw [ran] at drained
      match outcome with
      | .ok none =>
          cases drained
          rfl
      | .ok (some item) =>
          obtain ⟨others, rest, built⟩ := Parse.bind_eq_ok.mp drained
          cases built
          simp only [ih rest]
          rw [List.forIn_cons]
          rfl
      | .error (.failed failure) =>
          obtain ⟨others, rest, built⟩ := Parse.bind_eq_ok.mp drained
          cases built
          rfl
      | .error .panicked => simp at drained
      | .error .diverged => simp at drained

theorem forIn_onResult {Found : Type} {body : Item → Found → Parse Failure (ForInStep Found)}
    (items : List Item) (found : Found) :
    forIn (items.map Except.ok) found (onResult body) = forIn items found body := by
  rw [List.forIn_map]
  rfl

theorem forIn_onResult_ensures {Found : Type} {body : Item → Found → Parse Failure (ForInStep Found)}
    {property : Found → Prop} {items : List (Except Failure Item)} {found : Found}
    (start : property found)
    (keeps : ∀ item, .ok item ∈ items → ∀ found, property found →
      (body item found).Ensures fun next => property next.value) :
    (forIn items found (onResult body)).Ensures property := by
  induction items generalizing found with
  | nil => exact .ok start
  | cons outcome rest ih =>
      rw [List.forIn_cons]
      cases outcome with
      | error failure => exact .fail failure
      | ok item =>
          refine .bind fun next ran => ?_
          have kept := keeps item (List.mem_cons_self ..) found start next ran
          cases next with
          | done last => exact .ok kept
          | yield last =>
              exact ih kept fun other member => keeps other (List.mem_cons_of_mem _ member)

theorem forIn_noting {Found : Type} {body : Item → Found → Parse Failure (ForInStep Found)}
    (note : Found → Item → Found) {items : List Item}
    (notes : ∀ item ∈ items, ∀ found, body item found = .ok (.yield (note found item)))
    (found : Found) : forIn items found body = .ok (items.foldl note found) := by
  induction items generalizing found with
  | nil => rfl
  | cons item rest ih =>
      obtain ⟨own, others⟩ := List.forall_mem_cons.mp notes
      rw [List.forIn_cons, own]
      exact ih others (note found item)

theorem foldl_or (property : Item → Bool) (items : List Item) (start : Bool) :
    items.foldl (fun found item => found || property item) start = (start || items.any property) := by
  induction items generalizing start with
  | nil => simp
  | cons item rest ih => rw [List.foldl_cons, ih, List.any_cons, Bool.or_assoc]

theorem foldl_last {Value : Type} (value : Item → Option Value) (items : List Item)
    (start : Option Value) :
    items.foldl (fun last item => (value item).or last) start =
      (items.filterMap value).getLast?.or start := by
  induction items generalizing start with
  | nil => rfl
  | cons item rest ih =>
      rw [List.foldl_cons, ih]
      cases found : value item with
      | none => simp [found]
      | some first =>
          rw [List.filterMap_cons_some found, List.getLast?_cons]
          cases (rest.filterMap value).getLast? <;> rfl

theorem forIn_find (accepts : Item → Bool) (items : List Item) :
    (forIn items none fun item found =>
      pure (if accepts item then ForInStep.done (some item) else ForInStep.yield found) :
      Parse Failure (Option Item)) = .ok (items.find? accepts) := by
  induction items with
  | nil => rfl
  | cons item rest ih =>
      rw [List.forIn_cons, List.find?_cons, pure_bind]
      cases accepted : accepts item with
      | true => rfl
      | false => exact ih

theorem transcript_of_drain {next : Effect State (Stop Failure) (Option Item)} {rounds : Nat}
    {state : State} {items : List (Except Failure Item)}
    (drained : drain next rounds state = .ok items) :
    transcript (itemRound next) rounds state = untilFailure items := by
  induction rounds generalizing state items with
  | zero => simp [drain] at drained
  | succ rounds ih =>
      rw [drain] at drained
      rw [transcript, itemRound]
      rcases ran : next state with ⟨outcome, after⟩
      rw [ran] at drained
      match outcome with
      | .ok none =>
          cases drained
          rfl
      | .ok (some item) =>
          obtain ⟨others, rest, built⟩ := Parse.bind_eq_ok.mp drained
          cases built
          simp only [ih rest, untilFailure]
          rfl
      | .error (.failed failure) =>
          obtain ⟨others, rest, built⟩ := Parse.bind_eq_ok.mp drained
          cases built
          rfl
      | .error .panicked => simp at drained
      | .error .diverged => simp at drained

end Walks

section Pairs

variable {First Second : Type} {relation : First → Second → Prop} {firsts : List First}
  {seconds : List Second}

theorem forall₂_iff_forall {property : First → Prop}
    (pointwise : List.Forall₂ (fun first second => relation first second ↔ property first) firsts
      seconds) :
    List.Forall₂ relation firsts seconds ↔ ∀ first ∈ firsts, property first := by
  induction pointwise with
  | nil => simp
  | cons one _ ih => rw [List.forall₂_cons, List.forall_mem_cons, one, ih]

theorem exists_of_forall₂ (related : List.Forall₂ relation firsts seconds) {second : Second}
    (member : second ∈ seconds) : ∃ first ∈ firsts, relation first second := by
  induction related with
  | nil => cases member
  | cons one _ ih =>
      rcases List.mem_cons.mp member with rfl | later
      · exact ⟨_, List.mem_cons_self .., one⟩
      · obtain ⟨first, among, found⟩ := ih later
        exact ⟨first, List.mem_cons_of_mem _ among, found⟩

end Pairs
