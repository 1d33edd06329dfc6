import Mathlib.Tactic.Common

/-!
Computations over a mutable state that may fail. A failure keeps the state
reached when it was raised, so that what an operation leaves behind on its error
paths can be stated and proved.
-/

/-- A state transformer that ends with a value or a failure. -/
def Effect (State Failure Value : Type) := State → Except Failure Value × State

namespace Effect

variable {State Inner Failure Outer Value Result : Type}

instance : Monad (Effect State Failure) where
  pure value := fun state => (.ok value, state)
  bind first next := fun state =>
    match first state with
    | (.ok value, after) => next value after
    | (.error failure, after) => (.error failure, after)

def fail (failure : Failure) : Effect State Failure Value := fun state => (.error failure, state)

def get (view : State → Value) : Effect State Failure Value := fun state => (.ok (view state), state)

def modify (change : State → State) : Effect State Failure Unit := fun state => (.ok (), change state)

def ofExcept (outcome : Except Failure Value) : Effect State Failure Value :=
  fun state => (outcome, state)

def within (view : State → Inner) (replace : State → Inner → State)
    (inner : Effect Inner Failure Value) : Effect State Failure Value := fun state =>
  let (outcome, after) := inner (view state)
  (outcome, replace state after)

def mapError (convert : Failure → Outer) (inner : Effect State Failure Value) :
    Effect State Outer Value := fun state =>
  let (outcome, after) := inner state
  (outcome.mapError convert, after)

def ignore (inner : Effect State Failure Value) : Effect State Failure Unit := fun state =>
  (.ok (), (inner state).2)

def poll (failure : Failure) (sample : Effect State Failure Bool) : Nat → Effect State Failure Unit
  | 0 => fail failure
  | polls + 1 => do
      if ← sample then pure () else poll failure sample polls

@[simp] theorem pure_apply (value : Value) (state : State) :
    (pure value : Effect State Failure Value) state = (.ok value, state) := rfl

@[simp] theorem fail_apply (failure : Failure) (state : State) :
    (fail failure : Effect State Failure Value) state = (.error failure, state) := rfl

@[simp] theorem get_apply (view : State → Value) (state : State) :
    (get view : Effect State Failure Value) state = (.ok (view state), state) := rfl

@[simp] theorem modify_apply (change : State → State) (state : State) :
    (modify change : Effect State Failure Unit) state = (.ok (), change state) := rfl

@[simp] theorem ofExcept_apply (outcome : Except Failure Value) (state : State) :
    (ofExcept outcome : Effect State Failure Value) state = (outcome, state) := rfl

theorem bind_apply (first : Effect State Failure Value) (next : Value → Effect State Failure Result)
    (state : State) :
    (first >>= next) state =
      match first state with
      | (.ok value, after) => next value after
      | (.error failure, after) => (.error failure, after) := rfl

theorem bind_of_ok {first : Effect State Failure Value} {next : Value → Effect State Failure Result}
    {state after : State} {value : Value} (ran : first state = (.ok value, after)) :
    (first >>= next) state = next value after := by
  rw [bind_apply, ran]

theorem bind_of_error {first : Effect State Failure Value}
    {next : Value → Effect State Failure Result} {state after : State} {failure : Failure}
    (ran : first state = (.error failure, after)) :
    (first >>= next) state = (.error failure, after) := by
  rw [bind_apply, ran]

theorem bind_eq_ok {first : Effect State Failure Value} {next : Value → Effect State Failure Result}
    {state final : State} {result : Result} :
    (first >>= next) state = (.ok result, final) ↔
      ∃ value middle, first state = (.ok value, middle) ∧
        next value middle = (.ok result, final) := by
  rw [bind_apply]
  rcases ran : first state with ⟨outcome, after⟩
  cases outcome with
  | error failure => simp
  | ok value =>
      simp only [Prod.mk.injEq, Except.ok.injEq]
      constructor
      · intro finished
        exact ⟨value, after, ⟨rfl, rfl⟩, finished⟩
      · rintro ⟨_, _, ⟨rfl, rfl⟩, finished⟩
        exact finished

theorem bind_eq_error {first : Effect State Failure Value}
    {next : Value → Effect State Failure Result} {state final : State} {failure : Failure} :
    (first >>= next) state = (.error failure, final) ↔
      first state = (.error failure, final) ∨
        ∃ value middle, first state = (.ok value, middle) ∧
          next value middle = (.error failure, final) := by
  rw [bind_apply]
  rcases ran : first state with ⟨outcome, after⟩
  cases outcome with
  | error raised => simp
  | ok value =>
      simp only [Prod.mk.injEq, reduceCtorEq, false_and, Except.ok.injEq, false_or]
      constructor
      · intro failed
        exact ⟨value, after, ⟨rfl, rfl⟩, failed⟩
      · rintro ⟨_, _, ⟨rfl, rfl⟩, failed⟩
        exact failed

theorem poll_get (failure : Failure) (ready : State → Bool) (polls : Nat) (state : State) :
    poll failure (get ready) polls state =
      (if 0 < polls ∧ ready state = true then .ok () else .error failure, state) := by
  induction polls with
  | zero => rw [poll, fail_apply, if_neg (by simp)]
  | succ polls ih =>
      rw [poll, bind_apply, get_apply]
      simp only
      cases shown : ready state with
      | true => simp
      | false =>
          simp only [Bool.false_eq_true, if_false]
          rw [ih]
          simp [shown]

theorem poll_of_first {failure : Failure} {sample : Effect State Failure Bool} {polls : Nat}
    {state after : State} (some_poll : 0 < polls) (found : sample state = (.ok true, after)) :
    poll failure sample polls state = (.ok (), after) := by
  obtain ⟨count, rfl⟩ := Nat.exists_eq_succ_of_ne_zero (Nat.ne_of_gt some_poll)
  rw [poll, bind_of_ok found, if_pos rfl, pure_apply]

theorem poll_returned {failure : Failure} {sample : Effect State Failure Bool} {kept : State → Prop}
    (stays : ∀ state after, kept state → sample state = (.ok false, after) → kept after)
    {polls : Nat} {state after : State} (start : kept state)
    (ran : poll failure sample polls state = (.ok (), after)) :
    ∃ last, kept last ∧ sample last = (.ok true, after) := by
  induction polls generalizing state with
  | zero => cases ran
  | succ polls ih =>
      rw [poll] at ran
      obtain ⟨found, middle, sampled, rest⟩ := bind_eq_ok.mp ran
      cases found with
      | true =>
          cases rest
          exact ⟨state, start, sampled⟩
      | false => exact ih (stays state middle start sampled) rest

@[simp] theorem within_apply (view : State → Inner) (replace : State → Inner → State)
    (inner : Effect Inner Failure Value) (state : State) :
    within view replace inner state = ((inner (view state)).1, replace state (inner (view state)).2) :=
  rfl

theorem mapError_eq_ok {convert : Failure → Outer} {inner : Effect State Failure Value}
    {state after : State} {value : Value} :
    mapError convert inner state = (.ok value, after) ↔ inner state = (.ok value, after) := by
  rw [mapError]
  rcases inner state with ⟨outcome, final⟩
  cases outcome with
  | error failure => simp [Except.mapError]
  | ok result => simp [Except.mapError]

theorem within_eq_ok {view : State → Inner} {replace : State → Inner → State}
    {inner : Effect Inner Failure Value} {state after : State} {value : Value} :
    within view replace inner state = (.ok value, after) ↔
      ∃ left, inner (view state) = (.ok value, left) ∧ after = replace state left := by
  rw [within_apply]
  rcases inner (view state) with ⟨outcome, left⟩
  simp only [Prod.mk.injEq]
  constructor
  · rintro ⟨rfl, rfl⟩
    exact ⟨left, ⟨rfl, rfl⟩, rfl⟩
  · rintro ⟨_, ⟨rfl, rfl⟩, rfl⟩
    exact ⟨rfl, rfl⟩

section Lens

variable (view : State → Inner) (replace : State → Inner → State)

theorem within_bind (shown : ∀ state inner, view (replace state inner) = inner)
    (overwritten : ∀ state first second, replace (replace state first) second = replace state second)
    (first : Effect Inner Failure Value) (next : Value → Effect Inner Failure Result) :
    within view replace (first >>= next) =
      within view replace first >>= fun value => within view replace (next value) := by
  funext state
  rw [within_apply, bind_apply, bind_apply, within_apply]
  rcases first (view state) with ⟨outcome, after⟩
  cases outcome with
  | error failure => rfl
  | ok value => simp only [within_apply, shown, overwritten]

theorem within_pure (kept : ∀ state, replace state (view state) = state) (value : Value) :
    within view replace (pure value : Effect Inner Failure Value) = pure value := by
  funext state
  simp only [within_apply, pure_apply, kept]

theorem within_poll (shown : ∀ state inner, view (replace state inner) = inner)
    (overwritten : ∀ state first second, replace (replace state first) second = replace state second)
    (kept : ∀ state, replace state (view state) = state) (failure : Failure)
    (sample : Effect Inner Failure Bool) (polls : Nat) :
    within view replace (poll failure sample polls) =
      poll failure (within view replace sample) polls := by
  induction polls with
  | zero =>
      funext state
      simp only [poll, within_apply, fail_apply, kept]
  | succ polls ih =>
      rw [poll, poll, within_bind view replace shown overwritten]
      congr 1
      funext found
      cases found with
      | true => exact within_pure view replace kept ()
      | false => exact ih

end Lens

/-- Whatever the outcome, the final state stands in the relation to the initial one. -/
def Respects (relation : State → State → Prop) (effect : Effect State Failure Value) : Prop :=
  ∀ state, relation state (effect state).2

theorem Respects.pure {relation : State → State → Prop} (refl : ∀ state, relation state state)
    (value : Value) : Respects relation (Pure.pure value : Effect State Failure Value) :=
  refl

theorem Respects.fail {relation : State → State → Prop} (refl : ∀ state, relation state state)
    (failure : Failure) : Respects relation (Effect.fail failure : Effect State Failure Value) :=
  refl

theorem Respects.ofExcept {relation : State → State → Prop} (refl : ∀ state, relation state state)
    (outcome : Except Failure Value) :
    Respects relation (Effect.ofExcept outcome : Effect State Failure Value) :=
  refl

theorem Respects.bind {relation : State → State → Prop}
    (trans : ∀ first second third, relation first second → relation second third →
      relation first third)
    {first : Effect State Failure Value} {next : Value → Effect State Failure Result}
    (before : Respects relation first) (after : ∀ value, Respects relation (next value)) :
    Respects relation (first >>= next) := by
  intro state
  rw [bind_apply]
  have start := before state
  rcases ran : first state with ⟨outcome, middle⟩
  rw [ran] at start
  cases outcome with
  | error failure => exact start
  | ok value => exact trans _ _ _ start (after value middle)

theorem Respects.poll {relation : State → State → Prop} (refl : ∀ state, relation state state)
    (trans : ∀ first second third, relation first second → relation second third →
      relation first third)
    (failure : Failure) {sample : Effect State Failure Bool} (before : Respects relation sample)
    (polls : Nat) : Respects relation (Effect.poll failure sample polls) := by
  induction polls with
  | zero => exact Respects.fail refl failure
  | succ polls ih =>
      apply Respects.bind trans before
      intro found
      cases found with
      | true => exact Respects.pure refl ()
      | false => exact ih

theorem Respects.mapError {relation : State → State → Prop} (convert : Failure → Outer)
    {inner : Effect State Failure Value} (respects : Respects relation inner) :
    Respects relation (Effect.mapError convert inner) :=
  respects

end Effect
