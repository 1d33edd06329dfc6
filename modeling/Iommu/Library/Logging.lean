import Iommu.Library.Effect

/-!
Effects that keep a log of events. A rule says what an effect may add to the log, event by
event, and what holds once it has succeeded; it is put together from the rules of its parts.
-/

variable {Event : Type}

/-- Every event is allowed by the events before it. -/
def Orderly (allowed : List Event → Event → Prop) : List Event → List Event → Prop
  | _, [] => True
  | done, event :: rest => allowed done event ∧ Orderly allowed (done ++ [event]) rest

def FailsLast (failed : Event → Prop) : List Event → Prop
  | [] => True
  | event :: rest => (failed event → rest = []) ∧ FailsLast failed rest

namespace Orderly

variable {allowed : List Event → Event → Prop} {done first second : List Event}

theorem append : Orderly allowed done (first ++ second) ↔
    Orderly allowed done first ∧ Orderly allowed (done ++ first) second := by
  induction first generalizing done with
  | nil => simp [Orderly]
  | cons event rest ih => simp [Orderly, ih, and_assoc]

theorem allowed_at {front : List Event} {event : Event} {back : List Event}
    (orderly : Orderly allowed done (front ++ event :: back)) : allowed (done ++ front) event :=
  (append.mp orderly).2.1

end Orderly

namespace FailsLast

variable {failed : Event → Prop} {first second : List Event}

theorem append (none : ∀ event ∈ first, ¬failed event) (last : FailsLast failed second) :
    FailsLast failed (first ++ second) := by
  induction first with
  | nil => exact last
  | cons event rest ih =>
      obtain ⟨here, later⟩ := List.forall_mem_cons.mp none
      exact ⟨fun fails => absurd fails here, ih later⟩

theorem nothing_after {front : List Event} {event : Event} {back : List Event}
    (last : FailsLast failed (front ++ event :: back)) (fails : failed event) : back = [] := by
  induction front with
  | nil => exact last.1 fails
  | cons other rest ih => exact ih last.2

end FailsLast

namespace Effect

variable {State Inner Failure Outer Value Result : Type}

/-- From a state of the precondition the effect adds events that are allowed; a failed one ends it with
a failure, and when it succeeds the postcondition holds. -/
def Logs (log : State → List Event) (allowed : List Event → Event → Prop) (failed : Event → Prop)
    (before : State → Prop) (effect : Effect State Failure Value) (after : Value → State → Prop) :
    Prop :=
  ∀ state, before state → ∃ added, log (effect state).2 = log state ++ added ∧
    Orderly allowed (log state) added ∧ FailsLast failed added ∧
    ∀ value, (effect state).1 = .ok value →
      (∀ event ∈ added, ¬failed event) ∧ after value (effect state).2

namespace Logs

variable {log : State → List Event} {allowed : List Event → Event → Prop} {failed : Event → Prop}
  {before : State → Prop}

theorem consequence {stronger : State → Prop} {effect : Effect State Failure Value}
    {after weaker : Value → State → Prop} (logs : Logs log allowed failed before effect after)
    (enters : ∀ state, stronger state → before state)
    (leaves : ∀ value state, after value state → weaker value state) :
    Logs log allowed failed stronger effect weaker := by
  intro state holds
  obtain ⟨added, grown, orderly, last, returned⟩ := logs state (enters state holds)
  refine ⟨added, grown, orderly, last, fun value ran => ?_⟩
  exact ⟨(returned value ran).1, leaves _ _ (returned value ran).2⟩

theorem pure (value : Value) {after : Value → State → Prop}
    (holds : ∀ state, before state → after value state) :
    Logs log allowed failed before (Pure.pure value : Effect State Failure Value) after := by
  intro state given
  refine ⟨[], (List.append_nil _).symm, trivial, trivial, fun other ran => ?_⟩
  cases ran
  exact ⟨by simp, holds state given⟩

theorem fail (failure : Failure) (after : Value → State → Prop) :
    Logs log allowed failed before (Effect.fail failure) after := by
  intro state _
  exact ⟨[], (List.append_nil _).symm, trivial, trivial, fun other ran => by cases ran⟩

theorem get (view : State → Value) :
    Logs log allowed failed before (Effect.get view : Effect State Failure Value)
      fun value state => before state ∧ value = view state := by
  intro state given
  refine ⟨[], (List.append_nil _).symm, trivial, trivial, fun other ran => ?_⟩
  cases ran
  exact ⟨by simp, given, rfl⟩

theorem bind {first : Effect State Failure Value} {next : Value → Effect State Failure Result}
    {between : Value → State → Prop} {after : Result → State → Prop}
    (early : Logs log allowed failed before first between)
    (late : ∀ value, Logs log allowed failed (between value) (next value) after) :
    Logs log allowed failed before (first >>= next) after := by
  intro state given
  obtain ⟨added, grown, orderly, last, returned⟩ := early state given
  rw [bind_apply]
  rcases ran : first state with ⟨outcome, middle⟩
  rw [ran] at grown returned
  cases outcome with
  | error failure => exact ⟨added, grown, orderly, last, fun value ran => by cases ran⟩
  | ok value =>
      obtain ⟨fine, reached⟩ := returned value rfl
      obtain ⟨more, further, orderlyMore, lastMore, finished⟩ := late value middle reached
      dsimp only at grown
      refine ⟨added ++ more, ?_, ?_, FailsLast.append fine lastMore, fun result done => ?_⟩
      · rw [further, grown, List.append_assoc]
      · rw [grown] at orderlyMore
        exact Orderly.append.mpr ⟨orderly, orderlyMore⟩
      · obtain ⟨fineMore, holds⟩ := finished result done
        refine ⟨fun event member => ?_, holds⟩
        rcases List.mem_append.mp member with here | there
        · exact fine event here
        · exact fineMore event there

theorem poll {sample : Effect State Failure Bool} {after : State → Prop} (failure : Failure)
    (polls : Nat)
    (once : Logs log allowed failed before sample fun found state =>
      if found then after state else before state) :
    Logs log allowed failed before (Effect.poll failure sample polls) fun _ state => after state := by
  induction polls with
  | zero => exact fail failure _
  | succ polls ih =>
      apply bind once
      intro found
      cases found with
      | true => exact pure () fun _ holds => holds
      | false => exact ih.consequence (fun _ holds => holds) fun _ _ holds => holds

theorem mapError {inner : Effect State Failure Value} {after : Value → State → Prop}
    (convert : Failure → Outer) (logs : Logs log allowed failed before inner after) :
    Logs log allowed failed before (Effect.mapError convert inner) after := by
  intro state given
  obtain ⟨added, grown, orderly, last, returned⟩ := logs state given
  refine ⟨added, grown, orderly, last, fun value ran => ?_⟩
  have same : inner state = (.ok value, (inner state).2) :=
    mapError_eq_ok.mp (Prod.ext ran rfl)
  exact returned value (congrArg Prod.fst same)

theorem within {view : State → Inner} {replace : State → Inner → State}
    {innerLog : Inner → List Event} {inner : Effect Inner Failure Value}
    {innerBefore : Inner → Prop} {innerAfter : Value → Inner → Prop} {kept : State → Prop}
    (logs : Logs innerLog allowed failed innerBefore inner innerAfter)
    (shown : ∀ state, log state = innerLog (view state))
    (replaced : ∀ state after, log (replace state after) = innerLog after)
    (restored : ∀ state after, view (replace state after) = after)
    (same : ∀ state after, kept state → kept (replace state after)) :
    Logs log allowed failed (fun state => kept state ∧ innerBefore (view state))
      (Effect.within view replace inner)
      fun value state => kept state ∧ innerAfter value (view state) := by
  intro state given
  obtain ⟨added, grown, orderly, last, returned⟩ := logs (view state) given.2
  rw [within_apply]
  refine ⟨added, ?_, ?_, last, fun value ran => ?_⟩
  · rw [replaced, shown, grown]
  · rw [shown]
    exact orderly
  · obtain ⟨fine, holds⟩ := returned value ran
    refine ⟨fine, same state _ given.1, ?_⟩
    rw [restored]
    exact holds

end Logs

end Effect
