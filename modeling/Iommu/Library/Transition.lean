import Mathlib.Tactic.Common

/-!
Runs of a labelled partial step function, and the rules that carry an invariant
from one step to every state a run reaches.
-/

namespace Transition

variable {State Label : Type}

def run (step : State → Label → Option State) : State → List Label → Option State
  | state, [] => some state
  | state, label :: rest => (step state label).bind fun next => run step next rest

/-- Every step of the run satisfies the condition in the state it is taken from. -/
def Meets (step : State → Label → Option State) (condition : State → Label → Prop) :
    State → List Label → Prop
  | _, [] => True
  | state, label :: rest =>
      condition state label ∧ ∀ next, step state label = some next → Meets step condition next rest

instance decidableMeets {step : State → Label → Option State} {condition : State → Label → Prop}
    [∀ state label, Decidable (condition state label)] :
    ∀ (state : State) (labels : List Label), Decidable (Meets step condition state labels)
  | _, [] => isTrue trivial
  | state, label :: rest =>
      have : DecidablePred fun next => Meets step condition next rest :=
        fun next => decidableMeets next rest
      inferInstanceAs (Decidable (condition state label ∧
        ∀ next ∈ step state label, Meets step condition next rest))

theorem run_cons_iff {step : State → Label → Option State} {state final : State}
    {label : Label} {rest : List Label} :
    run step state (label :: rest) = some final ↔
      ∃ next, step state label = some next ∧ run step next rest = some final := by
  simp only [run, Option.bind_eq_some_iff]

theorem run_append (step : State → Label → Option State) (state : State)
    (first second : List Label) :
    run step state (first ++ second) =
      (run step state first).bind fun middle => run step middle second := by
  induction first generalizing state with
  | nil => rfl
  | cons label rest ih =>
      rw [List.cons_append, run, run, Option.bind_assoc]
      congr 1
      funext next
      exact ih next

theorem meets_of_append {step : State → Label → Option State} {condition : State → Label → Prop}
    {state : State} {earlier later : List Label}
    (meets : Meets step condition state (earlier ++ later)) : Meets step condition state earlier := by
  induction earlier generalizing state with
  | nil => trivial
  | cons label rest ih => exact ⟨meets.1, fun next stepped => ih (meets.2 next stepped)⟩

theorem meets_of_forall {step : State → Label → Option State} {condition : State → Label → Prop}
    {labels : List Label} (all : ∀ label ∈ labels, ∀ state, condition state label) (state : State) :
    Meets step condition state labels := by
  induction labels generalizing state with
  | nil => trivial
  | cons label rest ih =>
      exact ⟨all label List.mem_cons_self state,
        fun next _ => ih (fun later member => all later (List.mem_cons_of_mem _ member)) next⟩

theorem meets_true (step : State → Label → Option State) (state : State) (labels : List Label) :
    Meets step (fun _ _ => True) state labels :=
  meets_of_forall (fun _ _ _ => trivial) state

/-- An invariant preserved by every step that meets the condition holds wherever such a run ends. -/
theorem invariant_of_meets {step : State → Label → Option State}
    {condition : State → Label → Prop} (invariant : State → Prop)
    (preserved : ∀ state label next, invariant state → condition state label →
      step state label = some next → invariant next)
    {start final : State} {labels : List Label} (initial : invariant start)
    (meets : Meets step condition start labels) (reached : run step start labels = some final) :
    invariant final := by
  induction labels generalizing start with
  | nil =>
      simp only [run, Option.some.injEq] at reached
      exact reached ▸ initial
  | cons label rest ih =>
      obtain ⟨next, stepped, remaining⟩ := run_cons_iff.mp reached
      exact ih (preserved start label next initial meets.1 stepped) (meets.2 next stepped) remaining

theorem invariant_of_run {step : State → Label → Option State} (invariant : State → Prop)
    (preserved : ∀ state label next, invariant state →
      step state label = some next → invariant next)
    {start final : State} {labels : List Label} (initial : invariant start)
    (reached : run step start labels = some final) : invariant final :=
  invariant_of_meets invariant (fun state label next holds _ => preserved state label next holds) initial
    (meets_true step start labels) reached

def tally (step : State → Label → Option State) (count : State → Label → Nat) :
    State → List Label → Nat
  | _, [] => 0
  | state, label :: rest =>
      count state label + ((step state label).map fun next => tally step count next rest).getD 0

theorem tally_cons {step : State → Label → Option State} {count : State → Label → Nat}
    {state next : State} {label : Label} (stepped : step state label = some next) (rest : List Label) :
    tally step count state (label :: rest) = count state label + tally step count next rest := by
  rw [tally, stepped]
  rfl

/-- When each step pays its cost out of a potential and what it is refunded, a run costs no more than the
potential that it begins with and all that is refunded. -/
theorem tally_le_of_run {step : State → Label → Option State} {cost refund : State → Label → Nat}
    (potential : State → Nat) (invariant : State → Prop)
    (preserved : ∀ state label next, invariant state → step state label = some next → invariant next)
    (paid : ∀ state label next, invariant state → step state label = some next →
      cost state label + potential next ≤ potential state + refund state label)
    {start final : State} {labels : List Label} (initial : invariant start)
    (reached : run step start labels = some final) :
    tally step cost start labels + potential final ≤ potential start + tally step refund start labels := by
  induction labels generalizing start with
  | nil =>
      simp only [run, Option.some.injEq] at reached
      rw [tally, tally, reached]
      omega
  | cons label rest ih =>
      obtain ⟨next, stepped, remaining⟩ := run_cons_iff.mp reached
      have here := paid start label next initial stepped
      have later := ih (preserved start label next initial stepped) remaining
      rw [tally_cons stepped, tally_cons stepped]
      omega

/-- A relation that knows what is still to come, kept by every step, relates the end of a run to
the abstract run over the same labels. -/
theorem simulation_of_run {Abstract : Type} {step : State → Label → Option State}
    {apply : Abstract → Label → Abstract} (related : State → Abstract → List Label → Prop)
    (preserved : ∀ state abstract label rest next, related state abstract (label :: rest) →
      step state label = some next → related next (apply abstract label) rest)
    {start final : State} {abstract : Abstract} {labels : List Label}
    (initial : related start abstract labels) (reached : run step start labels = some final) :
    related final (labels.foldl apply abstract) [] := by
  induction labels generalizing start abstract with
  | nil =>
      simp only [run, Option.some.injEq] at reached
      exact reached ▸ initial
  | cons label rest ih =>
      obtain ⟨next, stepped, remaining⟩ := run_cons_iff.mp reached
      exact ih (preserved start abstract label rest next initial stepped) remaining

theorem related_of_meets {apply : State → Label → State} {condition : State → Label → Prop}
    (related : State → List Label → Prop)
    (preserved : ∀ state label rest, related state (label :: rest) → condition state label →
      related (apply state label) rest)
    {start : State} {labels : List Label} (initial : related start labels)
    (meets : Meets (fun state label => some (apply state label)) condition start labels) :
    related (labels.foldl apply start) [] := by
  induction labels generalizing start with
  | nil => exact initial
  | cons label rest ih =>
      obtain ⟨here, later⟩ := meets
      exact ih (preserved start label rest initial here) (later _ rfl)

end Transition
