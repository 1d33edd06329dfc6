import Mathlib.Tactic.Common

/-!
Caches of a source that changes under them. A cache takes in what the source shows and lets go of
what it likes; it may hold what the source no longer shows until it is told to drop it.
-/

namespace Caching

variable {Key Value : Type}

/-- A cache beside what it is filled from. -/
structure Cached (Key Value : Type) where
  source : Key → Option Value
  held : Key → Option Value

def Cached.cold (source : Key → Option Value) : Cached Key Value := ⟨source, fun _ => none⟩

inductive Moment (Key Value : Type)
  | shown (source : Key → Option Value)
  | dropped (keys : Key → Bool)

def without (keys : Key → Bool) (held : Key → Option Value) (key : Key) : Option Value :=
  if keys key then none else held key

/-- Runs of a cache over a history. Between two moments whatever comes to be held was held before or
is shown by the source. -/
inductive Runs : Cached Key Value → List (Moment Key Value) → Cached Key Value → Prop
  | ended (cached : Cached Key Value) : Runs cached [] cached
  | idled {source held later : Key → Option Value} {history : List (Moment Key Value)}
      {final : Cached Key Value} :
      (∀ key value, later key = some value → held key = some value ∨ source key = some value) →
      Runs ⟨source, later⟩ history final → Runs ⟨source, held⟩ history final
  | shown {source next held : Key → Option Value} {history : List (Moment Key Value)}
      {final : Cached Key Value} :
      Runs ⟨next, held⟩ history final → Runs ⟨source, held⟩ (.shown next :: history) final
  | dropped {source held : Key → Option Value} {keys : Key → Bool}
      {history : List (Moment Key Value)} {final : Cached Key Value} :
      Runs ⟨source, without keys held⟩ history final →
      Runs ⟨source, held⟩ (.dropped keys :: history) final

def Cached.Coherent (cached : Cached Key Value) (key : Key) : Prop :=
  ∀ value, cached.held key = some value → cached.source key = some value

theorem Cached.cold_coherent (source : Key → Option Value) (key : Key) :
    (Cached.cold source).Coherent key := by
  intro value held
  contradiction

/-- What a reader finds: what is held, and where nothing is held what the source shows. -/
def Cached.answer (cached : Cached Key Value) (key : Key) : Option Value :=
  (cached.held key).or (cached.source key)

theorem Cached.Coherent.answer_eq {cached : Cached Key Value} {key : Key}
    (coherent : cached.Coherent key) : cached.answer key = cached.source key := by
  rw [Cached.answer]
  cases holds : cached.held key with
  | none => exact Option.none_or
  | some value => exact (coherent value holds).symm

def lastShown : (Key → Option Value) → List (Moment Key Value) → Key → Option Value
  | source, [] => source
  | _, .shown next :: rest => lastShown next rest
  | source, .dropped _ :: rest => lastShown source rest

/-- Whether a history leaves a key coherent, from a start where it is so if `clean` holds. A value that
comes where none was shown finds nothing held. -/
def Settles (key : Key) : (Key → Option Value) → Prop → List (Moment Key Value) → Prop
  | _, clean, [] => clean
  | source, clean, .shown next :: rest =>
      Settles key next (clean ∧ (source key = none ∨ next key = source key)) rest
  | source, clean, .dropped keys :: rest => Settles key source (clean ∨ keys key = true) rest

theorem lastShown_append (source : Key → Option Value) (first second : List (Moment Key Value)) :
    lastShown source (first ++ second) = lastShown (lastShown source first) second := by
  induction first generalizing source with
  | nil => rfl
  | cons moment rest ih =>
      cases moment with
      | shown next => exact ih next
      | dropped keys => exact ih source

theorem settles_append (key : Key) (source : Key → Option Value) (clean : Prop)
    (first second : List (Moment Key Value)) :
    Settles key source clean (first ++ second) =
      Settles key (lastShown source first) (Settles key source clean first) second := by
  induction first generalizing source clean with
  | nil => rfl
  | cons moment rest ih =>
      cases moment with
      | shown next => exact ih next _
      | dropped keys => exact ih source _

def Untouched (key : Key) (source : Key → Option Value) (history : List (Moment Key Value)) : Prop :=
  ∀ next, Moment.shown next ∈ history → next key = source key

theorem Untouched.settles {key : Key} {source : Key → Option Value}
    {history : List (Moment Key Value)} (untouched : Untouched key source history) {clean : Prop}
    (before : clean) : Settles key source clean history := by
  induction history generalizing source clean with
  | nil => exact before
  | cons moment rest ih =>
      cases moment with
      | shown next =>
          have same := untouched next List.mem_cons_self
          refine ih ?_ ⟨before, Or.inr same⟩
          intro later member
          exact (untouched later (List.mem_cons_of_mem _ member)).trans same.symm
      | dropped keys =>
          exact ih (fun later member => untouched later (List.mem_cons_of_mem _ member)) (Or.inl before)

theorem settles_of_dropped {key : Key} {source : Key → Option Value}
    {history : List (Moment Key Value)} (untouched : Untouched key source history) {keys : Key → Bool}
    (dropped : Moment.dropped keys ∈ history) (named : keys key = true) (clean : Prop) :
    Settles key source clean history := by
  induction history generalizing source clean with
  | nil => contradiction
  | cons moment rest ih =>
      cases moment with
      | shown next =>
          have same := untouched next List.mem_cons_self
          refine ih ?_ ((List.mem_cons.mp dropped).resolve_left (by simp)) _
          intro later member
          exact (untouched later (List.mem_cons_of_mem _ member)).trans same.symm
      | dropped others =>
          have still : Untouched key source rest :=
            fun later member => untouched later (List.mem_cons_of_mem _ member)
          rcases List.mem_cons.mp dropped with first | later
          · obtain rfl := Moment.dropped.inj first
            exact still.settles (Or.inr named)
          · exact ih still later _

namespace Runs

variable {start final : Cached Key Value} {history : List (Moment Key Value)}

theorem source_eq (runs : Runs start history final) :
    final.source = lastShown start.source history := by
  induction runs with
  | ended cached => rfl
  | idled _ _ ih => exact ih
  | shown _ ih => exact ih
  | dropped _ ih => exact ih

/-- A history that settles a key leaves every cache that went through it coherent there. -/
theorem coherent {key : Key} {clean : Prop} (runs : Runs start history final)
    (before : clean → start.Coherent key) (settles : Settles key start.source clean history) :
    final.Coherent key := by
  induction runs generalizing clean with
  | ended cached => exact before settles
  | idled kept _ ih =>
      refine ih (fun holds value held => ?_) settles
      rcases kept key value held with earlier | fresh
      · exact before holds value earlier
      · exact fresh
  | shown _ ih =>
      refine ih (fun holds value held => ?_) settles
      have earlier := before holds.1 value held
      rcases holds.2 with nothing | same
      · exact absurd (nothing.symm.trans earlier) (Option.some_ne_none value).symm
      · exact same.trans earlier
  | dropped _ ih =>
      refine ih (fun holds value held => ?_) settles
      simp only [without] at held
      split at held
      · contradiction
      · rename_i kept
        exact before (holds.resolve_right kept) value held

theorem filled_last (source : Key → Option Value) (history : List (Moment Key Value)) :
    Runs (.cold source) history ⟨lastShown source history, lastShown source history⟩ := by
  induction history generalizing source with
  | nil => exact .idled (fun _ _ shown => Or.inr shown) (.ended _)
  | cons moment rest ih =>
      cases moment with
      | shown next => exact .shown (ih next)
      | dropped keys =>
          have empty : without keys (fun _ : Key => (none : Option Value)) = fun _ => none := by
            funext key
            exact ite_self none
          apply Runs.dropped
          rw [empty]
          exact ih source

end Runs

end Caching
