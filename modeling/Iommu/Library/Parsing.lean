import Iommu.Library.ByteMemory
import Iommu.Library.MachineWord

/-!
Computations that read a byte string. An addition past the machine word or a slice
past the end panics; a checked read that misses is a failure of the caller's choice.
-/

/-- How a computation stops without a value. -/
inductive Stop (Failure : Type)
  | panicked
  | diverged
  | failed (failure : Failure)
  deriving DecidableEq, Repr

abbrev Parse (Failure Value : Type) := Except (Stop Failure) Value

namespace Parse

open MachineWord

variable {Failure Value Result : Type}

def fail (failure : Failure) : Parse Failure Value := .error (.failed failure)

def Returns : Parse Failure Value → Prop
  | .ok _ => True
  | .error (.failed _) => True
  | .error _ => False

def sum (left right : Nat) : Parse Failure Nat :=
  match checkedAdd left right with
  | none => .error .panicked
  | some total => .ok total

@[simp] theorem ok_bind (value : Value) (next : Value → Parse Failure Result) :
    ((.ok value : Parse Failure Value) >>= next) = next value := rfl

@[simp] theorem error_bind (stop : Stop Failure) (next : Value → Parse Failure Result) :
    ((.error stop : Parse Failure Value) >>= next) = .error stop := rfl

theorem bind_eq_ok {first : Parse Failure Value} {next : Value → Parse Failure Result}
    {result : Result} :
    (first >>= next) = .ok result ↔ ∃ value, first = .ok value ∧ next value = .ok result := by
  cases first with
  | error stop => simp
  | ok value => simp

theorem exists_bind {first : Parse Failure Value} {next : Value → Parse Failure Result} {value : Value}
    (found : first = .ok value) (rest : ∃ result, next value = .ok result) :
    ∃ result, (first >>= next) = .ok result := by
  rw [found]
  exact rest

theorem map_eq_ok {construct : Value → Result} {parse : Parse Failure Value} {result : Result} :
    (construct <$> parse) = .ok result ↔ ∃ value, parse = .ok value ∧ construct value = result := by
  cases parse with
  | error stop => simp
  | ok value => simp

theorem sum_of_lt {left right : Nat} (small : left + right < limit) :
    (sum left right : Parse Failure Nat) = .ok (left + right) := by
  rw [sum, checkedAdd_of_lt small]

theorem sum_eq_ok {left right total : Nat} (summed : (sum left right : Parse Failure Nat) = .ok total) :
    total = left + right := by
  rw [sum] at summed
  split at summed
  · cases summed
  · next found =>
    cases summed
    exact (checkedAdd_eq_some.mp found).2.symm

theorem Returns.ok (value : Value) : Returns (.ok value : Parse Failure Value) := True.intro

theorem Returns.fail (failure : Failure) : Returns (fail failure : Parse Failure Value) := True.intro

theorem Returns.error {stop : Stop Failure}
    (returned : Returns (.error stop : Parse Failure Value)) :
    Returns (.error stop : Parse Failure Result) := by
  cases stop with
  | panicked => exact returned.elim
  | diverged => exact returned.elim
  | failed failure => exact True.intro

theorem Returns.pure (value : Value) : Returns (pure value : Parse Failure Value) := True.intro

theorem Returns.outcome {parse : Parse Failure Value} (returns : parse.Returns) :
    ∃ outcome : Except Failure Value, parse = outcome.mapError .failed :=
  match parse with
  | .ok value => ⟨.ok value, rfl⟩
  | .error (.failed failure) => ⟨.error failure, rfl⟩
  | .error .panicked => returns.elim
  | .error .diverged => returns.elim

theorem Returns.fails_iff {parse : Parse Failure Value} (returns : parse.Returns) :
    (∃ failure, parse = .error (.failed failure)) ↔ ¬∃ value, parse = .ok value := by
  obtain ⟨outcome, rfl⟩ := returns.outcome
  cases outcome with
  | ok value => simp [Except.mapError]
  | error failure => simp [Except.mapError]

theorem Returns.bind {first : Parse Failure Value} {next : Value → Parse Failure Result}
    (before : first.Returns) (after : ∀ value, first = .ok value → (next value).Returns) :
    (first >>= next).Returns := by
  match first with
  | .ok value => exact after value rfl
  | .error (.failed failure) => exact True.intro
  | .error .panicked => exact before.elim
  | .error .diverged => exact before.elim

def Ensures (property : Value → Prop) (parse : Parse Failure Value) : Prop :=
  ∀ value, parse = .ok value → property value

namespace Ensures

variable {property : Value → Prop} {ensured : Result → Prop}

theorem ok {value : Value} (holds : property value) :
    Ensures property (.ok value : Parse Failure Value) := by
  rintro _ ⟨⟩
  exact holds

theorem pure {value : Value} (holds : property value) :
    Ensures property (Pure.pure value : Parse Failure Value) :=
  ok holds

theorem fail (failure : Failure) : Ensures property (Parse.fail failure : Parse Failure Value) := by
  rintro _ ⟨⟩

theorem bind {first : Parse Failure Value} {next : Value → Parse Failure Result}
    (after : ∀ value, first = .ok value → Ensures ensured (next value)) :
    Ensures ensured (first >>= next) := by
  intro result ran
  obtain ⟨value, found, rest⟩ := bind_eq_ok.mp ran
  exact after value found result rest

theorem map {construct : Value → Result} {parse : Parse Failure Value}
    (holds : Ensures (fun value => ensured (construct value)) parse) :
    Ensures ensured (construct <$> parse) := by
  intro result ran
  obtain ⟨value, found, rfl⟩ := map_eq_ok.mp ran
  exact holds value found

theorem ite {condition : Prop} [Decidable condition] {first second : Parse Failure Value}
    (holds : condition → Ensures property first) (fails : ¬condition → Ensures property second) :
    Ensures property (if condition then first else second) := by
  by_cases decided : condition
  · rw [if_pos decided]
    exact holds decided
  · rw [if_neg decided]
    exact fails decided

end Ensures

def FailsWith (property : Failure → Prop) (parse : Parse Failure Value) : Prop :=
  ∀ failure, parse = .error (.failed failure) → property failure

namespace FailsWith

variable {property : Failure → Prop}

theorem ok (value : Value) : FailsWith property (.ok value : Parse Failure Value) := by
  rintro _ ⟨⟩

theorem pure (value : Value) : FailsWith property (Pure.pure value : Parse Failure Value) :=
  ok value

theorem panicked : FailsWith property (.error .panicked : Parse Failure Value) := by
  rintro _ ⟨⟩

theorem fail {failure : Failure} (holds : property failure) :
    FailsWith property (Parse.fail failure : Parse Failure Value) := by
  rintro _ ⟨⟩
  exact holds

theorem sum (left right : Nat) : FailsWith property (Parse.sum left right) := by
  rw [Parse.sum]
  split
  · exact panicked
  · exact ok _

theorem bind {first : Parse Failure Value} {next : Value → Parse Failure Result}
    (before : FailsWith property first) (after : ∀ value, FailsWith property (next value)) :
    FailsWith property (first >>= next) := by
  cases first with
  | error stop =>
      rintro failure ⟨⟩
      exact before failure rfl
  | ok value => exact after value

theorem map {construct : Value → Result} {parse : Parse Failure Value}
    (before : FailsWith property parse) : FailsWith property (construct <$> parse) := by
  cases parse with
  | error stop =>
      rintro failure ⟨⟩
      exact before failure rfl
  | ok value => exact ok _

theorem ite {condition : Prop} [Decidable condition] {first second : Parse Failure Value}
    (holds : FailsWith property first) (fails : FailsWith property second) :
    FailsWith property (if condition then first else second) := by
  split
  · exact holds
  · exact fails

end FailsWith

end Parse

def window (bytes : List UInt8) (offset count : Nat) : List UInt8 := (bytes.drop offset).take count

def fieldLE (bytes : List UInt8) (offset count : Nat) : Nat :=
  Memory.ofBytesLE (window bytes offset count)

structure AgreeOn (first second : List UInt8) (start stop : Nat) : Prop where
  reaches : stop ≤ first.length
  reachesSecond : stop ≤ second.length
  same : ∀ index, start ≤ index → index < stop → first[index]? = second[index]?

structure AgreeOutside (first second : List UInt8) (start stop : Nat) : Prop where
  lengths : first.length = second.length
  same : ∀ index, index < start ∨ stop ≤ index → first[index]? = second[index]?

namespace AgreeOutside

variable {first second : List UInt8} {start stop low high : Nat}

theorem before (agree : AgreeOutside first second start stop) (ends : high ≤ start)
    (inside : high ≤ first.length) : AgreeOn first second low high :=
  ⟨inside, agree.lengths ▸ inside, fun index _ below => agree.same index (Or.inl (by omega))⟩

theorem behind (agree : AgreeOutside first second start stop) (starts : stop ≤ low)
    (inside : high ≤ first.length) : AgreeOn first second low high :=
  ⟨inside, agree.lengths ▸ inside, fun index above _ => agree.same index (Or.inr (by omega))⟩

theorem of_middles {front back middle other : List UInt8} (sizes : middle.length = other.length) :
    AgreeOutside (front ++ middle ++ back) (front ++ other ++ back) front.length
      (front.length + middle.length) := by
  constructor
  · simp [sizes]
  · intro index outside
    simp only [List.append_assoc, List.getElem?_append, ← sizes]
    split
    · rfl
    · rw [if_neg (by omega), if_neg (by omega)]

end AgreeOutside

section Windows

open MachineWord

variable {Failure : Type} {bytes : List UInt8} {offset count : Nat}

/-- A slice of a byte string, which panics unless it lies inside. -/
def sliceOf (bytes : List UInt8) (start stop : Nat) : Parse Failure (List UInt8) :=
  if start ≤ stop ∧ stop ≤ bytes.length then .ok (window bytes start (stop - start))
  else .error .panicked

/-- A checked read, which fails in one way when its end overflows and in another past the end. -/
def readArray (overflow outside : Failure) (bytes : List UInt8) (offset count : Nat) :
    Parse Failure (List UInt8) :=
  match checkedAdd offset count with
  | none => .fail overflow
  | some stop => if stop ≤ bytes.length then .ok (window bytes offset count) else .fail outside

theorem window_length (inside : offset + count ≤ bytes.length) :
    (window bytes offset count).length = count := by
  rw [window, List.length_take, List.length_drop]
  omega

theorem AgreeOn.window_eq {first second : List UInt8} {start stop : Nat}
    (agree : AgreeOn first second start stop) (low : start ≤ offset) (high : offset + count ≤ stop) :
    window first offset count = window second offset count := by
  apply List.ext_getElem?
  intro index
  simp only [window, List.getElem?_take, List.getElem?_drop]
  split
  · exact agree.same _ (by omega) (by omega)
  · rfl

theorem AgreeOn.fieldLE_eq {first second : List UInt8} {start stop : Nat}
    (agree : AgreeOn first second start stop) (low : start ≤ offset) (high : offset + count ≤ stop) :
    fieldLE first offset count = fieldLE second offset count := by
  rw [fieldLE, fieldLE, agree.window_eq low high]

theorem AgreeOn.narrow {first second : List UInt8} {start stop last : Nat}
    (agree : AgreeOn first second start last) (less : stop ≤ last) :
    AgreeOn first second start stop :=
  ⟨Nat.le_trans less agree.reaches, Nat.le_trans less agree.reachesSecond,
    fun index above below => agree.same index above (Nat.lt_of_lt_of_le below less)⟩

theorem AgreeOn.shorten {first second : List UInt8} {start size shorter : Nat}
    (agree : AgreeOn first second start (start + size)) (less : shorter ≤ size) :
    AgreeOn first second start (start + shorter) :=
  agree.narrow (Nat.add_le_add_left less _)

theorem ofBytesLE_lt (bytes : List UInt8) : Memory.ofBytesLE bytes < 256 ^ bytes.length := by
  induction bytes with
  | nil => exact Nat.one_pos
  | cons byte rest ih =>
      have small := byte.toNat_lt
      rw [Memory.ofBytesLE, List.length_cons, Nat.pow_succ]
      omega

theorem fieldLE_lt (bytes : List UInt8) (offset count : Nat) :
    fieldLE bytes offset count < 256 ^ count := by
  apply Nat.lt_of_lt_of_le (ofBytesLE_lt _)
  apply Nat.pow_le_pow_right (by omega)
  rw [window, List.length_take]
  exact Nat.min_le_left _ _

theorem getElem?_eq_fieldLE (inside : offset < bytes.length) :
    bytes[offset]? = some (.ofNat (fieldLE bytes offset 1)) := by
  rw [fieldLE, window]
  cases rest : bytes.drop offset with
  | nil =>
      have short := congrArg List.length rest
      simp only [List.length_drop, List.length_nil] at short
      omega
  | cons byte others =>
      have first := congrArg (fun bytes : List UInt8 => bytes[0]?) rest
      simp only [List.getElem?_drop, Nat.add_zero, List.getElem?_cons_zero] at first
      simp [first, Memory.ofBytesLE]

theorem sliceOf_inside {start stop : Nat} (ordered : start ≤ stop) (inside : stop ≤ bytes.length) :
    (sliceOf bytes start stop : Parse Failure (List UInt8)) =
      .ok (window bytes start (stop - start)) :=
  if_pos ⟨ordered, inside⟩

theorem readArray_inside {overflow outside : Failure} (inside : offset + count ≤ bytes.length)
    (small : bytes.length < limit) :
    readArray overflow outside bytes offset count = .ok (window bytes offset count) := by
  rw [readArray, checkedAdd_of_lt (by omega)]
  exact if_pos inside

theorem window_window {start size : Nat} (within : offset + count ≤ size) :
    window (window bytes start size) offset count = window bytes (start + offset) count := by
  apply List.ext_getElem?
  intro index
  simp only [window, List.getElem?_take, List.getElem?_drop]
  split
  · rw [if_pos (by omega), Nat.add_assoc]
  · rfl

theorem window_append {start first second : Nat} :
    window bytes start (first + second) =
      window bytes start first ++ window bytes (start + first) second := by
  rw [window, window, window, List.take_add, List.drop_drop]

structure HoldsAt (bytes : List UInt8) (start : Nat) (part : List UInt8) : Prop where
  inside : start + part.length ≤ bytes.length
  same : window bytes start part.length = part

instance (bytes : List UInt8) (start : Nat) (part : List UInt8) : Decidable (HoldsAt bytes start part) :=
  decidable_of_iff (start + part.length ≤ bytes.length ∧ window bytes start part.length = part)
    ⟨fun ⟨inside, same⟩ => ⟨inside, same⟩, fun ⟨inside, same⟩ => ⟨inside, same⟩⟩

namespace HoldsAt

variable {start : Nat} {part : List UInt8}

theorem window_eq (holds : HoldsAt bytes start part) (within : offset + count ≤ part.length) :
    window bytes (start + offset) count = window part offset count := by
  rw [← window_window within, holds.same]

theorem fieldLE_eq (holds : HoldsAt bytes start part) (within : offset + count ≤ part.length) :
    fieldLE bytes (start + offset) count = Memory.ofBytesLE (window part offset count) := by
  rw [fieldLE, holds.window_eq within]

theorem number {value : Nat} (holds : HoldsAt bytes start (Memory.toBytesLE count value))
    (small : value < 256 ^ count) : fieldLE bytes start count = value := by
  have size := Memory.toBytesLE_length count value
  have same := holds.same
  rw [size] at same
  rw [fieldLE, same, Memory.ofBytesLE_toBytesLE_of_lt small]

theorem inner (holds : HoldsAt bytes start part) (within : offset + count ≤ part.length) :
    HoldsAt bytes (start + offset) (window part offset count) := by
  have inside := holds.inside
  have size : (window part offset count).length = count := window_length within
  refine ⟨by omega, ?_⟩
  rw [size, holds.window_eq within]

theorem split {first second : List UInt8} (holds : HoldsAt bytes start (first ++ second)) :
    HoldsAt bytes start first ∧ HoldsAt bytes (start + first.length) second := by
  obtain ⟨inside, same⟩ := holds
  rw [List.length_append] at inside same
  rw [window_append] at same
  have lengths : (window bytes start first.length).length = first.length :=
    window_length (by omega)
  obtain ⟨firstSame, secondSame⟩ := List.append_inj same lengths
  exact ⟨⟨by omega, firstSame⟩, ⟨by omega, secondSame⟩⟩

theorem trans {field : List UInt8} (outer : HoldsAt bytes start part) (inner : HoldsAt part offset field) :
    HoldsAt bytes (start + offset) field := by
  have laid := outer.inner inner.inside
  rwa [inner.same] at laid

theorem self (bytes : List UInt8) : HoldsAt bytes 0 bytes :=
  ⟨Nat.le_of_eq (Nat.zero_add _), List.take_length⟩

end HoldsAt

theorem AgreeOn.holds {first second : List UInt8} {start stop : Nat}
    (agree : AgreeOn first second start stop) (low : start ≤ offset) (high : offset + count ≤ stop) :
    ∃ part, HoldsAt first offset part ∧ HoldsAt second offset part ∧ part.length = count := by
  have size : (window first offset count).length = count :=
    window_length (Nat.le_trans high agree.reaches)
  refine ⟨window first offset count, ⟨?_, ?_⟩, ⟨?_, ?_⟩, size⟩
  · rw [size]
    exact Nat.le_trans high agree.reaches
  · rw [size]
  · rw [size]
    exact Nat.le_trans high agree.reachesSecond
  · rw [size, agree.window_eq low high]

end Windows
