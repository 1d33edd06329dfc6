import Iommu.Pcie
import Iommu.Library.Effect
import Mathlib.Logic.Function.Basic

/-!
A bounded set of PCI requesters kept as windows in place. The loops of the source
are recursions over what they still have to visit, and a set is shown to hold
exactly a list of windows before and after each of them.
-/

namespace Iommu

inductive BdfRangeSetError
  | full
  | overflow
  | invalidRange (error : BdfRangeError)
  deriving DecidableEq, Repr

/-- The first `count` windows are in use; `N` is the length of the window array. -/
structure BdfRangeSet (N : Nat) where
  windows : Nat → BdfRange
  count : Nat

namespace BdfRangeSet

variable {N : Nat}

def empty : BdfRangeSet N := ⟨fun _ => .EMPTY, 0⟩

def setWindow (index : Nat) (range : BdfRange) (set : BdfRangeSet N) : BdfRangeSet N :=
  { set with windows := Function.update set.windows index range }

def shiftUp (index : Nat) : Nat → (Nat → BdfRange) → Nat → BdfRange
  | 0, windows => windows
  | cursor + 1, windows =>
      if cursor + 1 > index then
        shiftUp index cursor (Function.update windows (cursor + 1) (windows cursor))
      else windows

def shiftDown (count : Nat) : Nat → Nat → (Nat → BdfRange) → Nat → BdfRange
  | 0, _, windows => windows
  | steps + 1, cursor, windows =>
      if cursor + 1 < count then
        shiftDown count steps (cursor + 1)
          (Function.update windows cursor (windows (cursor + 1)))
      else windows

def remove (index : Nat) : Effect (BdfRangeSet N) BdfRangeSetError Unit :=
  .modify fun set => {
    windows := Function.update (shiftDown set.count set.count index set.windows) (set.count - 1)
      .EMPTY
    count := set.count - 1
  }

def checkedBounds (start endExclusive : Nat) : Effect (BdfRangeSet N) BdfRangeSetError BdfRange :=
  .ofExcept ((BdfRange.fromBounds start endExclusive).mapError .invalidRange)

def mergePair (left right : Nat) : Effect (BdfRangeSet N) BdfRangeSetError Bool := do
  let leftRange ← .get fun set => set.windows left
  let rightRange ← .get fun set => set.windows right
  if rightRange.start.asU32 > leftRange.endExclusive then pure false
  else do
    let merged ← checkedBounds leftRange.start.asU32
      (max leftRange.endExclusive rightRange.endExclusive)
    .modify (setWindow left merged)
    remove right
    pure true

def mergeLeft : Nat → Effect (BdfRangeSet N) BdfRangeSetError Nat
  | 0 => pure 0
  | index + 1 => do
      if ← mergePair index (index + 1) then mergeLeft index else pure (index + 1)

/-- The second loop of `merge_around`. Each turn removes a window, so `count` turns suffice. -/
def mergeRight (index : Nat) : Nat → Effect (BdfRangeSet N) BdfRangeSetError Unit
  | 0 => pure ()
  | turns + 1 => do
      let count ← .get fun set => set.count
      if index + 1 < count then do
        if ← mergePair index (index + 1) then mergeRight index turns else pure ()
      else pure ()

def mergeAround (index : Nat) : Effect (BdfRangeSet N) BdfRangeSetError Unit := do
  let index ← mergeLeft index
  let count ← .get fun set => set.count
  mergeRight index count

def insertAt (index : Nat) (range : BdfRange) : Effect (BdfRangeSet N) BdfRangeSetError Unit := do
  let count ← .get fun set => set.count
  if count = N then .fail .full
  else do
    .modify fun set => { set with windows := shiftUp index set.count set.windows }
    .modify (setWindow index range)
    .modify fun set => { set with count := set.count + 1 }
    mergeAround index

/-- The search loop of `insert`, with `remaining` windows left to look at from `index` on. -/
def insertFrom (range : BdfRange) : Nat → Nat → Effect (BdfRangeSet N) BdfRangeSetError Unit
  | 0, _ => do
      let count ← .get fun set => set.count
      insertAt count range
  | remaining + 1, index => do
      let current ← .get fun set => set.windows index
      if range.start.asU32 ≥ current.start.asU32 ∧ range.endExclusive ≤ current.endExclusive then
        pure ()
      else if range.start.asU32 ≤ current.endExclusive ∧
          range.endExclusive ≥ current.start.asU32 then do
        let merged ← checkedBounds (min current.start.asU32 range.start.asU32)
          (max current.endExclusive range.endExclusive)
        .modify (setWindow index merged)
        mergeAround index
      else if range.start.asU32 < current.start.asU32 then insertAt index range
      else insertFrom range remaining (index + 1)

def insert (range : BdfRange) : Effect (BdfRangeSet N) BdfRangeSetError Unit := do
  if range.isEmpty then pure ()
  else do
    let count ← .get fun set => set.count
    insertFrom range count 0

def insertSingle (bdf : Bdf) : Effect (BdfRangeSet N) BdfRangeSetError Unit :=
  insert (.single bdf)

def ofList (ranges : List BdfRange) : BdfRangeSet N :=
  ⟨fun index => ranges[index]?.getD .EMPTY, ranges.length⟩

theorem shiftUp_apply (index cursor : Nat) (windows : Nat → BdfRange) (query : Nat) :
    shiftUp index cursor windows query =
      if index < query ∧ query ≤ cursor then windows (query - 1) else windows query := by
  induction cursor generalizing windows with
  | zero => rw [shiftUp, if_neg (by omega)]
  | succ cursor ih =>
      rw [shiftUp]
      by_cases moving : cursor + 1 > index
      · rw [if_pos moving, ih]
        by_cases top : query = cursor + 1
        · subst query
          rw [if_neg (by omega), if_pos (by omega)]
          simp
        · rw [Function.update_of_ne top]
          by_cases inside : index < query ∧ query ≤ cursor
          · rw [if_pos inside, if_pos (by omega), Function.update_of_ne (by omega)]
          · rw [if_neg inside, if_neg (by omega)]
      · rw [if_neg moving, if_neg (by omega)]

theorem shiftDown_apply {count steps cursor : Nat} (enough : count ≤ cursor + 1 + steps)
    (windows : Nat → BdfRange) (query : Nat) :
    shiftDown count steps cursor windows query =
      if cursor ≤ query ∧ query + 1 < count then windows (query + 1) else windows query := by
  induction steps generalizing cursor windows with
  | zero => rw [shiftDown, if_neg (by omega)]
  | succ steps ih =>
      rw [shiftDown]
      by_cases moving : cursor + 1 < count
      · rw [if_pos moving, ih (by omega)]
        by_cases bottom : query = cursor
        · subst query
          rw [if_neg (by omega), if_pos (by omega)]
          simp
        · rw [Function.update_of_ne bottom]
          by_cases inside : cursor + 1 ≤ query ∧ query + 1 < count
          · rw [if_pos inside, if_pos (by omega), Function.update_of_ne (by omega)]
          · rw [if_neg inside, if_neg (by omega)]
      · rw [if_neg moving, if_neg (by omega)]

theorem ofList_window (low : List BdfRange) (first : BdfRange) (high : List BdfRange) :
    (ofList (low ++ first :: high) : BdfRangeSet N).windows low.length = first := by
  simp [ofList]

theorem ofList_nextWindow (low : List BdfRange) (first second : BdfRange) (high : List BdfRange) :
    (ofList (low ++ first :: second :: high) : BdfRangeSet N).windows (low.length + 1) = second := by
  simp [ofList]

theorem getElem?_after (low : List BdfRange) (first : BdfRange) (high : List BdfRange)
    (offset : Nat) : (low ++ first :: high)[low.length + (offset + 1)]? = high[offset]? := by
  rw [List.getElem?_append_right (Nat.le_add_right _ _), Nat.add_sub_cancel_left,
    List.getElem?_cons_succ]

theorem setWindow_ofList (low : List BdfRange) (old range : BdfRange) (high : List BdfRange) :
    setWindow low.length range (ofList (low ++ old :: high) : BdfRangeSet N) =
      ofList (low ++ range :: high) := by
  simp only [setWindow, ofList, mk.injEq, List.length_append, List.length_cons, and_true]
  funext query
  by_cases own : query = low.length
  · subst own
    simp
  · rw [Function.update_of_ne own]
    rcases Nat.lt_or_gt_of_ne own with before | after
    · rw [List.getElem?_append_left before, List.getElem?_append_left before]
    · obtain ⟨offset, rfl⟩ := Nat.exists_eq_add_of_lt after
      rw [Nat.add_assoc, getElem?_after, getElem?_after]

theorem remove_ofList (low : List BdfRange) (old : BdfRange) (high : List BdfRange) :
    remove low.length (ofList (low ++ old :: high) : BdfRangeSet N) =
      (.ok (), ofList (low ++ high)) := by
  rw [remove, Effect.modify_apply]
  congr 1
  simp only [ofList, mk.injEq, List.length_append, List.length_cons]
  refine ⟨?_, by omega⟩
  funext query
  by_cases last : query = low.length + (high.length + 1) - 1
  · subst last
    simp
  · rw [Function.update_of_ne last, shiftDown_apply (by omega)]
    rcases Nat.lt_or_ge query low.length with before | after
    · rw [if_neg (by omega), List.getElem?_append_left before, List.getElem?_append_left before]
    · obtain ⟨offset, rfl⟩ := Nat.exists_eq_add_of_le after
      by_cases inside : offset < high.length
      · rw [if_pos (by omega), Nat.add_assoc, getElem?_after,
          List.getElem?_append_right after, Nat.add_sub_cancel_left]
      · rw [if_neg (by omega), List.getElem?_eq_none (by simp; omega),
          List.getElem?_eq_none (by simp; omega)]

theorem shiftUp_ofList (low high : List BdfRange) (range : BdfRange) :
    ({ windows := Function.update
          (shiftUp low.length (low ++ high).length (ofList (low ++ high) : BdfRangeSet N).windows)
          low.length range
       count := (low ++ high).length + 1 } : BdfRangeSet N) = ofList (low ++ range :: high) := by
  simp only [ofList, mk.injEq, List.length_append, List.length_cons]
  refine ⟨?_, by omega⟩
  funext query
  by_cases own : query = low.length
  · subst own
    simp
  · rw [Function.update_of_ne own, shiftUp_apply]
    rcases Nat.lt_or_gt_of_ne own with before | after
    · rw [if_neg (by omega), List.getElem?_append_left before, List.getElem?_append_left before]
    · obtain ⟨offset, rfl⟩ := Nat.exists_eq_add_of_lt after
      rw [Nat.add_assoc, getElem?_after]
      by_cases inside : offset < high.length
      · rw [if_pos (by omega), ← Nat.add_assoc, Nat.add_sub_cancel,
          List.getElem?_append_right (Nat.le_add_right _ _), Nat.add_sub_cancel_left]
      · rw [if_neg (by omega), List.getElem?_eq_none (by simp; omega),
          List.getElem?_eq_none (by omega)]

theorem mergePair_apart {low high : List BdfRange} {first second : BdfRange}
    (apart : first.span.Before second.span) :
    mergePair low.length (low.length + 1)
        (ofList (low ++ first :: second :: high) : BdfRangeSet N) =
      (.ok false, ofList (low ++ first :: second :: high)) := by
  have gap : second.start.asU32 > first.endExclusive := apart
  rw [mergePair, Effect.bind_of_ok (Effect.get_apply _ _), Effect.bind_of_ok (Effect.get_apply _ _),
    ofList_window, ofList_nextWindow, if_pos gap, Effect.pure_apply]

theorem checkedBounds_ok (start endExclusive : Nat) (first : start ≤ 0xffff)
    (last : endExclusive ≤ 0x10000) (ordered : start ≤ endExclusive) (set : BdfRangeSet N) :
    ∃ range, checkedBounds start endExclusive set = (.ok range, set) ∧
      range.span = ⟨start, endExclusive⟩ := by
  obtain ⟨range, accepted, span⟩ := BdfRange.fromBounds_of_bounds first last ordered
  refine ⟨range, ?_, span⟩
  rw [checkedBounds, accepted]
  rfl

theorem mergePair_joins (low high : List BdfRange) {first second : BdfRange}
    (starts : first.start.asU32 ≤ second.start.asU32)
    (reaches : second.start.asU32 ≤ first.endExclusive) :
    ∃ merged, merged.span = first.span.join second.span ∧
      mergePair low.length (low.length + 1)
          (ofList (low ++ first :: second :: high) : BdfRangeSet N) =
        (.ok true, ofList (low ++ merged :: high)) := by
  have firstBounded := first.bounded
  have secondBounded := second.bounded
  have firstOrdered := first.ordered
  have startBounded := first.start.asU32_lt
  obtain ⟨merged, checked, span⟩ := checkedBounds_ok first.start.asU32
    (max first.endExclusive second.endExclusive) (by omega) (by omega) (by omega)
    (ofList (low ++ first :: second :: high) : BdfRangeSet N)
  refine ⟨merged, ?_, ?_⟩
  · rw [span, Span.join]
    congr 1
    exact (Nat.min_eq_left starts).symm
  · have removed := remove_ofList (N := N) (low ++ [merged]) second high
    rw [List.length_append, List.length_singleton, List.append_assoc, List.append_assoc,
      List.singleton_append, List.singleton_append] at removed
    rw [mergePair, Effect.bind_of_ok (Effect.get_apply _ _),
      Effect.bind_of_ok (Effect.get_apply _ _), ofList_window, ofList_nextWindow,
      if_neg (by omega), Effect.bind_of_ok checked, Effect.bind_of_ok (Effect.modify_apply _ _),
      setWindow_ofList, Effect.bind_of_ok removed, Effect.pure_apply]

def spans (ranges : List BdfRange) : List (Span Nat) := ranges.map BdfRange.span

theorem separated_nil : Span.Separated (spans []) := ⟨by simp [spans], List.Pairwise.nil⟩

theorem mergeRight_ofList (low : List BdfRange) {high : List BdfRange} {window : BdfRange}
    {turns : Nat} (enough : high.length ≤ turns)
    (starts : ∀ next ∈ high, window.start.asU32 ≤ next.start.asU32) :
    ∃ merged, spans merged = Span.insert window.span (spans high) ∧
      mergeRight low.length turns (ofList (low ++ window :: high) : BdfRangeSet N) =
        (.ok (), ofList (low ++ merged)) := by
  induction high generalizing window turns with
  | nil =>
      refine ⟨[window], rfl, ?_⟩
      cases turns with
      | zero => rfl
      | succ turns =>
          rw [mergeRight, Effect.bind_of_ok (Effect.get_apply _ _), if_neg (by simp [ofList])]
          rfl
  | cons next rest ih =>
      obtain ⟨turns, rfl⟩ := Nat.exists_eq_succ_of_ne_zero (Nat.ne_of_gt (Nat.lt_of_lt_of_le
        (Nat.succ_pos rest.length) enough))
      obtain ⟨nextStart, restStarts⟩ := List.forall_mem_cons.mp starts
      have more : low.length + 1 <
          (ofList (low ++ window :: next :: rest) : BdfRangeSet N).count := by
        simp [ofList]
      rw [mergeRight, Effect.bind_of_ok (Effect.get_apply _ _), if_pos more]
      by_cases apart : window.span.Before next.span
      · refine ⟨window :: next :: rest, ?_, ?_⟩
        · rw [spans, spans, List.map_cons, List.map_cons, Span.insert, if_pos apart]
        · rw [Effect.bind_of_ok (mergePair_apart apart)]
          rfl
      · have reaches : next.start.asU32 ≤ window.endExclusive := Nat.le_of_not_lt apart
        have notBehind : ¬next.span.Before window.span := by
          have ordered := next.ordered
          exact fun behind => absurd (show next.endExclusive < window.start.asU32 from behind)
            (by omega)
        obtain ⟨joined, joinedSpan, ran⟩ := mergePair_joins (N := N) low rest
          nextStart reaches
        have joinedStart : joined.start.asU32 = window.start.asU32 := by
          have start := congrArg Span.start joinedSpan
          exact start.trans (Nat.min_eq_left nextStart)
        obtain ⟨merged, mergedSpans, finished⟩ := ih
          (Nat.le_of_succ_le_succ enough) (fun later member => joinedStart ▸ restStarts later member)
        refine ⟨merged, ?_, ?_⟩
        · rw [mergedSpans, joinedSpan, Span.join_comm]
          rw [spans, spans, List.map_cons, Span.insert, if_neg apart, if_neg notBehind]
        · rw [Effect.bind_of_ok ran]
          exact finished

theorem mergeLeft_ofList {low high : List BdfRange} {window : BdfRange}
    (before : ∀ member ∈ low, member.span.Before window.span) :
    mergeLeft low.length (ofList (low ++ window :: high) : BdfRangeSet N) =
      (.ok low.length, ofList (low ++ window :: high)) := by
  rcases List.eq_nil_or_concat low with rfl | ⟨init, last, rfl⟩
  · rfl
  · have apart := before last (by simp)
    rw [List.concat_eq_append, List.append_assoc, List.singleton_append, List.length_append,
      List.length_singleton, mergeLeft, Effect.bind_of_ok (mergePair_apart apart)]
    rfl

theorem mergeAround_ofList {low high : List BdfRange} {window : BdfRange}
    (before : ∀ member ∈ low, member.span.Before window.span)
    (starts : ∀ next ∈ high, window.start.asU32 ≤ next.start.asU32) :
    ∃ merged, spans merged = Span.insert window.span (spans high) ∧
      mergeAround low.length (ofList (low ++ window :: high) : BdfRangeSet N) =
        (.ok (), ofList (low ++ merged)) := by
  obtain ⟨merged, mergedSpans, ran⟩ := mergeRight_ofList (N := N) low
    (show high.length ≤ (low ++ window :: high).length by simp; omega) starts
  refine ⟨merged, mergedSpans, ?_⟩
  rw [mergeAround, Effect.bind_of_ok (mergeLeft_ofList before),
    Effect.bind_of_ok (Effect.get_apply _ _)]
  exact ran

theorem insertAt_full {ranges : List BdfRange} (full : ranges.length = N) (index : Nat)
    (range : BdfRange) :
    insertAt index range (ofList ranges : BdfRangeSet N) = (.error .full, ofList ranges) := by
  rw [insertAt, Effect.bind_of_ok (Effect.get_apply _ _), if_pos (by simpa [ofList] using full),
    Effect.fail_apply]

theorem insertAt_ofList {low high : List BdfRange} {range : BdfRange}
    (room : (low ++ high).length ≠ N) (before : ∀ member ∈ low, member.span.Before range.span)
    (starts : ∀ next ∈ high, range.start.asU32 ≤ next.start.asU32) :
    ∃ merged, spans merged = Span.insert range.span (spans high) ∧
      insertAt low.length range (ofList (low ++ high) : BdfRangeSet N) =
        (.ok (), ofList (low ++ merged)) := by
  obtain ⟨merged, mergedSpans, ran⟩ := mergeAround_ofList (N := N) before starts
  refine ⟨merged, mergedSpans, ?_⟩
  rw [insertAt, Effect.bind_of_ok (Effect.get_apply _ _), if_neg (by simpa [ofList] using room),
    Effect.bind_of_ok (Effect.modify_apply _ _), Effect.bind_of_ok (Effect.modify_apply _ _),
    Effect.bind_of_ok (Effect.modify_apply _ _), ← ran, ← shiftUp_ofList low high range]
  rfl

def Inserts (N : Nat) (range : BdfRange) (low high : List BdfRange) : Prop :=
  ∃ merged, spans merged = Span.insert range.span (spans high) ∧
    insertFrom range high.length low.length (ofList (low ++ high) : BdfRangeSet N) =
      (.ok (), ofList (low ++ merged))

section Search

variable {low rest : List BdfRange} {range current : BdfRange}

theorem inserts_of_contained (proper : range.span.Proper)
    (later : ∀ next ∈ spans rest, current.span.Before next)
    (contained : range.start.asU32 ≥ current.start.asU32 ∧
      range.endExclusive ≤ current.endExclusive) : Inserts N range low (current :: rest) := by
  have filled : range.start.asU32 < range.endExclusive := proper
  have notAhead : ¬range.span.Before current.span := by
    simp only [Span.Before, BdfRange.span]
    omega
  have notBehind : ¬current.span.Before range.span := by
    simp only [Span.Before, BdfRange.span]
    omega
  refine ⟨current :: rest, ?_, ?_⟩
  · rw [spans, List.map_cons, Span.insert, if_neg notAhead, if_neg notBehind,
      Span.join_of_contained contained.1 contained.2]
    exact (Span.insert_of_before later).symm
  · rw [List.length_cons, insertFrom, Effect.bind_of_ok (Effect.get_apply _ _), ofList_window,
      if_pos contained, Effect.pure_apply]

theorem inserts_of_touching (before : ∀ member ∈ low, member.span.Before range.span)
    (ahead : ∀ member ∈ low, member.span.Before current.span)
    (starts : ∀ next ∈ rest, current.start.asU32 ≤ next.start.asU32)
    (notContained : ¬(range.start.asU32 ≥ current.start.asU32 ∧
      range.endExclusive ≤ current.endExclusive))
    (touching : range.span.Touches current.span) : Inserts N range low (current :: rest) := by
  have bounds := current.bounded
  have rangeBounds := range.bounded
  have start := current.start.asU32_lt
  have ordered := current.ordered
  have apart := Span.not_before_iff_touches.mpr touching
  obtain ⟨joined, checked, joinedSpan⟩ := checkedBounds_ok
    (min current.start.asU32 range.start.asU32) (max current.endExclusive range.endExclusive)
    (by omega) (by omega) (by omega) (ofList (low ++ current :: rest) : BdfRangeSet N)
  have joinedStart : joined.start.asU32 = min current.start.asU32 range.start.asU32 :=
    congrArg Span.start joinedSpan
  have joinedBefore : ∀ member ∈ low, member.span.Before joined.span := by
    intro member found
    show member.endExclusive < joined.start.asU32
    rw [joinedStart]
    exact lt_min (ahead member found) (before member found)
  have joinedStarts : ∀ next ∈ rest, joined.start.asU32 ≤ next.start.asU32 := by
    intro next member
    have later := starts next member
    omega
  obtain ⟨merged, mergedSpans, ran⟩ := mergeAround_ofList (N := N) joinedBefore joinedStarts
  refine ⟨merged, ?_, ?_⟩
  · rw [mergedSpans, joinedSpan, spans, spans, List.map_cons, Span.insert, if_neg apart.1,
      if_neg apart.2]
    rfl
  · have overlaps : range.start.asU32 ≤ current.endExclusive ∧
        range.endExclusive ≥ current.start.asU32 := touching
    rw [List.length_cons, insertFrom, Effect.bind_of_ok (Effect.get_apply _ _), ofList_window,
      if_neg notContained, if_pos overlaps, Effect.bind_of_ok checked,
      Effect.bind_of_ok (Effect.modify_apply _ _), setWindow_ofList]
    exact ran

theorem insertFrom_apart (low : List BdfRange) (proper : range.span.Proper)
    (apart : ¬range.span.Touches current.span) (set : BdfRangeSet N)
    (window : set.windows low.length = current) (remaining : Nat) :
    (range.span.Before current.span ∧
      insertFrom range (remaining + 1) low.length set = insertAt low.length range set) ∨
    (current.span.Before range.span ∧ insertFrom range (remaining + 1) low.length set =
      insertFrom range remaining (low.length + 1) set) := by
  have filled : range.start.asU32 < range.endExclusive := proper
  have ordered := current.ordered
  have notTouching : ¬(range.start.asU32 ≤ current.endExclusive ∧
      range.endExclusive ≥ current.start.asU32) := apart
  have notContained : ¬(range.start.asU32 ≥ current.start.asU32 ∧
      range.endExclusive ≤ current.endExclusive) := by omega
  rw [insertFrom, Effect.bind_of_ok (Effect.get_apply _ _), window, if_neg notContained,
    if_neg notTouching]
  simp only [Span.Before, BdfRange.span]
  by_cases first : range.start.asU32 < current.start.asU32
  · exact Or.inl ⟨by omega, by rw [if_pos first]⟩
  · exact Or.inr ⟨by omega, by rw [if_neg first]⟩

end Search

theorem insertFrom_ok (low : List BdfRange) {high : List BdfRange} {range : BdfRange}
    (proper : range.span.Proper)
    (separated : Span.Separated (spans high))
    (before : ∀ member ∈ low, member.span.Before range.span)
    (ahead : ∀ member ∈ low, ∀ next ∈ high, member.span.Before next.span)
    (place : (∃ member ∈ high, range.span.Touches member.span) ∨ (low ++ high).length ≠ N) :
    Inserts N range low high := by
  induction high generalizing low with
  | nil =>
      have room := place.resolve_left (by simp)
      obtain ⟨merged, mergedSpans, ran⟩ := insertAt_ofList (N := N) room before
        (show ∀ next ∈ ([] : List BdfRange), range.start.asU32 ≤ next.start.asU32 by simp)
      refine ⟨merged, mergedSpans, ?_⟩
      rw [List.length_nil, insertFrom, Effect.bind_of_ok (Effect.get_apply _ _)]
      rw [List.append_nil] at ran ⊢
      exact ran
  | cons current rest ih =>
      have currentProper := separated.1 _ List.mem_cons_self
      have later : ∀ next ∈ rest, current.span.Before next.span := fun next member =>
        separated.before _ (List.mem_map_of_mem member)
      by_cases contained : range.start.asU32 ≥ current.start.asU32 ∧
          range.endExclusive ≤ current.endExclusive
      · exact inserts_of_contained proper separated.before contained
      by_cases touching : range.span.Touches current.span
      · refine inserts_of_touching before
          (fun member found => ahead member found current List.mem_cons_self) ?_ contained touching
        exact fun next member => Nat.le_of_lt (Nat.lt_trans currentProper (later next member))
      rcases insertFrom_apart low proper touching
        (ofList (low ++ current :: rest) : BdfRangeSet N) (ofList_window low current rest)
        rest.length with ⟨gap, here⟩ | ⟨gap, further⟩
      · have allAhead : ∀ next ∈ current :: rest, range.span.Before next.span :=
          List.forall_mem_cons.mpr
            ⟨gap, fun next member => gap.trans currentProper (later next member)⟩
        have room := place.resolve_left fun ⟨member, found, touches⟩ =>
          (Span.not_before_iff_touches.mpr touches).1 (allAhead member found)
        obtain ⟨merged, mergedSpans, ran⟩ := insertAt_ofList (N := N) room before
          (fun next member => Nat.le_trans (Nat.le_of_lt proper)
            (Nat.le_of_lt (allAhead next member)))
        exact ⟨merged, mergedSpans, here.trans ran⟩
      · have passed : ∀ member ∈ low ++ [current], member.span.Before range.span := by
          simpa [or_imp, forall_and] using And.intro before gap
        have passedAhead : ∀ member ∈ low ++ [current], ∀ next ∈ rest,
            member.span.Before next.span := by
          intro member found next nextFound
          rcases List.mem_append.mp found with earlier | own
          · exact ahead member earlier next (List.mem_cons_of_mem _ nextFound)
          · rw [List.mem_singleton.mp own]
            exact later next nextFound
        have nextPlace : (∃ member ∈ rest, range.span.Touches member.span) ∨
            (low ++ [current] ++ rest).length ≠ N := by
          rcases place with ⟨member, found, touches⟩ | room
          · rcases List.mem_cons.mp found with rfl | behind
            · exact absurd touches touching
            · exact Or.inl ⟨member, behind, touches⟩
          · exact Or.inr (by simpa using room)
        obtain ⟨merged, mergedSpans, ran⟩ := ih (low ++ [current])
          separated.tail passed passedAhead nextPlace
        have notAhead : ¬range.span.Before current.span := fun front =>
          lt_asymm (lt_trans gap proper) (lt_trans front currentProper)
        rw [List.append_assoc, List.singleton_append, List.length_append,
          List.length_singleton] at ran
        refine ⟨current :: merged, ?_, ?_⟩
        · rw [spans, List.map_cons, spans, List.map_cons, Span.insert, if_neg notAhead, if_pos gap]
          exact congrArg _ mergedSpans
        · rw [List.length_cons, further, ran, List.append_assoc, List.singleton_append]

theorem insertFrom_full (low : List BdfRange) {high : List BdfRange} {range : BdfRange}
    (proper : range.span.Proper)
    (apart : ∀ member ∈ high, ¬range.span.Touches member.span) (full : (low ++ high).length = N) :
    insertFrom range high.length low.length (ofList (low ++ high) : BdfRangeSet N) =
      (.error .full, ofList (low ++ high)) := by
  induction high generalizing low with
  | nil =>
      rw [List.length_nil, insertFrom, Effect.bind_of_ok (Effect.get_apply _ _)]
      exact insertAt_full full _ range
  | cons current rest ih =>
      obtain ⟨separate, restApart⟩ := List.forall_mem_cons.mp apart
      rcases insertFrom_apart low proper separate
        (ofList (low ++ current :: rest) : BdfRangeSet N) (ofList_window low current rest)
        rest.length with ⟨_, here⟩ | ⟨_, further⟩
      · exact here.trans (insertAt_full full _ range)
      · have next := ih (low ++ [current]) restApart (by simpa using full)
        rw [List.append_assoc, List.singleton_append, List.length_append,
          List.length_singleton] at next
        exact further.trans next

structure Canonical (set : BdfRangeSet N) : Prop where
  capacity : set.count ≤ N
  proper : ∀ index < set.count,
    (set.windows index).start.asU32 < (set.windows index).endExclusive
  bounded : ∀ index < set.count, (set.windows index).endExclusive ≤ 0x10000
  gaps : ∀ first second, first < second → second < set.count →
    (set.windows first).endExclusive < (set.windows second).start.asU32
  unused : ∀ index, set.count ≤ index → set.windows index = .EMPTY

def Contains (set : BdfRangeSet N) (bdf : Bdf) : Prop :=
  ∃ index < set.count, (set.windows index).contains bdf = true

def Touched (set : BdfRangeSet N) (range : BdfRange) : Prop :=
  ∃ index < set.count, range.start.asU32 ≤ (set.windows index).endExclusive ∧
    (set.windows index).start.asU32 ≤ range.endExclusive

theorem exists_window_iff (ranges : List BdfRange) (property : BdfRange → Prop) :
    (∃ index < (ofList ranges : BdfRangeSet N).count,
      property ((ofList ranges : BdfRangeSet N).windows index)) ↔
        ∃ range ∈ ranges, property range := by
  constructor
  · rintro ⟨index, below, holds⟩
    have inside : index < ranges.length := below
    refine ⟨ranges[index], List.getElem_mem inside, ?_⟩
    simpa [ofList, inside] using holds
  · rintro ⟨range, member, holds⟩
    obtain ⟨index, inside, rfl⟩ := List.getElem_of_mem member
    exact ⟨index, inside, by simpa [ofList, inside] using holds⟩

theorem contains_ofList (ranges : List BdfRange) (bdf : Bdf) :
    Contains (ofList ranges : BdfRangeSet N) bdf ↔ Span.Covers (spans ranges) bdf.asU32 := by
  rw [Contains, exists_window_iff ranges fun range => range.contains bdf = true]
  simp [Span.Covers, spans, BdfRange.contains_iff]

theorem touched_ofList (ranges : List BdfRange) (range : BdfRange) :
    Touched (ofList ranges : BdfRangeSet N) range ↔
      ∃ member ∈ ranges, range.span.Touches member.span :=
  exists_window_iff ranges fun member => range.span.Touches member.span

theorem canonical_ofList {ranges : List BdfRange} (separated : Span.Separated (spans ranges))
    (capacity : ranges.length ≤ N) : Canonical (ofList ranges : BdfRangeSet N) := by
  have window (index : Nat) (inside : index < ranges.length) :
      (ofList ranges : BdfRangeSet N).windows index = ranges[index] := by
    simp [ofList, inside]
  constructor
  · exact capacity
  · intro index inside
    rw [window index inside]
    exact separated.1 _ (List.mem_map_of_mem (List.getElem_mem inside))
  · intro index inside
    exact ((ofList ranges : BdfRangeSet N).windows index).bounded
  · intro first second ordered inside
    have secondInside : second < ranges.length := inside
    have firstInside : first < ranges.length := Nat.lt_trans ordered inside
    rw [window first firstInside, window second secondInside]
    have apart := List.pairwise_iff_getElem.mp separated.2 first second
      (by simpa [spans] using firstInside) (by simpa [spans] using secondInside) ordered
    simp only [spans, List.getElem_map] at apart
    exact apart
  · intro index outside
    exact congrArg (·.getD BdfRange.EMPTY) (List.getElem?_eq_none outside)

section Insert

variable {ranges : List BdfRange} {range : BdfRange}

theorem insert_empty (vacant : range.isEmpty = true) (set : BdfRangeSet N) :
    insert range set = (.ok (), set) := by
  rw [insert, if_pos vacant, Effect.pure_apply]

theorem insert_ok (filled : range.isEmpty = false) (separated : Span.Separated (spans ranges))
    (place : (∃ member ∈ ranges, range.span.Touches member.span) ∨ ranges.length ≠ N) :
    ∃ merged, spans merged = Span.insert range.span (spans ranges) ∧
      insert range (ofList ranges : BdfRangeSet N) = (.ok (), ofList merged) := by
  obtain ⟨merged, mergedSpans, ran⟩ := insertFrom_ok (N := N) []
    (BdfRange.span_proper filled) separated (by simp) (by simp) place
  refine ⟨merged, mergedSpans, ?_⟩
  rw [insert, if_neg (by simp [filled]), Effect.bind_of_ok (Effect.get_apply _ _)]
  exact ran

theorem insert_full (filled : range.isEmpty = false)
    (apart : ∀ member ∈ ranges, ¬range.span.Touches member.span) (full : ranges.length = N) :
    insert range (ofList ranges : BdfRangeSet N) = (.error .full, ofList ranges) := by
  rw [insert, if_neg (by simp [filled]), Effect.bind_of_ok (Effect.get_apply _ _)]
  exact insertFrom_full [] (BdfRange.span_proper filled) apart full

theorem insert_preserves (range : BdfRange) (separated : Span.Separated (spans ranges))
    (capacity : ranges.length ≤ N) :
    ∃ next, (insert range (ofList ranges : BdfRangeSet N)).2 = ofList next ∧
      Span.Separated (spans next) ∧ next.length ≤ N ∧
      ∀ point, Span.Covers (spans next) point ↔
        ((insert range (ofList ranges : BdfRangeSet N)).1 = .ok () ∧ range.span.Contains point) ∨
          Span.Covers (spans ranges) point := by
  cases vacant : range.isEmpty with
  | true =>
      rw [insert_empty vacant]
      refine ⟨ranges, rfl, separated, capacity, fun point => ?_⟩
      have nothing : ¬range.span.Contains point := by
        simp only [BdfRange.isEmpty, decide_eq_true_eq] at vacant
        simp only [Span.Contains, BdfRange.span]
        omega
      simp [nothing]
  | false =>
      by_cases place : (∃ member ∈ ranges, range.span.Touches member.span) ∨ ranges.length ≠ N
      · obtain ⟨merged, mergedSpans, ran⟩ := insert_ok vacant separated place
        have proper := BdfRange.span_proper vacant
        rw [ran]
        refine ⟨merged, rfl, mergedSpans ▸ Span.separated_insert proper separated, ?_, ?_⟩
        · have lengths : merged.length = (Span.insert range.span (spans ranges)).length := by
            rw [← mergedSpans, spans, List.length_map]
          have before : (spans ranges).length = ranges.length := List.length_map _
          rw [lengths]
          rcases place with ⟨member, found, touches⟩ | room
          · have joined := Span.insert_length_of_touches separated
              ⟨member.span, List.mem_map_of_mem found, touches⟩
            omega
          · have grown := Span.insert_length_le range.span (spans ranges)
            omega
        · intro point
          rw [mergedSpans, Span.covers_insert]
          simp
      · obtain ⟨apart, full⟩ := not_or.mp place
        rw [insert_full vacant (fun member found touches => apart ⟨member, found, touches⟩)
          (not_not.mp full)]
        exact ⟨ranges, rfl, separated, capacity, fun point => by simp⟩

theorem insert_refused (separated : Span.Separated (spans ranges)) :
    (∀ error, (insert range (ofList ranges : BdfRangeSet N)).1 = .error error →
      error = .full ∧ (insert range (ofList ranges : BdfRangeSet N)).2 = ofList ranges) ∧
    ((insert range (ofList ranges : BdfRangeSet N)).1 = .error .full ↔
      range.isEmpty = false ∧ (ofList ranges : BdfRangeSet N).count = N ∧
        ¬Touched (ofList ranges : BdfRangeSet N) range) := by
  rw [touched_ofList]
  cases vacant : range.isEmpty with
  | true =>
      rw [insert_empty vacant]
      simp
  | false =>
      by_cases place : (∃ member ∈ ranges, range.span.Touches member.span) ∨ ranges.length ≠ N
      · obtain ⟨merged, _, ran⟩ := insert_ok vacant separated place
        rw [ran]
        refine ⟨fun error failed => by contradiction, fun failed => by contradiction, ?_⟩
        rintro ⟨_, full, apart⟩
        exact absurd place (not_or.mpr ⟨apart, not_not.mpr full⟩)
      · obtain ⟨apart, full⟩ := not_or.mp place
        rw [insert_full vacant (fun member found touches => apart ⟨member, found, touches⟩)
          (not_not.mp full)]
        refine ⟨fun error failed => ⟨(Except.error.inj failed).symm, rfl⟩, fun _ => ?_, fun _ => rfl⟩
        exact ⟨rfl, not_not.mp full, apart⟩

end Insert

def insertAll : List BdfRange → BdfRangeSet N → List BdfRange × BdfRangeSet N
  | [], set => ([], set)
  | range :: rest, set =>
      let (outcome, after) := insert range set
      let (accepted, final) := insertAll rest after
      (match outcome with
        | .ok () => range :: accepted
        | .error _ => accepted, final)

theorem insertAll_preserves (start : List BdfRange) (separated : Span.Separated (spans start))
    (capacity : start.length ≤ N) (ranges : List BdfRange) :
    ∃ final, (insertAll ranges (ofList start : BdfRangeSet N)).2 = ofList final ∧
      Span.Separated (spans final) ∧ final.length ≤ N ∧
      ∀ point, Span.Covers (spans final) point ↔
        (∃ range ∈ (insertAll ranges (ofList start : BdfRangeSet N)).1,
          range.span.Contains point) ∨ Span.Covers (spans start) point := by
  induction ranges generalizing start with
  | nil => exact ⟨start, rfl, separated, capacity, fun point => by simp [insertAll]⟩
  | cons range rest ih =>
      obtain ⟨next, moved, nextSeparated, nextCapacity, nextCovers⟩ :=
        insert_preserves range separated capacity
      obtain ⟨final, reached, finalSeparated, finalCapacity, finalCovers⟩ :=
        ih next nextSeparated nextCapacity
      rcases ran : insert range (ofList start : BdfRangeSet N) with ⟨outcome, after⟩
      rw [ran] at moved nextCovers
      obtain rfl : after = ofList next := moved
      refine ⟨final, ?_, finalSeparated, finalCapacity, fun point => ?_⟩
      · simp only [insertAll, ran]
        exact reached
      · rw [finalCovers, nextCovers]
        simp only [insertAll, ran]
        cases outcome with
        | ok value =>
            simp only [List.mem_cons, exists_eq_or_imp, true_and]
            exact or_left_comm.trans or_assoc.symm
        | error error => simp

/-- After any inserts the set is canonical and holds exactly the accepted ranges; the next insert
is refused, without effect, exactly when a non-empty range needs a window and none is left. -/
theorem insertAll_faithful (ranges : List BdfRange) :
    Canonical (insertAll ranges (empty : BdfRangeSet N)).2 ∧
    (∀ bdf, Contains (insertAll ranges (empty : BdfRangeSet N)).2 bdf ↔
      ∃ range ∈ (insertAll ranges (empty : BdfRangeSet N)).1, range.contains bdf = true) ∧
    ∀ range : BdfRange,
      (∀ error, (insert range (insertAll ranges (empty : BdfRangeSet N)).2).1 = .error error →
        error = .full ∧ (insert range (insertAll ranges (empty : BdfRangeSet N)).2).2 =
          (insertAll ranges empty).2) ∧
      ((insert range (insertAll ranges (empty : BdfRangeSet N)).2).1 = .error .full ↔
        range.isEmpty = false ∧ (insertAll ranges (empty : BdfRangeSet N)).2.count = N ∧
          ¬Touched (insertAll ranges (empty : BdfRangeSet N)).2 range) := by
  have start : (empty : BdfRangeSet N) = ofList [] := rfl
  obtain ⟨final, reached, separated, capacity, covers⟩ := insertAll_preserves (N := N) []
    separated_nil (Nat.zero_le N) ranges
  rw [start, reached]
  refine ⟨canonical_ofList separated capacity, fun bdf => ?_, fun range => ?_⟩
  · rw [contains_ofList, covers]
    simp [Span.Covers, spans, BdfRange.contains_iff]
  · exact insert_refused separated

def insertEach : List BdfRange → Effect (BdfRangeSet N) BdfRangeSetError Unit
  | [] => pure ()
  | range :: rest => do
      insert range
      insertEach rest

theorem insertEach_append (first second : List BdfRange) (set : BdfRangeSet N) :
    insertEach (first ++ second) set =
      (insertEach first >>= fun _ => insertEach second) set := by
  induction first generalizing set with
  | nil => rfl
  | cons range rest ih =>
      rw [List.cons_append, insertEach, insertEach, Effect.bind_apply, Effect.bind_apply,
        Effect.bind_apply]
      rcases insert range set with ⟨outcome, after⟩
      cases outcome with
      | error error => rfl
      | ok value => exact ih after

theorem insertEach_preserves {start : List BdfRange} (separated : Span.Separated (spans start))
    (capacity : start.length ≤ N) {ranges : List BdfRange} {final : BdfRangeSet N}
    (ran : insertEach ranges (ofList start : BdfRangeSet N) = (.ok (), final)) :
    ∃ held, final = ofList held ∧ ∀ point, Span.Covers (spans held) point ↔
      (∃ range ∈ ranges, range.span.Contains point) ∨ Span.Covers (spans start) point := by
  induction ranges generalizing start with
  | nil =>
      cases ran
      exact ⟨start, rfl, fun point => by simp⟩
  | cons range rest ih =>
      obtain ⟨value, middle, inserted, others⟩ := Effect.bind_eq_ok.mp ran
      obtain ⟨next, moved, nextSeparated, nextCapacity, nextCovers⟩ :=
        insert_preserves range separated capacity
      rw [inserted] at moved nextCovers
      obtain rfl : middle = ofList next := moved
      obtain ⟨held, reached, covers⟩ := ih nextSeparated nextCapacity others
      refine ⟨held, reached, fun point => ?_⟩
      rw [covers, nextCovers]
      simp only [true_and, List.mem_cons, exists_eq_or_imp]
      exact or_left_comm.trans or_assoc.symm

theorem insertEach_refused {start : List BdfRange} (separated : Span.Separated (spans start))
    (capacity : start.length ≤ N) {ranges : List BdfRange} {error : BdfRangeSetError}
    {final : BdfRangeSet N}
    (ran : insertEach ranges (ofList start : BdfRangeSet N) = (.error error, final)) :
    error = .full := by
  induction ranges generalizing start with
  | nil => cases ran
  | cons range rest ih =>
      obtain ⟨next, moved, nextSeparated, nextCapacity, _⟩ :=
        insert_preserves (N := N) range separated capacity
      rcases Effect.bind_eq_error.mp ran with failed | ⟨_, middle, inserted, others⟩
      · exact ((insert_refused separated).1 error (congrArg Prod.fst failed)).1
      · rw [inserted] at moved
        obtain rfl : middle = ofList next := moved
        exact ih nextSeparated nextCapacity others

theorem insertEach_empty_refused {ranges : List BdfRange} {error : BdfRangeSetError}
    {final : BdfRangeSet N} (ran : insertEach ranges empty = (.error error, final)) : error = .full :=
  insertEach_refused separated_nil (Nat.zero_le N) ran

theorem contains_insertEach {ranges : List BdfRange} {final : BdfRangeSet N}
    (ran : insertEach ranges empty = (.ok (), final)) (bdf : Bdf) :
    Contains final bdf ↔ ∃ range ∈ ranges, range.contains bdf = true := by
  obtain ⟨held, rfl, covers⟩ := insertEach_preserves separated_nil (Nat.zero_le N) ran
  rw [contains_ofList, covers]
  simp [Span.Covers, spans, BdfRange.contains_iff]

theorem insertEach_count_zero {ranges : List BdfRange} {final : BdfRangeSet N}
    (filled : ∀ range ∈ ranges, range.isEmpty = false)
    (ran : insertEach ranges empty = (.ok (), final)) : final.count = 0 ↔ ranges = [] := by
  constructor
  · intro nothing
    apply List.eq_nil_iff_forall_not_mem.mpr
    intro range member
    have proper := BdfRange.span_proper (filled range member)
    have inside : range.contains range.start = true :=
      (range.contains_iff range.start).mpr ⟨Nat.le_refl _, proper⟩
    obtain ⟨index, below, _⟩ := (contains_insertEach ran range.start).mpr ⟨range, member, inside⟩
    omega
  · rintro rfl
    cases ran
    rfl

def merged (ranges : List BdfRange) (held : List (Span Nat)) : List (Span Nat) :=
  ranges.foldl (fun held range => Span.insert range.span held) held

theorem insertEach_ok_iff {start ranges : List BdfRange} (separated : Span.Separated (spans start))
    (capacity : start.length ≤ N) (filled : ∀ range ∈ ranges, range.isEmpty = false) :
    (∃ final, insertEach ranges (ofList start : BdfRangeSet N) = (.ok (), final)) ↔
      ∀ first, first <+: ranges → (merged first (spans start)).length ≤ N := by
  have length : ∀ held : List BdfRange, (spans held).length = held.length :=
    fun held => List.length_map _
  induction ranges generalizing start with
  | nil =>
      simp only [List.prefix_nil, forall_eq, merged, List.foldl_nil, length, capacity, iff_true]
      exact ⟨_, rfl⟩
  | cons range rest ih =>
      obtain ⟨nonempty, others⟩ := List.forall_mem_cons.mp filled
      have proper := BdfRange.span_proper nonempty
      simp only [List.prefix_cons_iff, insertEach]
      by_cases place : (∃ member ∈ start, range.span.Touches member.span) ∨ start.length ≠ N
      · obtain ⟨next, nextSpans, ran⟩ := insert_ok nonempty separated place
        have bound : next.length ≤ N := by
          rw [← length, nextSpans]
          rcases place with ⟨member, found, touches⟩ | room
          · have joined := Span.insert_length_of_touches separated
              ⟨member.span, List.mem_map_of_mem found, touches⟩
            have before := length start
            omega
          · have grown := Span.insert_length_le range.span (spans start)
            have before := length start
            omega
        have step := ih (nextSpans ▸ Span.separated_insert proper separated) bound others
        rw [Effect.bind_of_ok ran]
        refine step.trans ?_
        rw [nextSpans]
        constructor
        · rintro fits first (rfl | ⟨tail, rfl, among⟩)
          · exact (length start).trans_le capacity
          · exact fits tail among
        · intro fits tail among
          exact fits (range :: tail) (Or.inr ⟨tail, rfl, among⟩)
      · obtain ⟨apart, full⟩ := not_or.mp place
        have refused := insert_full (N := N) nonempty
          (fun member found touches => apart ⟨member, found, touches⟩) (not_not.mp full)
        constructor
        · rintro ⟨final, ran⟩
          rw [Effect.bind_of_error refused] at ran
          cases ran
        · intro fits
          have untouched : ∀ member ∈ spans start, ¬range.span.Touches member := by
            intro member found touches
            obtain ⟨held, among, rfl⟩ := List.mem_map.mp found
            exact apart ⟨held, among, touches⟩
          have grown := Span.insert_length_of_apart untouched
          have small := fits [range] (Or.inr ⟨[], rfl, List.nil_prefix⟩)
          rw [merged, List.foldl_cons, List.foldl_nil, grown, length, not_not.mp full] at small
          omega

theorem empty_range_accepted_when_full :
    ¬∀ (ranges : List BdfRange) (range : BdfRange),
      (insert range (insertAll ranges (empty : BdfRangeSet 1)).2).1 = .error .full ↔
        (insertAll ranges (empty : BdfRangeSet 1)).2.count = 1 ∧
          ¬Touched (insertAll ranges (empty : BdfRangeSet 1)).2 range := by
  intro refused
  have apart : ¬Touched (insertAll [.single ⟨5⟩] (empty : BdfRangeSet 1)).2 .EMPTY := by
    rintro ⟨index, below, _, touches⟩
    obtain rfl : index = 0 := Nat.lt_one_iff.mp below
    exact absurd touches (by decide)
  have failed := (refused [.single ⟨5⟩] .EMPTY).mpr ⟨rfl, apart⟩
  rw [insert_empty rfl] at failed
  contradiction

end BdfRangeSet

end Iommu
