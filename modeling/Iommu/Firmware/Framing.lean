import Iommu.Firmware.Table
import Iommu.Library.Tiling

/-!
Tables made of structures that each begin with a type and a 16-bit length. The
iterators over them frame a structure first, step past it, and then parse it.
-/

namespace Iommu

open MachineWord

/-- An iterator's reads and messages, and the parser of what it has framed. -/
structure Framing (format : TableFormat) (Kind Item : Type) where
  table : FirmwareTable format
  truncated : String
  undersized : String
  overlong : String
  kindAt : Nat → Parse TableError Kind
  parse : Nat → Nat → Kind → Parse TableError Item

namespace Framing

variable {format : TableFormat} {Kind Item : Type}

def lengthAt (framing : Framing format Kind Item) (offset : Nat) : Parse TableError UInt16 :=
  framing.table.readU16 offset 2

/-- The end of an iteration that cannot go on: the offset is put at the end of the table. -/
def giveUp (framing : Framing format Kind Item) (message : String) :
    Effect Nat (Stop TableError) (Option Item) := do
  .modify fun _ => framing.table.sdt.length
  .ofExcept (malformed message)

def next (framing : Framing format Kind Item) : Effect Nat (Stop TableError) (Option Item) := do
  let offset ← .get id
  if framing.table.sdt.length ≤ offset then pure none
  else do
    let header ← .ofExcept (Parse.sum offset 4)
    if framing.table.sdt.length < header then framing.giveUp framing.truncated
    else do
      let kind ← .ofExcept (framing.kindAt offset)
      let length ← .ofExcept (framing.lengthAt offset)
      if length.toNat < 4 then framing.giveUp framing.undersized
      else do
        let stop ← .ofExcept (Parse.sum offset length.toNat)
        if framing.table.sdt.length < stop then framing.giveUp framing.overlong
        else do
          .modify fun _ => stop
          let item ← .ofExcept (framing.parse offset length.toNat kind)
          pure (some item)

def declared (framing : Framing format Kind Item) (offset : Nat) : Nat :=
  fieldLE framing.table.sdt (offset + 2) 2

/-- The structure at an offset cannot be framed, for the reason the message gives. -/
def Breaks (framing : Framing format Kind Item) (offset : Nat) (message : String) : Prop :=
  offset < framing.table.sdt.length ∧
    (framing.table.sdt.length < offset + 4 ∧ message = framing.truncated ∨
      offset + 4 ≤ framing.table.sdt.length ∧
        (framing.declared offset < 4 ∧ message = framing.undersized ∨
          4 ≤ framing.declared offset ∧
            framing.table.sdt.length < offset + framing.declared offset ∧
            message = framing.overlong))

def Frames (framing : Framing format Kind Item) (offset : Nat) : Prop :=
  4 ≤ framing.declared offset ∧ offset + framing.declared offset ≤ framing.table.sdt.length

def Readable (framing : Framing format Kind Item) (kindOf : Nat → Kind) : Prop :=
  ∀ offset, offset + 4 ≤ framing.table.sdt.length → framing.kindAt offset = .ok (kindOf offset)

/-- The outcome that the iterator gives for a span is what parsing the span comes to. -/
def Decodes (framing : Framing format Kind Item) (kindOf : Nat → Kind) (span : Span Nat)
    (outcome : Except TableError Item) : Prop :=
  framing.parse span.start (span.stop - span.start) (kindOf span.start) = outcome.mapError .failed

section Iteration

variable {framing : Framing format Kind Item} {kindOf : Nat → Kind} {offset : Nat}

theorem declared_lt (framing : Framing format Kind Item) (offset : Nat) :
    framing.declared offset < 2 ^ 16 :=
  fieldLE_lt _ _ _

theorem lengthAt_eq (header : offset + 4 ≤ framing.table.sdt.length) :
    framing.lengthAt offset = .ok (.ofNat (framing.declared offset)) :=
  FirmwareTable.readU16_inside (by omega)

theorem declared_toNat (framing : Framing format Kind Item) (offset : Nat) :
    (UInt16.ofNat (framing.declared offset)).toNat = framing.declared offset :=
  UInt16.toNat_ofNat_of_lt' (framing.declared_lt offset)

theorem giveUp_apply (message : String) :
    framing.giveUp message offset =
      (.error (.failed (.malformed message)), framing.table.sdt.length) := rfl

theorem next_done (past : framing.table.sdt.length ≤ offset) :
    framing.next offset = (.ok none, offset) := by
  rw [next, Effect.bind_apply, Effect.get_apply]
  exact congrFun (if_pos past) offset

theorem next_header (inside : offset < framing.table.sdt.length)
    (readable : framing.Readable kindOf) :
    framing.next offset =
      if framing.table.sdt.length < offset + 4 then framing.giveUp framing.truncated offset
      else if framing.declared offset < 4 then framing.giveUp framing.undersized offset
      else if framing.table.sdt.length < offset + framing.declared offset then
        framing.giveUp framing.overlong offset
      else
        ((framing.parse offset (framing.declared offset) (kindOf offset)).map some,
          offset + framing.declared offset) := by
  have short := framing.table.short
  have small := framing.declared_lt offset
  have sum : (Parse.sum offset 4 : Parse TableError Nat) = .ok (offset + 4) :=
    Parse.sum_of_lt (by rw [limit]; omega)
  have ending : (Parse.sum offset (framing.declared offset) : Parse TableError Nat) =
      .ok (offset + framing.declared offset) :=
    Parse.sum_of_lt (by rw [limit]; omega)
  simp only [next, Effect.bind_apply, Effect.get_apply, id_eq, if_neg (Nat.not_le_of_lt inside),
    Effect.ofExcept_apply, sum]
  split
  · rfl
  · next header =>
    have enough := Nat.le_of_not_lt header
    simp only [Effect.bind_apply, Effect.ofExcept_apply, readable offset enough,
      lengthAt_eq enough, declared_toNat]
    split
    · rfl
    · simp only [Effect.bind_apply, Effect.ofExcept_apply, ending]
      split
      · rfl
      · simp only [Effect.bind_apply, Effect.ofExcept_apply, Effect.modify_apply]
        cases framing.parse offset (framing.declared offset) (kindOf offset) with
        | error stop => rfl
        | ok item => rfl

theorem next_broken {message : String} (breaks : framing.Breaks offset message)
    (readable : framing.Readable kindOf) :
    framing.next offset =
      (.error (.failed (.malformed message)), framing.table.sdt.length) := by
  obtain ⟨inside, reason⟩ := breaks
  rw [next_header inside readable]
  rcases reason with ⟨cut, rfl⟩ | ⟨header, ⟨small, rfl⟩ | ⟨large, past, rfl⟩⟩
  · rw [if_pos cut, giveUp_apply]
  · rw [if_neg (Nat.not_lt_of_le header), if_pos small, giveUp_apply]
  · rw [if_neg (Nat.not_lt_of_le header), if_neg (Nat.not_lt_of_le large), if_pos past, giveUp_apply]

theorem next_frames (frames : framing.Frames offset) (readable : framing.Readable kindOf) :
    framing.next offset =
      ((framing.parse offset (framing.declared offset) (kindOf offset)).map some,
        offset + framing.declared offset) := by
  obtain ⟨large, fits⟩ := frames
  rw [next_header (by omega) readable, if_neg (by omega), if_neg (by omega), if_neg (by omega)]

theorem frames_or_breaks (framing : Framing format Kind Item)
    (inside : offset < framing.table.sdt.length) :
    framing.Frames offset ∨ ∃ message, framing.Breaks offset message := by
  by_cases header : offset + 4 ≤ framing.table.sdt.length
  · by_cases large : 4 ≤ framing.declared offset
    · by_cases fits : offset + framing.declared offset ≤ framing.table.sdt.length
      · exact Or.inl ⟨large, fits⟩
      · exact Or.inr ⟨_, inside, Or.inr ⟨header, Or.inr ⟨large, by omega, rfl⟩⟩⟩
    · exact Or.inr ⟨_, inside, Or.inr ⟨header, Or.inl ⟨by omega, rfl⟩⟩⟩
  · exact Or.inr ⟨_, inside, Or.inl ⟨by omega, rfl⟩⟩

theorem itemRound_eq_next (readable : framing.Readable kindOf) {found : Option Item}
    {after : Parse TableError Nat} :
    itemRound framing.next offset = .ok (.next found after) ↔
      framing.Frames offset ∧ after = .ok (offset + framing.declared offset) ∧
        ∃ item, found = some item ∧
          framing.parse offset (framing.declared offset) (kindOf offset) = .ok item := by
  rcases Nat.lt_or_ge offset framing.table.sdt.length with inside | past
  · rcases framing.frames_or_breaks inside with frames | ⟨message, breaks⟩
    · rw [itemRound, next_frames frames readable]
      cases framing.parse offset (framing.declared offset) (kindOf offset) with
      | error stop => simp [Except.map]
      | ok item =>
          simp only [Except.map, Except.ok.injEq, Round.next.injEq, frames, true_and]
          constructor
          · rintro ⟨rfl, rfl⟩
            exact ⟨rfl, item, rfl, rfl⟩
          · rintro ⟨rfl, _, rfl, rfl⟩
            exact ⟨rfl, rfl⟩
    · rw [itemRound, next_broken breaks readable]
      simp only [reduceCtorEq, false_iff, not_and]
      intro frames
      obtain ⟨large, fits⟩ := frames
      obtain ⟨_, ⟨cut, _⟩ | ⟨_, ⟨small, _⟩ | ⟨_, beyond, _⟩⟩⟩ := breaks
      · omega
      · omega
      · omega
  · rw [itemRound, next_done past]
    simp only [Except.ok.injEq, reduceCtorEq, false_iff, not_and]
    rintro ⟨large, fits⟩
    omega

theorem itemRound_malformation (readable : framing.Readable kindOf)
    (parses : ∀ offset length kind, (framing.parse offset length kind).FailsWith Malformation)
    (offset : Nat) : (itemRound framing.next offset).FailsWith Malformation := by
  rcases Nat.lt_or_ge offset framing.table.sdt.length with inside | past
  · rcases framing.frames_or_breaks inside with frames | ⟨message, breaks⟩
    · rw [itemRound, next_frames frames readable]
      have failing := parses offset (framing.declared offset) (kindOf offset)
      cases parsed : framing.parse offset (framing.declared offset) (kindOf offset) with
      | error stop =>
          rintro failure ⟨⟩
          exact failing failure parsed
      | ok item => exact .ok _
    · rw [itemRound, next_broken breaks readable]
      exact malformed_malformation message
  · rw [itemRound, next_done past]
    exact .ok _

end Iteration

/-- The items of an iteration from an offset: what the spans that tile the table decode to, and one
framing failure where they stop short of its end. -/
def Tiled (framing : Framing format Kind Item) (kindOf : Nat → Kind) (start : Nat)
    (items : List (Except TableError Item)) : Prop :=
  ∃ (spans : List (Span Nat)) (outcomes : List (Except TableError Item)) (stop : Nat)
    (broken : Option String),
    items = outcomes ++ broken.toList.map (fun message => .error (.malformed message)) ∧
      Span.Tiles start spans stop ∧
      (∀ span ∈ spans, framing.Frames span.start ∧
        span.stop = span.start + framing.declared span.start) ∧
      List.Forall₂ (framing.Decodes kindOf) spans outcomes ∧
      (broken = none → stop = framing.table.sdt.length) ∧
      ∀ message ∈ broken, framing.Breaks stop message

theorem Tiled.cons {framing : Framing format Kind Item} {kindOf : Nat → Kind} {offset : Nat}
    {outcome : Except TableError Item} {items : List (Except TableError Item)}
    (tiled : framing.Tiled kindOf (offset + framing.declared offset) items)
    (frames : framing.Frames offset)
    (parsed : framing.parse offset (framing.declared offset) (kindOf offset) =
      outcome.mapError .failed) : framing.Tiled kindOf offset (outcome :: items) := by
  obtain ⟨spans, outcomes, stop, broken, rfl, tiles, framed, decodes, whole, cut⟩ := tiled
  have large := frames.1
  refine ⟨⟨offset, offset + framing.declared offset⟩ :: spans, outcome :: outcomes, stop, broken,
    rfl, .cons rfl (by simp [Span.Proper]; omega) tiles, ?_, .cons ?_ decodes, whole, cut⟩
  · intro span member
    rcases List.mem_cons.mp member with rfl | later
    · exact ⟨frames, rfl⟩
    · exact framed span later
  · rw [Decodes, Nat.add_sub_cancel_left]
    exact parsed

theorem Tiled.ok_mem {framing : Framing format Kind Item} {kindOf : Nat → Kind} {start : Nat}
    {items : List (Except TableError Item)} (tiled : framing.Tiled kindOf start items) {item : Item}
    (member : .ok item ∈ items) : ∃ offset, framing.Frames offset ∧
      framing.parse offset (framing.declared offset) (kindOf offset) = .ok item := by
  obtain ⟨spans, outcomes, stop, broken, rfl, _, framed, decodes, _, _⟩ := tiled
  rcases List.mem_append.mp member with parsed | cut
  · obtain ⟨span, among, decoded⟩ := exists_of_forall₂ decodes parsed
    obtain ⟨frames, ends⟩ := framed span among
    rw [Decodes, ends, Nat.add_sub_cancel_left] at decoded
    exact ⟨span.start, frames, decoded⟩
  · simp at cut

theorem drain_next {framing : Framing format Kind Item} {kindOf : Nat → Kind}
    (readable : framing.Readable kindOf)
    (returns : ∀ offset, framing.Frames offset →
      (framing.parse offset (framing.declared offset) (kindOf offset)).Returns)
    {rounds offset : Nat} (inside : offset ≤ framing.table.sdt.length)
    (enough : framing.table.sdt.length - offset < rounds) :
    ∃ items, drain framing.next rounds offset = .ok items ∧ framing.Tiled kindOf offset items := by
  induction rounds generalizing offset with
  | zero => omega
  | succ rounds ih =>
      rcases Nat.lt_or_ge offset framing.table.sdt.length with before | past
      · rcases framing.frames_or_breaks before with frames | ⟨message, breaks⟩
        · have large := frames.1
          obtain ⟨rest, drained, tiled⟩ := ih frames.2 (by omega)
          have ran := next_frames frames readable
          obtain ⟨outcome, parsed⟩ := (returns offset frames).outcome
          rw [parsed] at ran
          refine ⟨outcome :: rest, ?_, tiled.cons frames parsed⟩
          cases outcome with
          | ok item => exact drain_item ran drained
          | error failure => exact drain_failed ran drained
        · obtain ⟨rest, rfl⟩ : ∃ rest, rounds = rest + 1 := ⟨rounds - 1, by omega⟩
          refine ⟨_, drain_failed (next_broken breaks readable)
            (drain_done (next_done (Nat.le_refl _))), ?_⟩
          refine ⟨[], [], offset, some message, rfl, .nil offset, by simp, .nil, by simp, ?_⟩
          rintro _ ⟨⟩
          exact breaks
      · refine ⟨[], drain_done (next_done past), [], [], offset, none, rfl, .nil offset, by simp,
          .nil, ?_, by simp⟩
        intro _
        omega

end Framing

end Iommu
