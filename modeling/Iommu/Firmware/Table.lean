import Iommu.Backing
import Iommu.BdfRangeSet
import Iommu.Library.Walking

/-!
What the parsers of the firmware tables share: their errors, the check of the
system description header, and the bounds-checked reads.
-/

namespace Iommu

open MachineWord

/-- Errors of the ACPI crate; `other` stands for the ones that only its validation gives. -/
inductive AcpiError
  | sdtInvalidSignature (signature : List UInt8)
  | other (code : Nat)
  deriving DecidableEq, Repr

inductive TableError
  | acpi (error : AcpiError)
  | bdfRanges (error : BdfRangeSetError)
  | mapping (error : PagingError)
  | malformed (message : String)
  deriving DecidableEq

abbrev DmarError := TableError
abbrev IvrsError := TableError
abbrev IortError := TableError

def malformed {Value : Type} (message : String) : Parse TableError Value :=
  .fail (.malformed message)

theorem malformed_ne_ok {Value : Type} {message : String} :
    ¬∃ value : Value, malformed message = .ok value := by
  rintro ⟨value, impossible⟩
  simp [malformed, Parse.fail] at impossible

def SDT_HEADER_LENGTH : Nat := 36

/-- The validation of the ACPI crate, over the bytes the header's length covers. -/
abbrev SdtValidation := List UInt8 → Except AcpiError Unit

theorem sdt_length_lt (bytes : List UInt8) : (window bytes 0 (fieldLE bytes 4 4)).length < 2 ^ 32 := by
  have declared := fieldLE_lt bytes 4 4
  rw [window, List.length_take]
  omega

def tableBytes (validate : SdtValidation) (signature : List UInt8) (shortHeader shortTable : String)
    (bytes : List UInt8) : Except TableError { sdt : List UInt8 // sdt.length < 2 ^ 32 } :=
  if bytes.length < SDT_HEADER_LENGTH then .error (.malformed shortHeader)
  else if window bytes 0 4 ≠ signature then .error (.acpi (.sdtInvalidSignature signature))
  else
    let length := fieldLE bytes 4 4
    if length < SDT_HEADER_LENGTH ∨ bytes.length < length then .error (.malformed shortTable)
    else
      match validate (window bytes 0 length) with
      | .error error => .error (.acpi error)
      | .ok () => .ok ⟨window bytes 0 length, sdt_length_lt bytes⟩

/-- What sets the parser of one kind of table apart: its signature, the length of the fixed part, and
the texts of the failures they share. -/
structure TableFormat where
  signature : List UInt8
  fixed : Nat
  shortHeader : String
  shortTable : String
  shortFixed : String
  readOverflow : String
  readOutside : String

/-- A table that covers its fixed part; its length came from 32 bits. -/
structure FirmwareTable (format : TableFormat) where
  sdt : List UInt8
  long : format.fixed ≤ sdt.length
  short : sdt.length < 2 ^ 32
  deriving DecidableEq

namespace FirmwareTable

variable {format : TableFormat}

def parse (validate : SdtValidation) (bytes : List UInt8) : Except TableError (FirmwareTable format) :=
  match tableBytes validate format.signature format.shortHeader format.shortTable bytes with
  | .error error => .error error
  | .ok ⟨sdt, short⟩ =>
      if long : sdt.length < format.fixed then .error (.malformed format.shortFixed)
      else .ok ⟨sdt, Nat.le_of_not_lt long, short⟩

theorem parse_ok {validate : SdtValidation} {bytes : List UInt8} {table : FirmwareTable format}
    (accepted : parse validate bytes = .ok table) :
    table.sdt = window bytes 0 (fieldLE bytes 4 4) ∧ fieldLE bytes 4 4 ≤ bytes.length := by
  rw [parse, tableBytes] at accepted
  split at accepted
  · contradiction
  · next sdt short covered =>
    split at accepted
    · contradiction
    · cases accepted
      split at covered
      · contradiction
      split at covered
      · contradiction
      dsimp only at covered
      split at covered
      · contradiction
      · next declared =>
        split at covered
        · contradiction
        · cases covered
          refine ⟨rfl, ?_⟩
          omega

/-- The little-endian number at `base + displacement`; the sum is unchecked in the source. -/
def number (table : FirmwareTable format) (base displacement count : Nat) : Parse TableError Nat := do
  let offset ← .sum base displacement
  let bytes ← readArray (.malformed format.readOverflow) (.malformed format.readOutside) table.sdt
    offset count
  pure (Memory.ofBytesLE bytes)

def readU8 (table : FirmwareTable format) (base displacement : Nat) : Parse TableError UInt8 := do
  let offset ← .sum base displacement
  match table.sdt[offset]? with
  | some byte => pure byte
  | none => malformed format.readOutside

def readU16 (table : FirmwareTable format) (base displacement : Nat) : Parse TableError UInt16 :=
  return .ofNat (← table.number base displacement 2)

def readU32 (table : FirmwareTable format) (base displacement : Nat) : Parse TableError UInt32 :=
  return .ofNat (← table.number base displacement 4)

def readU64 (table : FirmwareTable format) (base displacement : Nat) : Parse TableError UInt64 :=
  return .ofNat (← table.number base displacement 8)

def readWhen {Value : Type} (condition : Prop) [Decidable condition] (read : Parse TableError Value) :
    Parse TableError (Option Value) :=
  if condition then some <$> read else pure none

theorem length_lt_limit (table : FirmwareTable format) : table.sdt.length < limit := by
  have short := table.short
  rw [limit]
  omega

section Inside

variable {table : FirmwareTable format} {base displacement : Nat}

theorem sum_inside {left right : Nat} (inside : left + right ≤ table.sdt.length) :
    (Parse.sum left right : Parse TableError Nat) = .ok (left + right) :=
  Parse.sum_of_lt (Nat.lt_of_le_of_lt inside table.length_lt_limit)

theorem number_inside {count : Nat} (inside : base + displacement + count ≤ table.sdt.length) :
    table.number base displacement count = .ok (fieldLE table.sdt (base + displacement) count) := by
  rw [number, sum_inside (Nat.le_trans (Nat.le_add_right _ _) inside), Parse.ok_bind,
    readArray_inside inside table.length_lt_limit, Parse.ok_bind]
  rfl

theorem readU8_inside (inside : base + displacement + 1 ≤ table.sdt.length) :
    table.readU8 base displacement = .ok (.ofNat (fieldLE table.sdt (base + displacement) 1)) := by
  rw [readU8, sum_inside (Nat.le_of_succ_le inside), Parse.ok_bind, getElem?_eq_fieldLE inside]
  rfl

theorem readU16_inside (inside : base + displacement + 2 ≤ table.sdt.length) :
    table.readU16 base displacement = .ok (.ofNat (fieldLE table.sdt (base + displacement) 2)) := by
  rw [readU16, number_inside inside]
  rfl

theorem readU32_inside (inside : base + displacement + 4 ≤ table.sdt.length) :
    table.readU32 base displacement = .ok (.ofNat (fieldLE table.sdt (base + displacement) 4)) := by
  rw [readU32, number_inside inside]
  rfl

theorem readU64_inside (inside : base + displacement + 8 ≤ table.sdt.length) :
    table.readU64 base displacement = .ok (.ofNat (fieldLE table.sdt (base + displacement) 8)) := by
  rw [readU64, number_inside inside]
  rfl

theorem readU8_outside (small : base + displacement < limit)
    (outside : table.sdt.length ≤ base + displacement) :
    table.readU8 base displacement = malformed format.readOutside := by
  rw [readU8, Parse.sum_of_lt small, Parse.ok_bind, List.getElem?_eq_none outside]

theorem readU16_outside (small : base + displacement + 2 < limit)
    (outside : table.sdt.length < base + displacement + 2) :
    table.readU16 base displacement = malformed format.readOutside := by
  rw [readU16, number, Parse.sum_of_lt (Nat.lt_of_le_of_lt (Nat.le_add_right _ _) small),
    Parse.ok_bind, readArray, checkedAdd_of_lt small]
  dsimp only
  rw [if_neg (Nat.not_le_of_lt outside)]
  rfl

section Held

variable {part : List UInt8} (holds : HoldsAt table.sdt base part)

include holds

theorem readU8_held (within : displacement + 1 ≤ part.length) : table.readU8 base displacement =
    .ok (.ofNat (Memory.ofBytesLE (window part displacement 1))) := by
  have inside := holds.inside
  rw [readU8_inside (by omega), holds.fieldLE_eq within]

theorem readU16_held (within : displacement + 2 ≤ part.length) : table.readU16 base displacement =
    .ok (.ofNat (Memory.ofBytesLE (window part displacement 2))) := by
  have inside := holds.inside
  rw [readU16_inside (by omega), holds.fieldLE_eq within]

theorem readU32_held (within : displacement + 4 ≤ part.length) : table.readU32 base displacement =
    .ok (.ofNat (Memory.ofBytesLE (window part displacement 4))) := by
  have inside := holds.inside
  rw [readU32_inside (by omega), holds.fieldLE_eq within]

theorem readU64_held (within : displacement + 8 ≤ part.length) : table.readU64 base displacement =
    .ok (.ofNat (Memory.ofBytesLE (window part displacement 8))) := by
  have inside := holds.inside
  rw [readU64_inside (by omega), holds.fieldLE_eq within]

end Held

end Inside

/-- The computation returns, and depends on the bytes of the stretch only. -/
structure ReadsWithin {Value : Type} (start stop : Nat) (table : FirmwareTable format)
    (parse : FirmwareTable format → Parse TableError Value) : Prop where
  returns : (parse table).Returns
  only : ∀ other, AgreeOn table.sdt other.sdt start stop → parse other = parse table

namespace ReadsWithin

variable {Value Result : Type} {start stop base displacement : Nat} {table : FirmwareTable format}

theorem pure (value : Value) : ReadsWithin start stop table fun _ => Pure.pure value :=
  ⟨.pure value, fun _ _ => rfl⟩

theorem malformed (message : String) :
    ReadsWithin start stop table fun _ => (Iommu.malformed message : Parse TableError Value) :=
  ⟨.fail _, fun _ _ => rfl⟩

theorem bind {first : FirmwareTable format → Parse TableError Value}
    {next : Value → FirmwareTable format → Parse TableError Result}
    (before : ReadsWithin start stop table first)
    (after : ∀ value, first table = .ok value → ReadsWithin start stop table (next value)) :
    ReadsWithin start stop table fun table => first table >>= fun value => next value table := by
  constructor
  · exact before.returns.bind fun value found => (after value found).returns
  · intro other agree
    rw [before.only other agree]
    cases found : first table with
    | error stop => rfl
    | ok value => exact (after value found).only other agree

theorem ite {condition : Prop} [Decidable condition]
    {first second : FirmwareTable format → Parse TableError Value}
    (holds : condition → ReadsWithin start stop table first)
    (fails : ¬condition → ReadsWithin start stop table second) :
    ReadsWithin start stop table fun table => if condition then first table else second table := by
  by_cases decided : condition
  · simp only [if_pos decided]
    exact holds decided
  · simp only [if_neg decided]
    exact fails decided

theorem widen {parse : FirmwareTable format → Parse TableError Value} {last : Nat}
    (within : ReadsWithin start stop table parse) (less : stop ≤ last) :
    ReadsWithin start last table parse :=
  ⟨within.returns, fun other agree => within.only other (agree.narrow less)⟩

theorem number (count : Nat) (low : start ≤ base + displacement)
    (high : base + displacement + count ≤ stop) (reaches : stop ≤ table.sdt.length) :
    ReadsWithin start stop table fun table => table.number base displacement count := by
  constructor
  · rw [number_inside (Nat.le_trans high reaches)]
    exact .ok _
  · intro other agree
    rw [number_inside (Nat.le_trans high agree.reachesSecond),
      number_inside (Nat.le_trans high reaches), agree.fieldLE_eq low high]

theorem readU8 (low : start ≤ base + displacement) (high : base + displacement + 1 ≤ stop)
    (reaches : stop ≤ table.sdt.length) :
    ReadsWithin start stop table fun table => table.readU8 base displacement := by
  constructor
  · rw [readU8_inside (Nat.le_trans high reaches)]
    exact .ok _
  · intro other agree
    rw [readU8_inside (Nat.le_trans high agree.reachesSecond),
      readU8_inside (Nat.le_trans high reaches), agree.fieldLE_eq low high]

theorem readU16 (low : start ≤ base + displacement) (high : base + displacement + 2 ≤ stop)
    (reaches : stop ≤ table.sdt.length) :
    ReadsWithin start stop table fun table => table.readU16 base displacement :=
  (number 2 low high reaches).bind fun _ _ => pure _

theorem readU32 (low : start ≤ base + displacement) (high : base + displacement + 4 ≤ stop)
    (reaches : stop ≤ table.sdt.length) :
    ReadsWithin start stop table fun table => table.readU32 base displacement :=
  (number 4 low high reaches).bind fun _ _ => pure _

theorem readU64 (low : start ≤ base + displacement) (high : base + displacement + 8 ≤ stop)
    (reaches : stop ≤ table.sdt.length) :
    ReadsWithin start stop table fun table => table.readU64 base displacement :=
  (number 8 low high reaches).bind fun _ _ => pure _

theorem sliced {first last : Nat} (low : start ≤ first) (ordered : first ≤ last)
    (high : last ≤ stop) (reaches : stop ≤ table.sdt.length) :
    ReadsWithin start stop table fun table => sliceOf table.sdt first last := by
  constructor
  · rw [sliceOf_inside ordered (Nat.le_trans high reaches)]
    exact .ok _
  · intro other agree
    rw [sliceOf_inside ordered (Nat.le_trans high agree.reachesSecond),
      sliceOf_inside ordered (Nat.le_trans high reaches), agree.window_eq low (by omega)]

theorem afterSum {left right : Nat} {next : Nat → FirmwareTable format → Parse TableError Result}
    (small : left + right < limit) (after : ReadsWithin start stop table (next (left + right))) :
    ReadsWithin start stop table fun table => Parse.sum left right >>= fun total =>
      next total table := by
  simp only [Parse.sum_of_lt small, Parse.ok_bind]
  exact after

theorem reachesTo {last : Nat} {past rest : FirmwareTable format → Parse TableError Value}
    (inside : last ≤ stop) (reaches : stop ≤ table.sdt.length)
    (within : ReadsWithin start stop table rest) :
    ReadsWithin start stop table fun table =>
      if table.sdt.length < last then past table else rest table := by
  constructor
  · rw [if_neg (Nat.not_lt_of_le (Nat.le_trans inside reaches))]
    exact within.returns
  · intro other agree
    rw [if_neg (Nat.not_lt_of_le (Nat.le_trans inside agree.reachesSecond)),
      if_neg (Nat.not_lt_of_le (Nat.le_trans inside reaches)), within.only other agree]

theorem readWhen {condition : Prop} [Decidable condition]
    {read : FirmwareTable format → Parse TableError Value}
    (within : condition → ReadsWithin start stop table read) :
    ReadsWithin start stop table fun table => FirmwareTable.readWhen condition (read table) := by
  apply ite
  · intro holds
    exact (within holds).bind fun _ _ => pure _
  · intro _
    exact pure _

theorem constant {parse : Parse TableError Value} (returns : parse.Returns) :
    ReadsWithin start stop table fun _ => parse :=
  ⟨returns, fun _ _ => rfl⟩

end ReadsWithin

end FirmwareTable

def AddrRange.tryFromStartSize (start size : Nat) : Option AddrRange :=
  if bounded : start + size < limit then some (.fromStartSize start size bounded) else none

/-- The range constructor that panics when its bounds are reversed. -/
def AddrRange.new {Failure : Type} (start endAddr : Nat) : Parse Failure AddrRange :=
  if ordered : start ≤ endAddr ∧ endAddr < limit then .ok ⟨start, endAddr, ordered.1, ordered.2⟩
  else .error .panicked

def usizeTryFrom (value : UInt64) : Option Nat :=
  if value.toNat < limit then some value.toNat else none

@[simp] theorem usizeTryFrom_eq (value : UInt64) : usizeTryFrom value = some value.toNat :=
  if_pos value.toNat_lt

def mmioRegisterWindow (base : UInt64) (size : Nat) (addrError rangeError : String) :
    Parse TableError AddrRange :=
  match usizeTryFrom base with
  | none => malformed addrError
  | some base =>
      match AddrRange.tryFromStartSize base size with
      | none => malformed rangeError
      | some range => .ok range

theorem mmioRegisterWindow_eq (base : UInt64) (size : Nat) (addrError rangeError : String) :
    mmioRegisterWindow base size addrError rangeError =
      if bounded : base.toNat + size < limit then .ok (.fromStartSize base.toNat size bounded)
      else malformed rangeError := by
  rw [mmioRegisterWindow, usizeTryFrom_eq]
  dsimp only
  rw [AddrRange.tryFromStartSize]
  by_cases bounded : base.toNat + size < limit
  · rw [dif_pos bounded, dif_pos bounded]
  · rw [dif_neg bounded, dif_neg bounded]

theorem mmioRegisterWindow_returns (base : UInt64) (size : Nat) (addrError rangeError : String) :
    (mmioRegisterWindow base size addrError rangeError).Returns := by
  rw [mmioRegisterWindow_eq]
  split
  · exact .ok _
  · exact .fail _

def Malformation (error : TableError) : Prop := ∃ message, error = .malformed message

theorem malformed_malformation {Value : Type} (message : String) :
    Parse.FailsWith Malformation (malformed message : Parse TableError Value) :=
  .fail ⟨message, rfl⟩

theorem mmioRegisterWindow_malformation (base : UInt64) (size : Nat) (addrError rangeError : String) :
    (mmioRegisterWindow base size addrError rangeError).FailsWith Malformation := by
  rw [mmioRegisterWindow_eq]
  split
  · exact .ok _
  · exact malformed_malformation _

theorem sliceOf_malformation (bytes : List UInt8) (start stop : Nat) :
    (sliceOf bytes start stop).FailsWith Malformation :=
  .ite (.ok _) .panicked

namespace FirmwareTable

variable {format : TableFormat} (table : FirmwareTable format) (base displacement : Nat)

theorem number_malformation (count : Nat) :
    (table.number base displacement count).FailsWith Malformation := by
  refine .bind (.sum _ _) fun offset => .bind ?_ fun _ => .pure _
  rw [readArray]
  split
  · exact malformed_malformation _
  · exact .ite (.ok _) (malformed_malformation _)

theorem readU8_malformation : (table.readU8 base displacement).FailsWith Malformation := by
  refine .bind (.sum _ _) fun offset => ?_
  split
  · exact .pure _
  · exact malformed_malformation _

theorem readU16_malformation : (table.readU16 base displacement).FailsWith Malformation :=
  .bind (table.number_malformation _ _ _) fun _ => .pure _

theorem readU32_malformation : (table.readU32 base displacement).FailsWith Malformation :=
  .bind (table.number_malformation _ _ _) fun _ => .pure _

theorem readU64_malformation : (table.readU64 base displacement).FailsWith Malformation :=
  .bind (table.number_malformation _ _ _) fun _ => .pure _

end FirmwareTable

end Iommu
