import Iommu.Library.Parsing

/-!
Addresses of memory-mapped registers, represented in 32 or 64 bits, and the lookup of a
register in a range of them. Sums are taken as machine words and converted back by an
assertion; the alignment test comes from the address crate and is carried as a parameter.
-/

namespace Iommu

open MachineWord

/-- The integer types that represent an address. -/
inductive Unsigned
  | u32
  | u64
  | usize
  deriving DecidableEq

abbrev Usize := BitVec 64

namespace Unsigned

def sizeOf : Unsigned → Nat
  | u32 => 4
  | u64 => 8
  | usize => 8

def max : Unsigned → Nat
  | u32 => 2 ^ 32 - 1
  | u64 => 2 ^ 64 - 1
  | usize => 2 ^ 64 - 1

def bits (T : Unsigned) : Nat := 8 * T.sizeOf

/-- A machine word that the type does not represent. -/
def Gap (T : Unsigned) (sum : Nat) : Prop := T.max < sum ∧ sum < limit

instance (T : Unsigned) (sum : Nat) : Decidable (T.Gap sum) := inferInstanceAs (Decidable (_ ∧ _))

variable {T : Unsigned}

theorem max_lt_iff {value : Nat} : T.max < value ↔ 2 ^ T.bits ≤ value := by
  cases T <;> simp [max, bits, sizeOf] <;> omega

theorem bits_le (T : Unsigned) : T.bits ≤ 64 := by
  cases T <;> decide

theorem max_lt_limit (T : Unsigned) : T.max < limit := by
  cases T <;> decide

theorem not_gap_of_fits {sum : Nat} (fits : sum ≤ T.max) : ¬T.Gap sum :=
  fun gap => absurd gap.1 (Nat.not_lt.mpr fits)

theorem not_gap_of_beyond {sum : Nat} (beyond : limit ≤ sum) : ¬T.Gap sum :=
  fun gap => absurd gap.2 (Nat.not_lt.mpr beyond)

theorem not_gap_of_wide (wide : T ≠ .u32) (sum : Nat) : ¬T.Gap sum := by
  rintro ⟨above, below⟩
  cases T with
  | u32 => exact wide rfl
  | u64 => exact absurd below (Nat.not_lt.mpr (max_lt_iff.mp above))
  | usize => exact absurd below (Nat.not_lt.mpr (max_lt_iff.mp above))

end Unsigned

/-- The union of a value, read as 32 bits and extended, or read as a machine word. -/
def intoUsize {T : Unsigned} (value : BitVec T.bits) : Usize :=
  if T.sizeOf = 4 then (value.setWidth 32).setWidth 64 else value.setWidth 64

/-- Both of its unions are read as the low bits of the machine word. -/
def fromUsize (T : Unsigned) (value : Usize) : Parse Empty (BitVec T.bits) :=
  if value.toNat ≤ T.max then .ok (value.setWidth T.bits) else .error .panicked

inductive MmioSpace

structure IoAddr (T : Unsigned) (Space : Type) where
  value : BitVec T.bits
  deriving DecidableEq

abbrev MmioAddr (T : Unsigned) := IoAddr T MmioSpace

namespace IoAddr

variable {T : Unsigned} {Space : Type}

def asUsize (addr : IoAddr T Space) : Usize := intoUsize addr.value

def ofUsize (value : Usize) : Parse Empty (IoAddr T Space) := mk <$> fromUsize T value

def toNat (addr : IoAddr T Space) : Nat := addr.value.toNat

def checkedAdd (addr : IoAddr T Space) (offset : Usize) : Parse Empty (Option (IoAddr T Space)) :=
  if addr.asUsize.toNat + offset.toNat < limit then some <$> ofUsize (addr.asUsize + offset)
  else .ok none

theorem toNat_lt (addr : IoAddr T Space) : addr.toNat < 2 ^ T.bits := addr.value.isLt

theorem value_lt_iff {left right : IoAddr T Space} :
    left.value < right.value ↔ left.toNat < right.toNat := BitVec.lt_def

theorem toNat_le (addr : IoAddr T Space) : addr.toNat ≤ T.max := by
  by_contra large
  exact absurd (Unsigned.max_lt_iff.mp (Nat.lt_of_not_le large)) (Nat.not_le.mpr addr.toNat_lt)

@[simp] theorem asUsize_toNat (addr : IoAddr T Space) : addr.asUsize.toNat = addr.toNat := by
  have small := addr.toNat_lt
  have word : 2 ^ T.bits ≤ 2 ^ 64 := Nat.pow_le_pow_right Nat.two_pos T.bits_le
  rw [asUsize, intoUsize]
  split
  · next narrow =>
    have bits : T.bits = 32 := by rw [Unsigned.bits, narrow]
    rw [bits] at small
    rw [BitVec.toNat_setWidth, BitVec.toNat_setWidth, ← toNat, Nat.mod_eq_of_lt small,
      Nat.mod_eq_of_lt (by omega)]
  · rw [BitVec.toNat_setWidth, ← toNat, Nat.mod_eq_of_lt (by omega)]

theorem ofUsize_of_le {value : Usize} (fits : value.toNat ≤ T.max) :
    ∃ addr : IoAddr T Space, ofUsize value = .ok addr ∧ addr.toNat = value.toNat := by
  refine ⟨⟨value.setWidth T.bits⟩, ?_, ?_⟩
  · rw [ofUsize, fromUsize, if_pos fits]
    rfl
  · have below : ¬2 ^ T.bits ≤ value.toNat := by
      rw [← Unsigned.max_lt_iff]
      omega
    rw [toNat, BitVec.toNat_setWidth, Nat.mod_eq_of_lt (Nat.lt_of_not_le below)]

theorem ofUsize_of_lt {value : Usize} (large : T.max < value.toNat) :
    (ofUsize value : Parse Empty (IoAddr T Space)) = .error .panicked := by
  rw [ofUsize, fromUsize, if_neg (Nat.not_le.mpr large)]
  rfl

variable {addr : IoAddr T Space} {offset : Usize}

theorem add_toNat (small : addr.toNat + offset.toNat < limit) :
    (addr.asUsize + offset).toNat = addr.toNat + offset.toNat := by
  rw [BitVec.toNat_add, asUsize_toNat]
  exact Nat.mod_eq_of_lt small

theorem checkedAdd_fits (fits : addr.toNat + offset.toNat ≤ T.max) :
    ∃ sum, addr.checkedAdd offset = .ok (some sum) ∧ sum.toNat = addr.toNat + offset.toNat := by
  have small : addr.toNat + offset.toNat < limit := Nat.lt_of_le_of_lt fits T.max_lt_limit
  rw [← add_toNat small] at fits
  have converts : ∃ sum : IoAddr T Space, ofUsize (addr.asUsize + offset) = .ok sum ∧
      sum.toNat = (addr.asUsize + offset).toNat := ofUsize_of_le fits
  obtain ⟨sum, converted, same⟩ := converts
  rw [checkedAdd, asUsize_toNat, if_pos small, converted]
  exact ⟨sum, rfl, same.trans (add_toNat small)⟩

theorem checkedAdd_gap (gap : T.Gap (addr.toNat + offset.toNat)) :
    addr.checkedAdd offset = .error .panicked := by
  obtain ⟨large, small⟩ := gap
  rw [← add_toNat small] at large
  rw [checkedAdd, asUsize_toNat, if_pos small, ofUsize_of_lt large]
  rfl

theorem checkedAdd_beyond (beyond : limit ≤ addr.toNat + offset.toNat) :
    addr.checkedAdd offset = .ok none := by
  rw [checkedAdd, asUsize_toNat, if_neg (Nat.not_lt.mpr beyond)]

theorem checkedAdd_cases (addr : IoAddr T Space) (offset : Usize) :
    (addr.toNat + offset.toNat ≤ T.max ∧
      ∃ sum, addr.checkedAdd offset = .ok (some sum) ∧ sum.toNat = addr.toNat + offset.toNat) ∨
    (T.Gap (addr.toNat + offset.toNat) ∧ addr.checkedAdd offset = .error .panicked) ∨
    (limit ≤ addr.toNat + offset.toNat ∧ addr.checkedAdd offset = .ok none) := by
  by_cases fits : addr.toNat + offset.toNat ≤ T.max
  · exact Or.inl ⟨fits, checkedAdd_fits fits⟩
  · by_cases small : addr.toNat + offset.toNat < limit
    · have gap : T.Gap (addr.toNat + offset.toNat) := ⟨Nat.lt_of_not_le fits, small⟩
      exact Or.inr (Or.inl ⟨gap, checkedAdd_gap gap⟩)
    · have beyond := Nat.le_of_not_lt small
      exact Or.inr (Or.inr ⟨beyond, checkedAdd_beyond beyond⟩)

end IoAddr

structure IoAddrRange (T : Unsigned) (Space : Type) where
  start : IoAddr T Space
  endAddr : IoAddr T Space
  ordered : start.toNat ≤ endAddr.toNat
  deriving DecidableEq

abbrev MmioAddrRange (T : Unsigned) := IoAddrRange T MmioSpace

namespace IoAddrRange

variable {T : Unsigned} {Space : Type}

theorem ordered_of_checkedAdd {start endAddr : IoAddr T Space} {size : Usize}
    (added : start.checkedAdd size = .ok (some endAddr)) : start.toNat ≤ endAddr.toNat := by
  rcases start.checkedAdd_cases size with ⟨_, sum, found, same⟩ | ⟨_, panicked⟩ | ⟨_, nothing⟩
  · rw [found] at added
    obtain rfl := Option.some.inj (Except.ok.inj added)
    omega
  · rw [panicked] at added
    cases added
  · rw [nothing] at added
    cases added

def tryFromStartSize (start : IoAddr T Space) (size : Usize) :
    Parse Empty (Option (IoAddrRange T Space)) :=
  match added : start.checkedAdd size with
  | .error stop => .error stop
  | .ok none => .ok none
  | .ok (some endAddr) => .ok (some ⟨start, endAddr, ordered_of_checkedAdd added⟩)

variable {start endAddr : IoAddr T Space} {size : Usize}

theorem tryFromStartSize_some (added : start.checkedAdd size = .ok (some endAddr)) :
    tryFromStartSize start size = .ok (some ⟨start, endAddr, ordered_of_checkedAdd added⟩) := by
  rw [tryFromStartSize]
  split
  · next stopped => cases added.symm.trans stopped
  · next nothing => cases added.symm.trans nothing
  · next found =>
    obtain rfl := Option.some.inj (Except.ok.inj (added.symm.trans found))
    rfl

theorem tryFromStartSize_none (nothing : start.checkedAdd size = .ok none) :
    tryFromStartSize start size = .ok none := by
  rw [tryFromStartSize]
  split
  · next stopped => cases nothing.symm.trans stopped
  · rfl
  · next found => cases nothing.symm.trans found

theorem tryFromStartSize_error {stop : Stop Empty} (stopped : start.checkedAdd size = .error stop) :
    tryFromStartSize start size = .error stop := by
  rw [tryFromStartSize]
  split
  · next other =>
    obtain rfl := Except.error.inj (stopped.symm.trans other)
    rfl
  · next nothing => cases stopped.symm.trans nothing
  · next found => cases stopped.symm.trans found

end IoAddrRange

/-- A computation gives what reads as the answer, or nothing where that is none, and does not panic. -/
def Answers {Value Answer : Type} (reading : Value → Answer) (computation : Parse Empty (Option Value))
    (answer : Option Answer) : Prop :=
  ∃ found, computation = .ok found ∧ found.map reading = answer

theorem not_answers_panicked {Value Answer : Type} {reading : Value → Answer} {answer : Option Answer}
    {computation : Parse Empty (Option Value)} (panicked : computation = .error .panicked) :
    ¬Answers reading computation answer := by
  rintro ⟨found, answered, _⟩
  rw [panicked] at answered
  cases answered

namespace MmioAddrRange

variable {T : Unsigned}

def fromStartSize (start : MmioAddr T) (size : Usize) : Parse Empty (Option (MmioAddrRange T)) :=
  IoAddrRange.tryFromStartSize start size

def reg (range : MmioAddrRange T) (width offset : Usize) : Parse Empty (Option (MmioAddr T)) := do
  match ← range.start.checkedAdd offset with
  | none => pure none
  | some addr => do
      match ← addr.checkedAdd width with
      | none => pure none
      | some endAddr => if range.endAddr.value < endAddr.value then pure none else pure (some addr)

def reg8 (range : MmioAddrRange T) (offset : Usize) : Parse Empty (Option (MmioAddr T)) :=
  reg range 1 offset

def reg16 (range : MmioAddrRange T) (offset : Usize) : Parse Empty (Option (MmioAddr T)) :=
  reg range 2 offset

def reg32 (range : MmioAddrRange T) (offset : Usize) : Parse Empty (Option (MmioAddr T)) :=
  reg range 4 offset

def reg64 (range : MmioAddrRange T) (offset : Usize) : Parse Empty (Option (MmioAddr T)) :=
  reg range 8 offset

variable (isAligned : Usize → Usize → Bool)

def thenAligned (align : Usize) (lookup : Parse Empty (Option (MmioAddr T))) :
    Parse Empty (Option (MmioAddr T)) := do
  match ← lookup with
  | none => pure none
  | some addr => if isAligned addr.asUsize align then pure (some addr) else pure none

def reg16Aligned (range : MmioAddrRange T) (offset : Usize) : Parse Empty (Option (MmioAddr T)) :=
  thenAligned isAligned 2 (reg16 range offset)

def reg32Aligned (range : MmioAddrRange T) (offset : Usize) : Parse Empty (Option (MmioAddr T)) :=
  thenAligned isAligned 4 (reg32 range offset)

def reg64Aligned (range : MmioAddrRange T) (offset : Usize) : Parse Empty (Option (MmioAddr T)) :=
  thenAligned isAligned 8 (reg64 range offset)

def located (range : MmioAddrRange T) (width offset : Usize) : Option Nat :=
  if range.start.toNat + offset.toNat + width.toNat ≤ range.endAddr.toNat then
    some (range.start.toNat + offset.toNat)
  else none

def ClearOfGap (range : MmioAddrRange T) (width offset : Usize) : Prop :=
  ¬T.Gap (range.start.toNat + offset.toNat) ∧
    ¬T.Gap (range.start.toNat + offset.toNat + width.toNat)

instance (range : MmioAddrRange T) (width offset : Usize) : Decidable (ClearOfGap range width offset) :=
  inferInstanceAs (Decidable (_ ∧ _))

variable {isAligned} {range : MmioAddrRange T} {start : MmioAddr T} {width offset size : Usize}

theorem reg_cases (range : MmioAddrRange T) (width offset : Usize) :
    (ClearOfGap range width offset ∧
      Answers IoAddr.toNat (reg range width offset) (located range width offset)) ∨
    (¬ClearOfGap range width offset ∧ reg range width offset = .error .panicked) := by
  have last := range.endAddr.toNat_le
  have word := T.max_lt_limit
  rw [reg, ClearOfGap, located]
  rcases range.start.checkedAdd_cases offset with
    ⟨fits, addr, added, there⟩ | ⟨gap, panicked⟩ | ⟨beyond, nothing⟩
  · rw [← there] at fits ⊢
    have near := Unsigned.not_gap_of_fits fits
    rw [added, Parse.ok_bind]
    dsimp only
    rcases addr.checkedAdd_cases width with
      ⟨inside, endAddr, added, past⟩ | ⟨gap, panicked⟩ | ⟨beyond, nothing⟩
    · rw [← past] at inside ⊢
      refine Or.inl ⟨⟨near, Unsigned.not_gap_of_fits inside⟩, ?_⟩
      rw [added, Parse.ok_bind]
      simp only [IoAddr.value_lt_iff]
      by_cases within : endAddr.toNat ≤ range.endAddr.toNat
      · rw [if_neg (Nat.not_lt.mpr within), if_pos within]
        exact ⟨some addr, rfl, rfl⟩
      · rw [if_pos (Nat.lt_of_not_le within), if_neg within]
        exact ⟨none, rfl, rfl⟩
    · rw [panicked, Parse.error_bind]
      exact Or.inr ⟨fun clear => clear.2 gap, rfl⟩
    · rw [nothing, Parse.ok_bind, if_neg (by omega)]
      exact Or.inl ⟨⟨near, Unsigned.not_gap_of_beyond beyond⟩, none, rfl, rfl⟩
  · rw [panicked, Parse.error_bind]
    exact Or.inr ⟨fun clear => clear.1 gap, rfl⟩
  · rw [nothing, Parse.ok_bind, if_neg (by omega)]
    exact Or.inl ⟨⟨Unsigned.not_gap_of_beyond beyond, Unsigned.not_gap_of_beyond (by omega)⟩,
      none, rfl, rfl⟩

theorem reg_answers_iff (range : MmioAddrRange T) (width offset : Usize) :
    Answers IoAddr.toNat (reg range width offset) (located range width offset) ↔
      ClearOfGap range width offset := by
  rcases reg_cases range width offset with ⟨clear, answers⟩ | ⟨touched, panicked⟩
  · exact iff_of_true answers clear
  · exact iff_of_false (not_answers_panicked panicked) touched

theorem thenAligned_answers {lookup : Parse Empty (Option (MmioAddr T))} {answer : Option Nat}
    (aligns : ∀ addr : Usize, isAligned addr width = true ↔ width.toNat ∣ addr.toNat)
    (answers : Answers IoAddr.toNat lookup answer) :
    Answers IoAddr.toNat (thenAligned isAligned width lookup)
      (answer.filter fun address => width.toNat ∣ address) := by
  obtain ⟨found, rfl, rfl⟩ := answers
  rw [thenAligned, Parse.ok_bind]
  cases found with
  | none => exact ⟨none, rfl, rfl⟩
  | some addr =>
      have divides := aligns addr.asUsize
      rw [IoAddr.asUsize_toNat] at divides
      dsimp only
      by_cases aligned : isAligned addr.asUsize width = true
      · refine ⟨some addr, if_pos aligned, ?_⟩
        simp [Option.filter, divides.mp aligned]
      · refine ⟨none, if_neg aligned, ?_⟩
        simp [Option.filter, mt divides.mpr aligned]

theorem thenAligned_answers_iff (range : MmioAddrRange T) (width offset : Usize)
    (aligns : ∀ addr : Usize, isAligned addr width = true ↔ width.toNat ∣ addr.toNat) :
    Answers IoAddr.toNat (thenAligned isAligned width (reg range width offset))
        ((located range width offset).filter fun address => width.toNat ∣ address) ↔
      ClearOfGap range width offset := by
  rcases reg_cases range width offset with ⟨clear, answers⟩ | ⟨touched, panicked⟩
  · exact iff_of_true (thenAligned_answers aligns answers) clear
  · refine iff_of_false (not_answers_panicked ?_) touched
    rw [thenAligned, panicked, Parse.error_bind]

theorem fromStartSize_answers_iff (start : MmioAddr T) (size : Usize) :
    Answers (fun range => (range.start, range.endAddr.toNat)) (fromStartSize start size)
        (if start.toNat + size.toNat ≤ T.max then some (start, start.toNat + size.toNat) else none) ↔
      ¬T.Gap (start.toNat + size.toNat) := by
  rw [fromStartSize]
  rcases start.checkedAdd_cases size with
    ⟨fits, endAddr, added, past⟩ | ⟨gap, panicked⟩ | ⟨beyond, nothing⟩
  · refine iff_of_true ⟨_, IoAddrRange.tryFromStartSize_some added, ?_⟩ (Unsigned.not_gap_of_fits fits)
    rw [if_pos fits, ← past]
    rfl
  · refine iff_of_false (not_answers_panicked ?_) (not_not_intro gap)
    exact IoAddrRange.tryFromStartSize_error panicked
  · have large : ¬start.toNat + size.toNat ≤ T.max :=
      Nat.not_le.mpr (Nat.lt_of_lt_of_le T.max_lt_limit beyond)
    refine iff_of_true ⟨none, IoAddrRange.tryFromStartSize_none nothing, ?_⟩
      (Unsigned.not_gap_of_beyond beyond)
    rw [if_neg large]
    rfl

def TestsAlignment (isAligned : Usize → Usize → Bool) : Prop :=
  ∀ addr align : Usize, align.toNat.isPowerOfTwo →
    (isAligned addr align = true ↔ align.toNat ∣ addr.toNat)

end MmioAddrRange

/-- The lookup of a register is the bounds check, the aligned ones keep the multiples of the width, and a
range is built when its end is represented, each exactly when no sum that it takes is a machine word
that the type does not represent. There is such a word for the 32-bit type only. -/
theorem register_lookup_exact (isAligned : Usize → Usize → Bool)
    (aligns : MmioAddrRange.TestsAlignment isAligned) (T : Unsigned) (range : MmioAddrRange T)
    (start : MmioAddr T) (width offset size : Usize) :
    (Answers IoAddr.toNat (range.reg width offset) (range.located width offset) ↔
      range.ClearOfGap width offset) ∧
    (Answers IoAddr.toNat (range.reg16Aligned isAligned offset)
        ((range.located 2 offset).filter fun address => 2 ∣ address) ↔
      range.ClearOfGap 2 offset) ∧
    (Answers IoAddr.toNat (range.reg32Aligned isAligned offset)
        ((range.located 4 offset).filter fun address => 4 ∣ address) ↔
      range.ClearOfGap 4 offset) ∧
    (Answers IoAddr.toNat (range.reg64Aligned isAligned offset)
        ((range.located 8 offset).filter fun address => 8 ∣ address) ↔
      range.ClearOfGap 8 offset) ∧
    (Answers (fun built => (built.start, built.endAddr.toNat)) (MmioAddrRange.fromStartSize start size)
        (if start.toNat + size.toNat ≤ T.max then some (start, start.toNat + size.toNat) else none) ↔
      ¬T.Gap (start.toNat + size.toNat)) ∧
    (T ≠ .u32 → ∀ sum, ¬T.Gap sum) := by
  refine ⟨MmioAddrRange.reg_answers_iff range width offset, ?_, ?_, ?_,
    MmioAddrRange.fromStartSize_answers_iff start size, Unsigned.not_gap_of_wide⟩
  · exact MmioAddrRange.thenAligned_answers_iff range 2 offset fun addr => aligns addr 2 ⟨1, rfl⟩
  · exact MmioAddrRange.thenAligned_answers_iff range 4 offset fun addr => aligns addr 4 ⟨2, rfl⟩
  · exact MmioAddrRange.thenAligned_answers_iff range 8 offset fun addr => aligns addr 8 ⟨3, rfl⟩

def maskAligned (addr align : Usize) : Bool := addr &&& (align - 1) = 0

theorem maskAligned_tests : MmioAddrRange.TestsAlignment maskAligned := by
  intro addr align power
  have positive : 0 < align.toNat := Nat.pos_of_isPowerOfTwo power
  have one : (1 : Usize) ≤ align := BitVec.le_def.mpr positive
  rw [maskAligned, decide_eq_true_iff, ← BitVec.toNat_inj, BitVec.toNat_and,
    BitVec.toNat_sub_of_le one, Nat.dvd_iff_mod_eq_zero]
  rw [show (1 : Usize).toNat = 1 from rfl, and_pred_of_isPowerOfTwo power]
  rfl

def mmioSampleRange : MmioAddrRange .u32 := ⟨⟨0x1000⟩, ⟨0x1040⟩, by decide⟩

theorem register_lookup_exact_sample :
    Answers IoAddr.toNat (mmioSampleRange.reg32Aligned maskAligned 0x20) (some 0x1020) ∧
      Answers IoAddr.toNat (mmioSampleRange.reg32Aligned maskAligned 0x22) none := by
  have lookups := register_lookup_exact maskAligned maskAligned_tests .u32 mmioSampleRange ⟨0x1000⟩ 4
  have aligned := lookups 0x20 0x40
  have unaligned := lookups 0x22 0x40
  exact ⟨aligned.2.2.1.mpr (by decide), unaligned.2.2.1.mpr (by decide)⟩

/-- An offset that is too large for the range, but not for a machine word. -/
theorem register_lookup_panics :
    ¬∀ (T : Unsigned) (range : MmioAddrRange T) (width offset : Usize),
      Answers IoAddr.toNat (range.reg width offset) (range.located width offset) := by
  intro total
  refine not_answers_panicked ?_ (total .u32 mmioSampleRange 4 0xfffff000)
  rfl

end Iommu
