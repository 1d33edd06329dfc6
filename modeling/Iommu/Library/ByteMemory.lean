import Mathlib.Algebra.Group.Nat.Defs
import Mathlib.Tactic.Common
import Mathlib.Logic.Function.Basic

/-!
Byte-addressed physical memory, written through an address translation and read
back by physical address, with little-endian encodings of machine words.
-/

abbrev Memory := Nat → UInt8

abbrev Translation := Nat → Nat

namespace Memory

def ofBytesLE : List UInt8 → Nat
  | [] => 0
  | byte :: rest => byte.toNat + 256 * ofBytesLE rest

def toBytesLE : Nat → Nat → List UInt8
  | 0, _ => []
  | width + 1, value => UInt8.ofNat (value % 256) :: toBytesLE width (value / 256)

@[simp] theorem toBytesLE_length (width value : Nat) : (toBytesLE width value).length = width := by
  induction width generalizing value with
  | zero => rfl
  | succ width ih => simp [toBytesLE, ih]

theorem ofBytesLE_toBytesLE (width value : Nat) :
    ofBytesLE (toBytesLE width value) = value % 256 ^ width := by
  induction width generalizing value with
  | zero => simp [toBytesLE, ofBytesLE, Nat.mod_one]
  | succ width ih =>
      have low : (UInt8.ofNat (value % 256)).toNat = value % 256 := by
        simp [UInt8.toNat_ofNat']
      rw [toBytesLE, ofBytesLE, ih, low, Nat.pow_succ', Nat.mod_mul]

theorem ofBytesLE_toBytesLE_of_lt {width value : Nat} (small : value < 256 ^ width) :
    ofBytesLE (toBytesLE width value) = value :=
  (ofBytesLE_toBytesLE width value).trans (Nat.mod_eq_of_lt small)

theorem byte_bytes (byte : UInt8) : UInt8.ofNat (ofBytesLE [byte]) = byte := by
  simp [ofBytesLE]

theorem word32_bytes (word : UInt32) : UInt32.ofNat (ofBytesLE (toBytesLE 4 word.toNat)) = word := by
  have small : word.toNat % 256 ^ 4 = word.toNat := Nat.mod_eq_of_lt word.toNat_lt
  rw [ofBytesLE_toBytesLE, small, UInt32.ofNat_toNat]

theorem word64_bytes (word : UInt64) : UInt64.ofNat (ofBytesLE (toBytesLE 8 word.toNat)) = word := by
  have small : word.toNat % 256 ^ 8 = word.toNat := Nat.mod_eq_of_lt word.toNat_lt
  rw [ofBytesLE_toBytesLE, small, UInt64.ofNat_toNat]

def storeByte (mmu : Translation) (memory : Memory) (vaddr : Nat) (byte : UInt8) : Memory :=
  Function.update memory (mmu vaddr) byte

def storeBytes (mmu : Translation) : Memory → Nat → List UInt8 → Memory
  | memory, _, [] => memory
  | memory, vaddr, byte :: rest => storeBytes mmu (storeByte mmu memory vaddr byte) (vaddr + 1) rest

def store64 (mmu : Translation) (memory : Memory) (vaddr : Nat) (word : UInt64) : Memory :=
  storeBytes mmu memory vaddr (toBytesLE 8 word.toNat)

def loadBytes (memory : Memory) (paddr count : Nat) : List UInt8 :=
  (List.range count).map fun offset => memory (paddr + offset)

def load64 (memory : Memory) (paddr : Nat) : UInt64 :=
  UInt64.ofNat (ofBytesLE (loadBytes memory paddr 8))

/-- The translation maps `count` consecutive virtual bytes onto consecutive physical ones. -/
def Contiguous (mmu : Translation) (vaddr paddr count : Nat) : Prop :=
  ∀ offset < count, mmu (vaddr + offset) = paddr + offset

theorem Contiguous.shift {mmu : Translation} {vaddr paddr count : Nat}
    (contiguous : Contiguous mmu vaddr paddr count) (base width : Nat)
    (fits : base + width ≤ count) : Contiguous mmu (vaddr + base) (paddr + base) width := by
  intro offset below
  have mapped := contiguous (base + offset) (by omega)
  rw [← Nat.add_assoc, ← Nat.add_assoc] at mapped
  exact mapped

theorem Contiguous.narrow {mmu : Translation} {vaddr paddr count : Nat}
    (contiguous : Contiguous mmu vaddr paddr count) {width : Nat} (fits : width ≤ count) :
    Contiguous mmu vaddr paddr width :=
  fun offset below => contiguous offset (Nat.lt_of_lt_of_le below fits)

@[simp] theorem loadBytes_length (memory : Memory) (paddr count : Nat) :
    (loadBytes memory paddr count).length = count := by
  simp [loadBytes]

theorem loadBytes_congr {first second : Memory} {paddr count : Nat}
    (same : ∀ offset < count, first (paddr + offset) = second (paddr + offset)) :
    loadBytes first paddr count = loadBytes second paddr count := by
  apply List.map_congr_left
  intro offset member
  exact same offset (List.mem_range.mp member)

theorem storeBytes_apply {mmu : Translation} {vaddr paddr : Nat} (memory : Memory)
    (bytes : List UInt8) (contiguous : Contiguous mmu vaddr paddr bytes.length) (query : Nat) :
    storeBytes mmu memory vaddr bytes query =
      if paddr ≤ query ∧ query < paddr + bytes.length then bytes.getD (query - paddr) 0
      else memory query := by
  induction bytes generalizing memory vaddr paddr with
  | nil =>
      rw [storeBytes, if_neg]
      simp
  | cons byte rest ih =>
      have first : mmu vaddr = paddr := by simpa using contiguous 0 (by simp)
      have tail : Contiguous mmu (vaddr + 1) (paddr + 1) rest.length :=
        contiguous.shift 1 rest.length (by simp only [List.length_cons]; omega)
      rw [storeBytes, ih _ tail]
      by_cases same : query = paddr
      · subst query
        have inside : paddr ≤ paddr ∧ paddr < paddr + (byte :: rest).length := by simp
        have outside : ¬(paddr + 1 ≤ paddr ∧ paddr < paddr + 1 + rest.length) := by omega
        rw [if_pos inside, if_neg outside]
        simp [storeByte, first]
      · by_cases inside : paddr ≤ query ∧ query < paddr + (byte :: rest).length
        · have later : paddr + 1 ≤ query ∧ query < paddr + 1 + rest.length := by
            simp only [List.length_cons] at inside
            omega
          have index : query - paddr = query - (paddr + 1) + 1 := by omega
          rw [if_pos inside, if_pos later, index, List.getD_cons_succ]
        · have outside : ¬(paddr + 1 ≤ query ∧ query < paddr + 1 + rest.length) := by
            simp only [List.length_cons] at inside
            omega
          rw [if_neg inside, if_neg outside, storeByte, first, Function.update_of_ne same]

theorem loadBytes_storeBytes {mmu : Translation} {vaddr paddr : Nat} (memory : Memory)
    (bytes : List UInt8) (contiguous : Contiguous mmu vaddr paddr bytes.length) :
    loadBytes (storeBytes mmu memory vaddr bytes) paddr bytes.length = bytes := by
  apply List.ext_getElem (by simp)
  intro index below inside
  simp only [loadBytes, List.getElem_map, List.getElem_range]
  rw [storeBytes_apply memory bytes contiguous, if_pos (by omega), Nat.add_sub_cancel_left]
  simp [inside]

/-- So many bytes from an address on have the given content, and every other byte is as it was. -/
structure Replaced (before after : Memory) (paddr width : Nat) (content : List UInt8) : Prop where
  inside : loadBytes after paddr width = content
  outside : ∀ query, query < paddr ∨ paddr + width ≤ query → after query = before query

theorem replaced_storeBytes {mmu : Translation} {vaddr paddr width : Nat} (memory : Memory)
    {bytes : List UInt8} (length : bytes.length = width) (contiguous : Contiguous mmu vaddr paddr width) :
    Replaced memory (storeBytes mmu memory vaddr bytes) paddr width bytes := by
  subst length
  constructor
  · exact loadBytes_storeBytes memory bytes contiguous
  · intro query outside
    rw [storeBytes_apply memory bytes contiguous, if_neg]
    omega

theorem storeBytes_append (mmu : Translation) (memory : Memory) (vaddr : Nat)
    (first second : List UInt8) :
    storeBytes mmu memory vaddr (first ++ second) =
      storeBytes mmu (storeBytes mmu memory vaddr first) (vaddr + first.length) second := by
  induction first generalizing memory vaddr with
  | nil => rfl
  | cons byte rest ih =>
      rw [List.cons_append, storeBytes, storeBytes, ih, List.length_cons, Nat.add_right_comm,
        Nat.add_assoc]

theorem store64_apply_outside {mmu : Translation} {vaddr paddr : Nat} (memory : Memory)
    (word : UInt64) (contiguous : Contiguous mmu vaddr paddr 8) {query : Nat}
    (outside : query < paddr ∨ paddr + 8 ≤ query) :
    store64 mmu memory vaddr word query = memory query := by
  have covers : Contiguous mmu vaddr paddr (toBytesLE 8 word.toNat).length := by
    rw [toBytesLE_length]
    exact contiguous
  rw [store64, storeBytes_apply memory _ covers, if_neg]
  rw [toBytesLE_length]
  omega

theorem load64_store64 {mmu : Translation} {vaddr paddr : Nat} (memory : Memory) (word : UInt64)
    (contiguous : Contiguous mmu vaddr paddr 8) :
    load64 (store64 mmu memory vaddr word) paddr = word := by
  have covers : Contiguous mmu vaddr paddr (toBytesLE 8 word.toNat).length := by
    rw [toBytesLE_length]
    exact contiguous
  have stored := loadBytes_storeBytes memory (toBytesLE 8 word.toNat) covers
  rw [toBytesLE_length] at stored
  rw [load64, store64, stored, word64_bytes]

theorem load64_congr {first second : Memory} {paddr : Nat}
    (same : ∀ offset < 8, first (paddr + offset) = second (paddr + offset)) :
    load64 first paddr = load64 second paddr := by
  rw [load64, load64, loadBytes_congr same]

theorem load64_store64_outside {mmu : Translation} {vaddr paddr : Nat} (memory : Memory)
    (word : UInt64) (contiguous : Contiguous mmu vaddr paddr 8) {query : Nat}
    (apart : query + 8 ≤ paddr ∨ paddr + 8 ≤ query) :
    load64 (store64 mmu memory vaddr word) query = load64 memory query := by
  apply load64_congr
  intro offset below
  exact store64_apply_outside memory word contiguous (by omega)

end Memory
