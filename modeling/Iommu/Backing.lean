import Iommu.Error
import Iommu.Library.ByteMemory
import Iommu.Library.MachineWord

/-!
Caller-provided memory for hardware rings and descriptor tables. A backing
carries what its constructor checked, so an invalid one cannot be built.
-/

namespace Iommu

open MachineWord Memory

structure AddrRange where
  start : Nat
  endAddr : Nat
  ordered : start ≤ endAddr
  bounded : endAddr < limit
  deriving DecidableEq

def AddrRange.size (range : AddrRange) : Nat := range.endAddr - range.start

def AddrRange.fromStartSize (start size : Nat) (bounded : start + size < limit) : AddrRange :=
  ⟨start, start + size, Nat.le_add_right start size, bounded⟩

theorem registerPage_bounded : 0xfed90000 + 0x1000 < limit := by decide

theorem AddrRange.start_add_size (range : AddrRange) : range.start + range.size = range.endAddr := by
  have ordered := range.ordered
  rw [AddrRange.size]
  omega

theorem AddrRange.start_lt (range : AddrRange) : range.start < limit :=
  Nat.lt_of_le_of_lt range.ordered range.bounded

theorem entry_le_of_lt {left right : Nat} (before : left < right) (width : Nat) :
    left * width + width ≤ right * width := by
  have scaled := Nat.mul_le_mul_right width before
  rw [Nat.succ_mul] at scaled
  exact scaled

theorem entry_apart_of_ne {left right : Nat} (different : left ≠ right) (width : Nat) :
    left * width + width ≤ right * width ∨ right * width + width ≤ left * width := by
  rcases Nat.lt_or_gt_of_ne different with before | after
  · exact Or.inl (entry_le_of_lt before width)
  · exact Or.inr (entry_le_of_lt after width)

theorem AddrRange.entry_inside (range : AddrRange) {index entryCount width : Nat}
    (fits : entryCount * width ≤ range.size) (below : index < entryCount) :
    range.start + index * width + width ≤ range.endAddr := by
  have reached := entry_le_of_lt below width
  have top := range.start_add_size
  omega

structure CommandQueueBacking where
  phys : AddrRange
  virt : AddrRange
  entryCount : Nat
  entryBytes : Nat
  countPower : entryCount.isPowerOfTwo
  bytesPower : entryBytes.isPowerOfTwo
  wideEntry : 8 ≤ entryBytes
  sizeBound : entryCount * entryBytes < limit
  physFits : entryCount * entryBytes ≤ phys.size
  virtFits : entryCount * entryBytes ≤ virt.size
  physAligned : phys.start % entryBytes = 0
  virtAligned : virt.start % entryBytes = 0
  deriving DecidableEq

namespace CommandQueueBacking

def new (phys virt : AddrRange) (entryCount entryBytes : Nat) : Except Error CommandQueueBacking :=
  if countPower : entryCount.isPowerOfTwo then
    if bytesPower : entryBytes.isPowerOfTwo ∧ 8 ≤ entryBytes then
      if sizeBound : entryCount * entryBytes < limit then
        if fits : entryCount * entryBytes ≤ phys.size ∧ entryCount * entryBytes ≤ virt.size then
          if aligned : phys.start % entryBytes = 0 ∧ virt.start % entryBytes = 0 then
            .ok ⟨phys, virt, entryCount, entryBytes, countPower, bytesPower.1, bytesPower.2,
              sizeBound, fits.1, fits.2, aligned.1, aligned.2⟩
          else .error .invalidAddress
        else .error .invalidRange
      else .error .addressOverflow
    else .error .invalidGranule
  else .error .invalidRange

def byteLen (backing : CommandQueueBacking) : Nat := backing.entryCount * backing.entryBytes

def entryVaddr (backing : CommandQueueBacking) (slot : Nat) : Except Error Nat :=
  match checkedMul slot backing.entryBytes with
  | none => .error .addressOverflow
  | some offset =>
      match checkedAdd backing.virt.start offset with
      | none => .error .addressOverflow
      | some vaddr => .ok vaddr

/-- The safety contract of the constructor: `virt` maps `phys` over the whole ring. -/
def Mapped (mmu : Translation) (backing : CommandQueueBacking) : Prop :=
  Contiguous mmu backing.virt.start backing.phys.start backing.byteLen

def Owns (backing : CommandQueueBacking) (paddr : Nat) : Prop :=
  backing.phys.start ≤ paddr ∧ paddr < backing.phys.start + backing.byteLen

def slotBytes (backing : CommandQueueBacking) (memory : Memory) (slot : Nat) : List UInt8 :=
  loadBytes memory (backing.phys.start + slot * backing.entryBytes) backing.entryBytes

theorem new_eq_ok {phys virt : AddrRange} {entryCount entryBytes : Nat}
    {backing : CommandQueueBacking} (accepted : new phys virt entryCount entryBytes = .ok backing) :
    backing.phys = phys ∧ backing.virt = virt ∧ backing.entryCount = entryCount ∧
      backing.entryBytes = entryBytes := by
  unfold new at accepted
  repeat' split at accepted
  all_goals try contradiction
  cases accepted
  exact ⟨rfl, rfl, rfl, rfl⟩

theorem entryCount_pos (backing : CommandQueueBacking) : 0 < backing.entryCount :=
  Nat.pos_of_isPowerOfTwo backing.countPower

theorem entryBytes_pos (backing : CommandQueueBacking) : 0 < backing.entryBytes := by
  have wide := backing.wideEntry
  omega

theorem slot_fits (backing : CommandQueueBacking) {slot : Nat} (below : slot < backing.entryCount) :
    slot * backing.entryBytes + backing.entryBytes ≤ backing.byteLen :=
  entry_le_of_lt below backing.entryBytes

theorem entryVaddr_of_lt (backing : CommandQueueBacking) {slot : Nat}
    (below : slot < backing.entryCount) :
    backing.entryVaddr slot = .ok (backing.virt.start + slot * backing.entryBytes) := by
  have fits := backing.slot_fits below
  have inside := backing.virtFits
  have top := backing.virt.start_add_size
  have bounded := backing.virt.bounded
  rw [byteLen] at fits
  rw [entryVaddr, checkedMul_of_lt (by omega)]
  simp only
  rw [checkedAdd_of_lt (by omega)]

theorem slot_contiguous {mmu : Translation} {backing : CommandQueueBacking}
    (mapped : backing.Mapped mmu) {slot : Nat} (below : slot < backing.entryCount) :
    Contiguous mmu (backing.virt.start + slot * backing.entryBytes)
      (backing.phys.start + slot * backing.entryBytes) backing.entryBytes :=
  mapped.shift _ _ (backing.slot_fits below)

theorem slots_disjoint (backing : CommandQueueBacking) {left right : Nat} (different : left < right) :
    left * backing.entryBytes + backing.entryBytes ≤ right * backing.entryBytes :=
  entry_le_of_lt different backing.entryBytes

end CommandQueueBacking

def smallRing (exponent : Nat) (small : 2 ^ exponent * 8 < limit) : CommandQueueBacking where
  phys := .fromStartSize 0 (2 ^ exponent * 8) (by omega)
  virt := .fromStartSize 0 (2 ^ exponent * 8) (by omega)
  entryCount := 2 ^ exponent
  entryBytes := 8
  countPower := ⟨exponent, rfl⟩
  bytesPower := ⟨3, rfl⟩
  wideEntry := Nat.le_refl 8
  sizeBound := small
  physFits := by simp [AddrRange.fromStartSize, AddrRange.size]
  virtFits := by simp [AddrRange.fromStartSize, AddrRange.size]
  physAligned := rfl
  virtAligned := rfl

theorem smallRing_mapped (exponent : Nat) (small : 2 ^ exponent * 8 < limit) :
    (smallRing exponent small).Mapped id := fun _ _ => rfl

def twoEntryRing : CommandQueueBacking := smallRing 1 (by decide)

theorem descriptorBytes_power : (16 : Nat).isPowerOfTwo := ⟨4, rfl⟩

theorem descriptorBytes_wide : 8 ≤ 16 := by decide

def descriptorRing : CommandQueueBacking where
  phys := .fromStartSize 0 32 (by decide)
  virt := .fromStartSize 0 32 (by decide)
  entryCount := 2
  entryBytes := 16
  countPower := ⟨1, rfl⟩
  bytesPower := descriptorBytes_power
  wideEntry := descriptorBytes_wide
  sizeBound := by decide
  physFits := by decide
  virtFits := by decide
  physAligned := rfl
  virtAligned := rfl

def fourEntryRing : CommandQueueBacking := smallRing 2 (by decide)

structure DescriptorTableBacking (entryBytes : Nat) where
  phys : AddrRange
  virt : AddrRange
  entryCount : Nat
  bytesPower : entryBytes.isPowerOfTwo
  countPos : 0 < entryCount
  sizeBound : entryCount * entryBytes < limit
  physFits : entryCount * entryBytes ≤ phys.size
  virtFits : entryCount * entryBytes ≤ virt.size
  virtAligned : virt.start % entryBytes = 0
  deriving DecidableEq

namespace DescriptorTableBacking

variable {entryBytes : Nat}

def newAligned (phys virt : AddrRange) (entryCount physAlignment : Nat) :
    Except Error (DescriptorTableBacking entryBytes) :=
  if bytesPower : entryBytes.isPowerOfTwo then
    if countPos : 0 < entryCount then
      if physAlignment.isPowerOfTwo then
        if sizeBound : entryCount * entryBytes < limit then
          if fits : entryCount * entryBytes ≤ phys.size ∧ entryCount * entryBytes ≤ virt.size then
            if aligned : phys.start % physAlignment = 0 ∧ virt.start % entryBytes = 0 then
              .ok ⟨phys, virt, entryCount, bytesPower, countPos, sizeBound, fits.1, fits.2,
                aligned.2⟩
            else .error .invalidAddress
          else .error .invalidRange
        else .error .addressOverflow
      else .error .invalidGranule
    else .error .invalidRange
  else .error .invalidGranule

def new (phys virt : AddrRange) (entryCount : Nat) :
    Except Error (DescriptorTableBacking entryBytes) :=
  newAligned phys virt entryCount entryBytes

def byteLen (backing : DescriptorTableBacking entryBytes) : Nat := backing.entryCount * entryBytes

def entryVaddr (backing : DescriptorTableBacking entryBytes) (index : Nat) : Except Error Nat :=
  if backing.entryCount ≤ index then .error .invalidRange
  else
    match checkedMul index entryBytes with
    | none => .error .addressOverflow
    | some offset =>
        match checkedAdd backing.virt.start offset with
        | none => .error .addressOverflow
        | some vaddr => .ok vaddr

def Mapped (mmu : Translation) (backing : DescriptorTableBacking entryBytes) : Prop :=
  Contiguous mmu backing.virt.start backing.phys.start backing.byteLen

def Owns (backing : DescriptorTableBacking entryBytes) (paddr : Nat) : Prop :=
  backing.phys.start ≤ paddr ∧ paddr < backing.phys.start + backing.byteLen

def entryPaddr (backing : DescriptorTableBacking entryBytes) (index : Nat) : Nat :=
  backing.phys.start + index * entryBytes

theorem newAligned_eq_ok {phys virt : AddrRange} {entryCount physAlignment : Nat}
    {backing : DescriptorTableBacking entryBytes}
    (accepted : newAligned phys virt entryCount physAlignment = .ok backing) :
    backing.phys = phys ∧ backing.virt = virt ∧ backing.entryCount = entryCount ∧
      phys.start % physAlignment = 0 := by
  unfold newAligned at accepted
  repeat' split at accepted
  all_goals try contradiction
  rename_i aligned
  cases accepted
  exact ⟨rfl, rfl, rfl, aligned.1⟩

theorem entry_fits (backing : DescriptorTableBacking entryBytes) {index : Nat}
    (below : index < backing.entryCount) :
    index * entryBytes + entryBytes ≤ backing.byteLen :=
  entry_le_of_lt below entryBytes

theorem entry_owned (backing : DescriptorTableBacking entryBytes) {index : Nat}
    (below : index < backing.entryCount) {offset : Nat} (inside : offset < entryBytes) :
    backing.Owns (backing.entryPaddr index + offset) := by
  have fits := backing.entry_fits below
  rw [Owns, entryPaddr]
  omega

theorem entries_apart_of_ne (backing : DescriptorTableBacking entryBytes) {left right : Nat}
    (different : left ≠ right) :
    backing.entryPaddr left + entryBytes ≤ backing.entryPaddr right ∨
      backing.entryPaddr right + entryBytes ≤ backing.entryPaddr left := by
  have apart := entry_apart_of_ne different entryBytes
  rw [entryPaddr, entryPaddr]
  omega

def Disjoint {otherBytes : Nat} (first : DescriptorTableBacking entryBytes)
    (second : DescriptorTableBacking otherBytes) : Prop :=
  ∀ paddr, ¬(first.Owns paddr ∧ second.Owns paddr)

theorem entries_apart {otherBytes : Nat} {first : DescriptorTableBacking entryBytes}
    {second : DescriptorTableBacking otherBytes} (disjoint : first.Disjoint second)
    {left right : Nat} (leftBelow : left < first.entryCount)
    (rightBelow : right < second.entryCount) :
    first.entryPaddr left + entryBytes ≤ second.entryPaddr right ∨
      second.entryPaddr right + otherBytes ≤ first.entryPaddr left := by
  have leftWidth := Nat.pos_of_isPowerOfTwo first.bytesPower
  have rightWidth := Nat.pos_of_isPowerOfTwo second.bytesPower
  by_contra overlap
  rw [not_or, Nat.not_le, Nat.not_le] at overlap
  rcases Nat.le_total (first.entryPaddr left) (second.entryPaddr right) with before | after
  · have reach : second.entryPaddr right - first.entryPaddr left < entryBytes := by omega
    have inside := first.entry_owned leftBelow reach
    rw [Nat.add_sub_cancel' before] at inside
    exact disjoint _ ⟨inside, second.entry_owned rightBelow rightWidth⟩
  · have reach : first.entryPaddr left - second.entryPaddr right < otherBytes := by omega
    have inside := second.entry_owned rightBelow reach
    rw [Nat.add_sub_cancel' after] at inside
    exact disjoint _ ⟨first.entry_owned leftBelow leftWidth, inside⟩

theorem entryVaddr_of_lt (backing : DescriptorTableBacking entryBytes) {index : Nat}
    (below : index < backing.entryCount) :
    backing.entryVaddr index = .ok (backing.virt.start + index * entryBytes) := by
  have fits := backing.entry_fits below
  have inside := backing.virtFits
  have top := backing.virt.start_add_size
  have bounded := backing.virt.bounded
  have width := Nat.pos_of_isPowerOfTwo backing.bytesPower
  rw [byteLen] at fits
  rw [entryVaddr, if_neg (by omega), checkedMul_of_lt (by omega)]
  simp only
  rw [checkedAdd_of_lt (by omega)]

theorem entryVaddr_of_le (backing : DescriptorTableBacking entryBytes) {index : Nat}
    (outside : backing.entryCount ≤ index) :
    backing.entryVaddr index = .error .invalidRange := by
  rw [entryVaddr, if_pos outside]

theorem entry_contiguous {mmu : Translation} {backing : DescriptorTableBacking entryBytes}
    (mapped : backing.Mapped mmu) {index : Nat} (below : index < backing.entryCount) :
    Contiguous mmu (backing.virt.start + index * entryBytes) (backing.entryPaddr index) entryBytes :=
  mapped.shift _ _ (backing.entry_fits below)

theorem page_sizeBound {entryBytes : Nat} (fits : 256 * entryBytes ≤ 0x1000) :
    256 * entryBytes < limit := by
  rw [limit]
  omega

theorem page_fits {entryBytes start : Nat} (fits : 256 * entryBytes ≤ 0x1000)
    (bounded : start + 0x1000 < limit) :
    256 * entryBytes ≤ (AddrRange.fromStartSize start 0x1000 bounded).size := by
  simp only [AddrRange.fromStartSize, AddrRange.size]
  omega

theorem page_countPos : 0 < 256 := by decide

def page (entryBytes start : Nat) (bytesPower : entryBytes.isPowerOfTwo)
    (fits : 256 * entryBytes ≤ 0x1000) (bounded : start + 0x1000 < limit)
    (aligned : start % entryBytes = 0) : DescriptorTableBacking entryBytes where
  phys := .fromStartSize start 0x1000 bounded
  virt := .fromStartSize start 0x1000 bounded
  entryCount := 256
  bytesPower := bytesPower
  countPos := page_countPos
  sizeBound := page_sizeBound fits
  physFits := page_fits fits bounded
  virtFits := page_fits fits bounded
  virtAligned := aligned

end DescriptorTableBacking

end Iommu
