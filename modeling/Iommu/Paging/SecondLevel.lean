import Iommu.Library.BitMasks
import Iommu.Library.MachineWord
import Iommu.Paging.Entries

/-!
Second-level page-table entries of VT-d: the permissions are the lowest two bits, which are also what
makes an entry present, and a bit of its own marks a leaf above the lowest level.
-/

namespace Iommu

open BitMasks MachineWord

structure VtdSecondLevelFlags where
  access : AccessFlags
  attrs : MemoryAttributes

structure VtdSecondLevelPte where
  bits : UInt64
  deriving DecidableEq

namespace VtdSecondLevelPte

def ADDR_MASK : UInt64 := 0x000ffffffffff000
def READ : UInt64 := (1 : UInt64) <<< 0
def WRITE : UInt64 := (1 : UInt64) <<< 1
def SUPER_PAGE : UInt64 := (1 : UInt64) <<< 7
def PRESENT : UInt64 := READ ||| WRITE

def toLeafBits (flags : VtdSecondLevelFlags) (size : PageSize) : UInt64 :=
  flag (.read ∈ flags.access) READ ||| flag (.write ∈ flags.access) WRITE |||
    flag (size ≠ .size4K) SUPER_PAGE

def flagsFromBits (bits : UInt64) : VtdSecondLevelFlags where
  access := (if bits &&& READ ≠ 0 then {.read} else ∅) ∪ if bits &&& WRITE ≠ 0 then {.write} else ∅
  attrs := .writeback

def newLeaf (paddr : UInt64) (flags : VtdSecondLevelFlags) (size : PageSize) : VtdSecondLevelPte :=
  ⟨paddr &&& ADDR_MASK ||| toLeafBits flags size⟩

def newTable (paddr : UInt64) (_level : UInt8) : VtdSecondLevelPte := ⟨paddr &&& ADDR_MASK ||| PRESENT⟩

def paddr (entry : VtdSecondLevelPte) : UInt64 := entry.bits &&& ADDR_MASK

def flags (entry : VtdSecondLevelPte) : VtdSecondLevelFlags := flagsFromBits entry.bits

def isPresent (entry : VtdSecondLevelPte) : Bool := entry.bits &&& PRESENT ≠ 0

def entryKind (entry : VtdSecondLevelPte) (level : UInt8) : PageTableEntryKind :=
  if entry.isPresent = false then .invalid
  else if level = 1 ∨ entry.bits &&& SUPER_PAGE ≠ 0 then .leaf
  else .table

def clear (_entry : VtdSecondLevelPte) : VtdSecondLevelPte := ⟨0⟩

instance : PageTableEntry VtdSecondLevelPte VtdSecondLevelFlags where
  newLeaf := newLeaf
  newTable := newTable
  paddr := paddr
  flags := flags
  access := VtdSecondLevelFlags.access
  isPresent := isPresent
  entryKind := entryKind
  clear := clear
  levelSupportsLeaf := leafSizes

variable {paddr : UInt64} {flags : VtdSecondLevelFlags} {size : PageSize} {level : UInt8}

theorem toLeafBits_and (flags : VtdSecondLevelFlags) (size : PageSize) (field : UInt64) :
    toLeafBits flags size &&& field = flag (.read ∈ flags.access) (READ &&& field) |||
      flag (.write ∈ flags.access) (WRITE &&& field) ||| flag (size ≠ .size4K) (SUPER_PAGE &&& field) := by
  rw [toLeafBits, or_and, or_and, flag_and, flag_and, flag_and]

theorem toLeafBits_apart (flags : VtdSecondLevelFlags) (size : PageSize) :
    toLeafBits flags size &&& ADDR_MASK = 0 := by
  have read : READ &&& ADDR_MASK = 0 := rfl
  have write : WRITE &&& ADDR_MASK = 0 := rfl
  have super : SUPER_PAGE &&& ADDR_MASK = 0 := rfl
  simp [toLeafBits_and, read, write, super]

theorem newLeaf_and {field : UInt64} (apart : ADDR_MASK &&& field = 0) (paddr : UInt64)
    (flags : VtdSecondLevelFlags) (size : PageSize) :
    (newLeaf paddr flags size).bits &&& field = flag (.read ∈ flags.access) (READ &&& field) |||
      flag (.write ∈ flags.access) (WRITE &&& field) |||
        flag (size ≠ .size4K) (SUPER_PAGE &&& field) := by
  rw [newLeaf, masked_or_and apart, toLeafBits_and]

theorem newLeaf_read : (newLeaf paddr flags size).bits &&& READ ≠ 0 ↔ .read ∈ flags.access := by
  have write : WRITE &&& READ = 0 := rfl
  have super : SUPER_PAGE &&& READ = 0 := rfl
  rw [newLeaf_and rfl, write, super, flag_zero, flag_zero, UInt64.or_zero, UInt64.or_zero]
  exact flag_ne_zero_iff (by decide)

theorem newLeaf_write : (newLeaf paddr flags size).bits &&& WRITE ≠ 0 ↔ .write ∈ flags.access := by
  have read : READ &&& WRITE = 0 := rfl
  have super : SUPER_PAGE &&& WRITE = 0 := rfl
  rw [newLeaf_and rfl, read, super, flag_zero, flag_zero, UInt64.or_zero, UInt64.zero_or]
  exact flag_ne_zero_iff (by decide)

theorem newLeaf_superPage : (newLeaf paddr flags size).bits &&& SUPER_PAGE ≠ 0 ↔ size ≠ .size4K := by
  have read : READ &&& SUPER_PAGE = 0 := rfl
  have write : WRITE &&& SUPER_PAGE = 0 := rfl
  rw [newLeaf_and rfl, read, write, flag_zero, flag_zero, UInt64.or_zero, UInt64.zero_or]
  exact flag_ne_zero_iff (by decide)

theorem newLeaf_isPresent (permitted : .read ∈ flags.access ∨ .write ∈ flags.access) :
    (newLeaf paddr flags size).isPresent = true := by
  have super : SUPER_PAGE &&& PRESENT = 0 := rfl
  rw [isPresent, newLeaf_and rfl, super, flag_zero, UInt64.or_zero, decide_eq_true_eq, ne_eq,
    UInt64.or_eq_zero_iff]
  rintro ⟨unread, unwritten⟩
  rcases permitted with readable | writable
  · exact (flag_ne_zero_iff (by decide)).mpr readable unread
  · exact (flag_ne_zero_iff (by decide)).mpr writable unwritten

theorem newLeaf_paddr (frame : FrameAddress paddr) : (newLeaf paddr flags size).paddr = paddr := by
  have masked : paddr &&& ADDR_MASK = paddr := frame.masked rfl
  rw [VtdSecondLevelPte.paddr, newLeaf, masked_or_and_mask (toLeafBits_apart flags size), masked]

theorem newLeaf_access :
    (newLeaf paddr flags size).flags.access = flags.access ∩ {.read, .write} := by
  rw [VtdSecondLevelPte.flags, flagsFromBits]
  simp only [newLeaf_read, newLeaf_write]
  exact access_restricted flags.access

theorem newLeaf_entryKind (permitted : .read ∈ flags.access ∨ .write ∈ flags.access)
    (supported : leafSizes level size = true) :
    (newLeaf paddr flags size).entryKind level = .leaf := by
  rw [entryKind, newLeaf_isPresent permitted, if_neg (by decide), if_pos]
  rw [newLeaf_superPage]
  rcases leafSizes_cases supported with ⟨rfl, _⟩ | ⟨_, rfl⟩ | ⟨_, rfl⟩
  · exact Or.inl rfl
  · exact Or.inr (by decide)
  · exact Or.inr (by decide)

theorem newTable_paddr (frame : FrameAddress paddr) : (newTable paddr level).paddr = paddr := by
  have masked : paddr &&& ADDR_MASK = paddr := frame.masked rfl
  rw [VtdSecondLevelPte.paddr, newTable, masked_or_and_mask rfl, masked]

theorem newTable_entryKind (inner : 2 ≤ level) : (newTable paddr level).entryKind level = .table := by
  have present : (newTable paddr level).bits &&& PRESENT = PRESENT := masked_or_and rfl
  have super : (newTable paddr level).bits &&& SUPER_PAGE = 0 := masked_or_and rfl
  rw [entryKind, isPresent, present, super]
  rw [if_neg (by decide), if_neg]
  rintro (rfl | set)
  · exact absurd inner (by decide)
  · exact set rfl

theorem clear_entryKind (entry : VtdSecondLevelPte) (level : UInt8) :
    entry.clear.entryKind level = .invalid := by
  have absent : entry.clear.isPresent = false := by
    rw [clear, isPresent, UInt64.zero_and]
    rfl
  rw [entryKind, if_pos absent]

end VtdSecondLevelPte

/-- The permissions are what makes a second-level entry present, so that a leaf has one of them. -/
theorem secondLevel_decodes :
    DecodesEntries VtdSecondLevelPte fun access => .read ∈ access ∨ .write ∈ access where
  leaf := fun _ _ _ _ frame permitted supported =>
    ⟨VtdSecondLevelPte.newLeaf_isPresent permitted,
      VtdSecondLevelPte.newLeaf_entryKind permitted supported,
      VtdSecondLevelPte.newLeaf_paddr frame, VtdSecondLevelPte.newLeaf_access⟩
  table := fun _ _ frame inner _ =>
    ⟨VtdSecondLevelPte.newTable_entryKind inner, VtdSecondLevelPte.newTable_paddr frame⟩
  cleared := VtdSecondLevelPte.clear_entryKind

end Iommu
