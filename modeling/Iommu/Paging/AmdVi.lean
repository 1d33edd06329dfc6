import Iommu.Library.BitMasks
import Iommu.Paging.SecondLevel

/-!
Page-table entries of AMD-Vi: a bit of its own makes an entry present, the permissions are high bits,
and a field names the level that the entry leads to, with a marker for leaves above the lowest level.
-/

namespace Iommu

open BitMasks MachineWord

structure AmdViFlags where
  access : AccessFlags
  attrs : MemoryAttributes

structure AmdViPte where
  bits : UInt64
  deriving DecidableEq

namespace AmdViPte

def PRESENT : UInt64 := (1 : UInt64) <<< 0
def ADDR_MASK : UInt64 := 0x000ffffffffff000
def IO_READ : UInt64 := (1 : UInt64) <<< 61
def IO_WRITE : UInt64 := (1 : UInt64) <<< 62
def NEXT_LEVEL_MASK : UInt64 := (0x7 : UInt64) <<< 9
def LARGE_LEAF_LEVEL : UInt8 := 7

def levelEnc (level : UInt8) : UInt64 := level.toUInt64 <<< 9 &&& NEXT_LEVEL_MASK

def nextLevel (bits : UInt64) : UInt8 := (bits >>> 9 &&& 0x7).toUInt8

def saturatingSub (level amount : UInt8) : UInt8 := if level < amount then 0 else level - amount

def toLeafBits (flags : AmdViFlags) (size : PageSize) : UInt64 :=
  PRESENT ||| flag (.read ∈ flags.access) IO_READ ||| flag (.write ∈ flags.access) IO_WRITE |||
    flag (size ≠ .size4K) (levelEnc LARGE_LEAF_LEVEL)

def flagsFromBits (bits : UInt64) : AmdViFlags where
  access :=
    (if bits &&& IO_READ ≠ 0 then {.read} else ∅) ∪ if bits &&& IO_WRITE ≠ 0 then {.write} else ∅
  attrs := .writeback

def newLeaf (paddr : UInt64) (flags : AmdViFlags) (size : PageSize) : AmdViPte :=
  ⟨paddr &&& ADDR_MASK ||| toLeafBits flags size⟩

def newTable (paddr : UInt64) (level : UInt8) : AmdViPte :=
  let childLevel := saturatingSub level 1
  ⟨paddr &&& ADDR_MASK ||| PRESENT ||| IO_READ ||| IO_WRITE ||| levelEnc childLevel⟩

def paddr (entry : AmdViPte) : UInt64 := entry.bits &&& ADDR_MASK

def flags (entry : AmdViPte) : AmdViFlags := flagsFromBits entry.bits

def isPresent (entry : AmdViPte) : Bool := entry.bits &&& PRESENT ≠ 0

def entryKind (entry : AmdViPte) (level : UInt8) : PageTableEntryKind :=
  if entry.isPresent = false then .invalid
  else
    let next := nextLevel entry.bits
    if level = 1 then .leaf
    else if next = saturatingSub level 1 then .table
    else if next = 0 ∨ next = LARGE_LEAF_LEVEL then .leaf
    else .invalid

def clear (_entry : AmdViPte) : AmdViPte := ⟨0⟩

instance : PageTableEntry AmdViPte AmdViFlags where
  newLeaf := newLeaf
  newTable := newTable
  paddr := paddr
  flags := flags
  access := AmdViFlags.access
  isPresent := isPresent
  entryKind := entryKind
  clear := clear
  levelSupportsLeaf := leafSizes

variable {paddr : UInt64} {flags : AmdViFlags} {size : PageSize} {level : UInt8}

theorem toLeafBits_and (flags : AmdViFlags) (size : PageSize) (field : UInt64) :
    toLeafBits flags size &&& field = PRESENT &&& field |||
      flag (.read ∈ flags.access) (IO_READ &&& field) |||
        flag (.write ∈ flags.access) (IO_WRITE &&& field) |||
          flag (size ≠ .size4K) (levelEnc LARGE_LEAF_LEVEL &&& field) := by
  rw [toLeafBits, or_and, or_and, or_and, flag_and, flag_and, flag_and]

theorem toLeafBits_apart (flags : AmdViFlags) (size : PageSize) :
    toLeafBits flags size &&& ADDR_MASK = 0 := by
  have present : PRESENT &&& ADDR_MASK = 0 := rfl
  have read : IO_READ &&& ADDR_MASK = 0 := rfl
  have write : IO_WRITE &&& ADDR_MASK = 0 := rfl
  have large : levelEnc LARGE_LEAF_LEVEL &&& ADDR_MASK = 0 := rfl
  simp [toLeafBits_and, present, read, write, large]

theorem newLeaf_and {field : UInt64} (apart : ADDR_MASK &&& field = 0) (paddr : UInt64)
    (flags : AmdViFlags) (size : PageSize) :
    (newLeaf paddr flags size).bits &&& field = PRESENT &&& field |||
      flag (.read ∈ flags.access) (IO_READ &&& field) |||
        flag (.write ∈ flags.access) (IO_WRITE &&& field) |||
          flag (size ≠ .size4K) (levelEnc LARGE_LEAF_LEVEL &&& field) := by
  rw [newLeaf, masked_or_and apart, toLeafBits_and]

theorem newLeaf_read : (newLeaf paddr flags size).bits &&& IO_READ ≠ 0 ↔ .read ∈ flags.access := by
  have present : PRESENT &&& IO_READ = 0 := rfl
  have write : IO_WRITE &&& IO_READ = 0 := rfl
  have large : levelEnc LARGE_LEAF_LEVEL &&& IO_READ = 0 := rfl
  rw [newLeaf_and rfl, present, write, large, flag_zero, flag_zero, UInt64.or_zero, UInt64.or_zero,
    UInt64.zero_or]
  exact flag_ne_zero_iff (by decide)

theorem newLeaf_write : (newLeaf paddr flags size).bits &&& IO_WRITE ≠ 0 ↔ .write ∈ flags.access := by
  have present : PRESENT &&& IO_WRITE = 0 := rfl
  have read : IO_READ &&& IO_WRITE = 0 := rfl
  have large : levelEnc LARGE_LEAF_LEVEL &&& IO_WRITE = 0 := rfl
  rw [newLeaf_and rfl, present, read, large, flag_zero, flag_zero, UInt64.or_zero, UInt64.or_zero,
    UInt64.zero_or]
  exact flag_ne_zero_iff (by decide)

theorem newLeaf_isPresent : (newLeaf paddr flags size).isPresent = true := by
  have read : IO_READ &&& PRESENT = 0 := rfl
  have write : IO_WRITE &&& PRESENT = 0 := rfl
  have large : levelEnc LARGE_LEAF_LEVEL &&& PRESENT = 0 := rfl
  rw [isPresent, newLeaf_and rfl, read, write, large, flag_zero, flag_zero, flag_zero]
  rfl

theorem nextLevel_eq (bits : UInt64) : nextLevel bits = ((bits &&& NEXT_LEVEL_MASK) >>> 9).toUInt8 := by
  rw [nextLevel, UInt64.shiftRight_and]
  rfl

theorem newLeaf_nextLevel (paddr : UInt64) (flags : AmdViFlags) (size : PageSize) :
    nextLevel (newLeaf paddr flags size).bits = if size = .size4K then 0 else LARGE_LEAF_LEVEL := by
  have present : PRESENT &&& NEXT_LEVEL_MASK = 0 := rfl
  have read : IO_READ &&& NEXT_LEVEL_MASK = 0 := rfl
  have write : IO_WRITE &&& NEXT_LEVEL_MASK = 0 := rfl
  rw [nextLevel_eq, newLeaf_and rfl, present, read, write, flag_zero, flag_zero, flag]
  by_cases lowest : size = .size4K
  · rw [if_pos lowest, if_neg (not_not_intro lowest)]
    rfl
  · rw [if_neg lowest, if_pos lowest]
    rfl

theorem newLeaf_paddr (frame : FrameAddress paddr) : (newLeaf paddr flags size).paddr = paddr := by
  have masked : paddr &&& ADDR_MASK = paddr := frame.masked rfl
  rw [AmdViPte.paddr, newLeaf, masked_or_and_mask (toLeafBits_apart flags size), masked]

theorem newLeaf_access :
    (newLeaf paddr flags size).flags.access = flags.access ∩ {.read, .write} := by
  rw [AmdViPte.flags, flagsFromBits]
  simp only [newLeaf_read, newLeaf_write]
  exact access_restricted flags.access

theorem newLeaf_entryKind (supported : leafSizes level size = true) :
    (newLeaf paddr flags size).entryKind level = .leaf := by
  rw [entryKind, newLeaf_isPresent, newLeaf_nextLevel, if_neg (by decide)]
  rcases leafSizes_cases supported with ⟨rfl, rfl⟩ | ⟨rfl, rfl⟩ | ⟨rfl, rfl⟩
  · rfl
  · rfl
  · rfl

theorem newTable_bits (paddr : UInt64) (level : UInt8) :
    (newTable paddr level).bits = paddr &&& ADDR_MASK |||
      (PRESENT ||| IO_READ ||| IO_WRITE ||| levelEnc (saturatingSub level 1)) := by
  simp only [newTable, UInt64.or_assoc]

theorem inner_levels (inner : 2 ≤ level) (top : level ≤ 5) :
    level = 2 ∨ level = 3 ∨ level = 4 ∨ level = 5 := by
  rw [UInt8.le_iff_toNat_le] at inner top
  simp only [← UInt8.toNat_inj]
  change 2 ≤ level.toNat at inner
  change level.toNat ≤ 5 at top
  have levels : level.toNat = 2 ∨ level.toNat = 3 ∨ level.toNat = 4 ∨ level.toNat = 5 := by omega
  exact levels

theorem newTable_paddr (frame : FrameAddress paddr) (inner : 2 ≤ level) (top : level ≤ 5) :
    (newTable paddr level).paddr = paddr := by
  have masked : paddr &&& ADDR_MASK = paddr := frame.masked rfl
  rw [AmdViPte.paddr, newTable_bits, masked_or_and_mask, masked]
  rcases inner_levels inner top with rfl | rfl | rfl | rfl
  · rfl
  · rfl
  · rfl
  · rfl

theorem newTable_entryKind (inner : 2 ≤ level) (top : level ≤ 5) :
    (newTable paddr level).entryKind level = .table := by
  rw [entryKind, isPresent, nextLevel_eq, newTable_bits, masked_or_and rfl, masked_or_and rfl]
  rcases inner_levels inner top with rfl | rfl | rfl | rfl
  · rfl
  · rfl
  · rfl
  · rfl

theorem clear_entryKind (entry : AmdViPte) (level : UInt8) :
    entry.clear.entryKind level = .invalid := by
  have absent : entry.clear.isPresent = false := by
    rw [clear, isPresent, UInt64.zero_and]
    rfl
  rw [entryKind, if_pos absent]

end AmdViPte

theorem amdVi_decodes : DecodesEntries AmdViPte fun _ => True where
  leaf := fun _ _ _ _ frame _ supported =>
    ⟨AmdViPte.newLeaf_isPresent, AmdViPte.newLeaf_entryKind supported,
      AmdViPte.newLeaf_paddr frame, AmdViPte.newLeaf_access⟩
  table := fun _ _ frame inner top =>
    ⟨AmdViPte.newTable_entryKind inner top, AmdViPte.newTable_paddr frame inner top⟩
  cleared := AmdViPte.clear_entryKind

/-- Entries of both formats are read back as they were made. -/
theorem page_entries_decode :
    (DecodesEntries VtdSecondLevelPte fun access => .read ∈ access ∨ .write ∈ access) ∧
      DecodesEntries AmdViPte fun _ => True :=
  ⟨secondLevel_decodes, amdVi_decodes⟩

end Iommu
