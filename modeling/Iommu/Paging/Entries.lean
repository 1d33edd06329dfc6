import Iommu.Library.MachineWord
import Iommu.Vtd.Info
import Mathlib.Data.Finset.Basic

/-!
Page-table entries as the walker of the page-table crate uses them: what an entry is made of and
what is read back from it, whatever its format.
-/

namespace Iommu

/-- Access flags of the page-table crate; `other` stands for the ones the formats do not name. -/
inductive AccessFlag
  | read
  | write
  | other (number : Nat)
  deriving DecidableEq

abbrev AccessFlags := Finset AccessFlag

/-- Memory attributes of the page-table crate, of which the formats name one and encode none. -/
inductive MemoryAttributes
  | writeback
  | other (number : Nat)
  deriving DecidableEq

inductive PageTableEntryKind
  | invalid
  | leaf
  | table
  deriving DecidableEq

/-- The operations of a format of entries, on physical addresses and levels of the walk. -/
class PageTableEntry (Entry : Type) (Flags : outParam Type) where
  newLeaf : UInt64 → Flags → PageSize → Entry
  newTable : UInt64 → UInt8 → Entry
  paddr : Entry → UInt64
  flags : Entry → Flags
  access : Flags → AccessFlags
  isPresent : Entry → Bool
  entryKind : Entry → UInt8 → PageTableEntryKind
  clear : Entry → Entry
  levelSupportsLeaf : UInt8 → PageSize → Bool

def leafSizes : UInt8 → PageSize → Bool
  | 1, .size4K => true
  | 2, .size2M => true
  | 3, .size1G => true
  | _, _ => false

theorem leafSizes_cases {level : UInt8} {size : PageSize} (supported : leafSizes level size = true) :
    level = 1 ∧ size = .size4K ∨ level = 2 ∧ size = .size2M ∨ level = 3 ∧ size = .size1G := by
  unfold leafSizes at supported
  split at supported
  · exact Or.inl ⟨rfl, rfl⟩
  · exact Or.inr (Or.inl ⟨rfl, rfl⟩)
  · exact Or.inr (Or.inr ⟨rfl, rfl⟩)
  · cases supported

/-- The addresses that an entry has room for: those of 4 KiB frames, up to 52 bits. -/
def FrameAddress (paddr : UInt64) : Prop := paddr.toNat < 2 ^ 52 ∧ 0x1000 ∣ paddr.toNat

theorem FrameAddress.masked {paddr mask : UInt64} (frame : FrameAddress paddr)
    (ones : mask.toNat = (2 ^ 40 - 1) <<< 12) : paddr &&& mask = paddr := by
  obtain ⟨small, frames, aligned⟩ := frame
  rw [← UInt64.toNat_inj, MachineWord.toNat_and_fieldMask paddr 12 40 ones]
  omega

theorem access_restricted (access : AccessFlags) :
    ((if .read ∈ access then {.read} else ∅) ∪ if .write ∈ access then {.write} else ∅) =
      access ∩ {.read, .write} := by
  ext permission
  by_cases readable : .read ∈ access
  · by_cases writable : .write ∈ access
    · cases permission <;> simp [readable, writable]
    · cases permission <;> simp [readable, writable]
  · by_cases writable : .write ∈ access
    · cases permission <;> simp [readable, writable]
    · cases permission <;> simp [readable, writable]

/-- What an entry of the format is made of is read back from it, for the access that can be encoded. -/
structure DecodesEntries (Entry : Type) {Flags : Type} [PageTableEntry Entry Flags]
    (Encodes : AccessFlags → Prop) : Prop where
  leaf : ∀ paddr (flags : Flags) level size, FrameAddress paddr →
    Encodes (PageTableEntry.access Entry flags) →
    PageTableEntry.levelSupportsLeaf Entry level size = true →
    let entry : Entry := PageTableEntry.newLeaf paddr flags size
    PageTableEntry.isPresent entry = true ∧ PageTableEntry.entryKind entry level = .leaf ∧
      PageTableEntry.paddr entry = paddr ∧
      PageTableEntry.access Entry (PageTableEntry.flags entry) =
        PageTableEntry.access Entry flags ∩ {.read, .write}
  table : ∀ paddr (level : UInt8), FrameAddress paddr → 2 ≤ level → level ≤ 5 →
    let entry : Entry := PageTableEntry.newTable paddr level
    PageTableEntry.entryKind entry level = .table ∧ PageTableEntry.paddr entry = paddr
  cleared : ∀ (entry : Entry) level,
    PageTableEntry.entryKind (PageTableEntry.clear entry) level = .invalid

end Iommu
