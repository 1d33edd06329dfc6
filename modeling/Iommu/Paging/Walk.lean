import Iommu.Library.ByteMemory
import Iommu.Library.RadixTree
import Iommu.Paging.SecondLevel
import Iommu.Paging.Shapes

/-!
The second-level page walk of VT-d through tables in memory, and the tree of pages the tables stand
for: the walk leads where a page of the tree holds the address and grants the access.
-/

namespace Iommu

open BitMasks Memory RadixTree

def entryWord (memory : Memory) (table : UInt64) (index : Nat) : UInt64 :=
  load64 memory (table.toNat + index * 8)

def covered (depth : Nat) : Nat := 2 ^ (12 + 9 * depth)

def leafSizeAt : Nat → PageSize
  | 0 => .size4K
  | 1 => .size2M
  | 2 => .size1G
  | depth => .other (covered depth)

def tableIndex (address depth : Nat) : Nat := address / covered depth % 512

/-- The walk from an entry on, by a unit with leaves of some sizes: where an access leads, if
anywhere. -/
def walkEntry (leaves : PageSize → Bool) (memory : Memory) (permission : AccessFlag)
    (address : Nat) : Nat → UInt64 → Option Nat
  | depth, word =>
      let entry : VtdSecondLevelPte := ⟨word⟩
      if permission ∈ entry.flags.access then
        match entry.entryKind (walkLevel depth), depth with
        | .invalid, _ => none
        | .leaf, depth =>
            if leaves (leafSizeAt depth) then
              some (entry.paddr.toNat / covered depth * covered depth + address % covered depth)
            else none
        | .table, 0 => none
        | .table, depth + 1 =>
            walkEntry leaves memory permission address depth
              (entryWord memory entry.paddr (tableIndex address depth))
      else none

def walkTable (leaves : PageSize → Bool) (memory : Memory) (permission : AccessFlag)
    (root : UInt64) (levels address : Nat) : Option Nat :=
  walkEntry leaves memory permission address (levels - 1)
    (entryWord memory root (tableIndex address (levels - 1)))

/-- A page that an entry of a table maps, as large as one entry of that table covers. -/
structure LeafPage (depth : Nat) where
  frame : UInt64
  flags : VtdSecondLevelFlags
  size : PageSize
  supported : leafSizes (walkLevel depth) size = true
  framed : FrameAddress frame
  aligned : size.bytes ∣ frame.toNat
  permitted : .read ∈ flags.access ∨ .write ∈ flags.access

structure TablePage where
  frame : UInt64
  framed : FrameAddress frame

def TablePage.Owns (page : TablePage) (paddr : Nat) : Prop :=
  page.frame.toNat ≤ paddr ∧ paddr < page.frame.toNat + 0x1000

abbrev PageTree := Tree LeafPage (fun _ => TablePage) 512

/-- The entry stands for the tree, with all the tables below it in memory. -/
def Holds (memory : Memory) : {depth : Nat} → PageTree depth → UInt64 → Prop
  | _, .hole, word => VtdSecondLevelPte.isPresent ⟨word⟩ = false
  | _, .leaf page, word =>
      word = (VtdSecondLevelPte.newLeaf page.frame page.flags page.size).bits
  | depth + 1, .table page entries, word =>
      word = (VtdSecondLevelPte.newTable page.frame (walkLevel (depth + 1))).bits ∧
        ∀ index, Holds memory (entries index) (entryWord memory page.frame index)

def TableBytes : {depth : Nat} → PageTree depth → Nat → Prop
  | _, .hole, _ => False
  | _, .leaf _, _ => False
  | _, .table page entries, paddr => page.Owns paddr ∨ ∃ index, TableBytes (entries index) paddr

/-- Where a page that was found leads, if it grants the access and the unit has pages so large. -/
def reached (leaves : PageSize → Bool) (permission : AccessFlag) (found : Found LeafPage) :
    Option Nat :=
  if permission ∈ found.leaf.flags.access ∧ leaves found.leaf.size = true then
    some (found.leaf.frame.toNat + found.offset)
  else none

theorem TablePage.entryWord_congr {first second : Memory} {page : TablePage}
    (same : ∀ paddr, page.Owns paddr → second paddr = first paddr) (index : Fin 512) :
    entryWord second page.frame index = entryWord first page.frame index := by
  apply load64_congr
  intro offset below
  apply same
  constructor <;> omega

theorem Holds.congr {first second : Memory} {depth : Nat} {tree : PageTree depth} {word : UInt64}
    (holds : Holds first tree word)
    (same : ∀ paddr, TableBytes tree paddr → second paddr = first paddr) :
    Holds second tree word := by
  induction tree generalizing word with
  | hole => exact holds
  | leaf page => exact holds
  | table page entries ih =>
      obtain ⟨encoded, held⟩ := holds
      refine ⟨encoded, fun index => ?_⟩
      rw [TablePage.entryWord_congr fun paddr owned => same paddr (Or.inl owned)]
      exact ih index (held index) fun paddr below => same paddr (Or.inr ⟨index, below⟩)

theorem walkLevel_toNat {depth : Nat} (low : depth < 5) : (walkLevel depth).toNat = depth + 1 := by
  rw [walkLevel, UInt8.toNat_ofNat_of_lt']
  exact Nat.lt_of_lt_of_le (Nat.add_lt_add_right low 1) (by decide)

theorem covered_eq (depth : Nat) : covered depth = span 0x1000 512 depth := by
  rw [covered, span, Nat.pow_add, Nat.pow_mul, Nat.mul_comm]

theorem covered_succ (depth : Nat) : covered (depth + 1) = covered depth * 512 := by
  rw [covered, covered, Nat.mul_succ, ← Nat.add_assoc, Nat.pow_add]

theorem leafSizeAt_bytes (depth : Nat) : (leafSizeAt depth).bytes = covered depth := by
  match depth with
  | 0 => rfl
  | 1 => rfl
  | 2 => rfl
  | _ + 3 => rfl

theorem LeafPage.size_at {depth : Nat} (page : LeafPage depth) (low : depth < 5) :
    page.size = leafSizeAt depth := by
  have level := walkLevel_toNat low
  rcases leafSizes_cases page.supported with ⟨lowest, size⟩ | ⟨middle, size⟩ | ⟨highest, size⟩
  · rw [lowest] at level
    obtain rfl : 0 = depth := Nat.succ.inj level
    exact size
  · rw [middle] at level
    obtain rfl : 1 = depth := Nat.succ.inj level
    exact size
  · rw [highest] at level
    obtain rfl : 2 = depth := Nat.succ.inj level
    exact size

def Asked (permission : AccessFlag) : Prop := permission = .read ∨ permission = .write

namespace VtdSecondLevelPte

theorem not_granted_of_absent {entry : VtdSecondLevelPte} (absent : entry.isPresent = false)
    {permission : AccessFlag} (asked : Asked permission) : permission ∉ entry.flags.access := by
  rw [isPresent, decide_eq_false_iff_not, not_not, PRESENT, UInt64.and_comm, or_and,
    UInt64.or_eq_zero_iff, UInt64.and_comm, UInt64.and_comm WRITE] at absent
  rcases asked with rfl | rfl
  · simp [flags, flagsFromBits, absent.1, absent.2]
  · simp [flags, flagsFromBits, absent.1, absent.2]

theorem newTable_granted {paddr : UInt64} {level : UInt8} {permission : AccessFlag}
    (asked : Asked permission) : permission ∈ (newTable paddr level).flags.access := by
  have readable : (newTable paddr level).bits &&& READ = READ := masked_or_and rfl
  have writable : (newTable paddr level).bits &&& WRITE = WRITE := masked_or_and rfl
  rw [flags, flagsFromBits, readable, writable]
  rcases asked with rfl | rfl <;> decide

theorem newLeaf_granted_iff {paddr : UInt64} {flags : VtdSecondLevelFlags} {size : PageSize}
    {permission : AccessFlag} (asked : Asked permission) :
    permission ∈ (newLeaf paddr flags size).flags.access ↔ permission ∈ flags.access := by
  rw [newLeaf_access, Finset.mem_inter, Finset.mem_insert, Finset.mem_singleton]
  exact and_iff_left asked

end VtdSecondLevelPte

section Walk

variable {leaves : PageSize → Bool} {memory : Memory} {permission : AccessFlag} {depth : Nat}

theorem walkEntry_eq {tree : PageTree depth} {word : UInt64} (asked : Asked permission)
    (low : depth < 5) (holds : Holds memory tree word) (address : Nat) :
    walkEntry leaves memory permission address depth word =
      (tree.find 0x1000 (address % covered depth)).bind (reached leaves permission) := by
  induction tree generalizing word with
  | hole =>
      unfold walkEntry
      exact if_neg (VtdSecondLevelPte.not_granted_of_absent holds asked)
  | @leaf depth page =>
      have encoded : word = (VtdSecondLevelPte.newLeaf page.frame page.flags page.size).bits := holds
      subst encoded
      unfold walkEntry
      rw [Tree.find, Option.bind_some, reached]
      simp only [VtdSecondLevelPte.newLeaf_granted_iff asked,
        VtdSecondLevelPte.newLeaf_entryKind page.permitted page.supported,
        VtdSecondLevelPte.newLeaf_paddr page.framed]
      have divides : covered depth ∣ page.frame.toNat := by
        rw [← leafSizeAt_bytes, ← page.size_at low]
        exact page.aligned
      rw [Nat.div_mul_cancel divides, page.size_at low, ite_and]
  | @table depth page entries ih =>
      obtain ⟨rfl, held⟩ := holds
      have inner : (2 : UInt8) ≤ walkLevel (depth + 1) := by
        rw [UInt8.le_iff_toNat_le, walkLevel_toNat low]
        exact Nat.le_add_left 2 depth
      have digit : address % covered (depth + 1) / covered depth = tableIndex address depth := by
        rw [covered_succ, Nat.mod_mul_right_div_self, tableIndex]
      have rest : address % covered (depth + 1) % covered depth = address % covered depth := by
        rw [covered_succ, Nat.mod_mul_right_mod]
      have inside : tableIndex address depth < 512 := Nat.mod_lt _ (by decide)
      unfold walkEntry
      simp only [VtdSecondLevelPte.newTable_granted asked, if_true,
        VtdSecondLevelPte.newTable_entryKind inner, VtdSecondLevelPte.newTable_paddr page.framed]
      rw [Tree.find, ← covered_eq]
      simp only [digit, rest]
      rw [dif_pos inside]
      exact ih ⟨_, inside⟩ (Nat.lt_of_succ_lt low) (held ⟨_, inside⟩)

end Walk

structure DomainTables where
  depth : Nat
  root : TablePage
  entries : Fin 512 → PageTree depth

namespace DomainTables

def tree (tables : DomainTables) : PageTree (tables.depth + 1) := .table tables.root tables.entries

def Owns (tables : DomainTables) (paddr : Nat) : Prop := TableBytes tables.tree paddr

def Stored (tables : DomainTables) (memory : Memory) : Prop :=
  ∀ index, Holds memory (tables.entries index) (entryWord memory tables.root.frame index)

/-- An access to an address leads to a physical address: a page of the tree, of a size that the unit
has, holds the first at the offset at which its frame holds the second, and grants the access. -/
def Maps (tables : DomainTables) (leaves : PageSize → Bool) (permission : AccessFlag)
    (address paddr : Nat) : Prop :=
  ∃ (depth start : Nat) (page : LeafPage depth),
    Tree.Placed 0x1000 page tables.tree start ∧
      (permission ∈ page.flags.access ∧ leaves page.size = true) ∧ start ≤ address ∧
        address < start + covered depth ∧
      paddr = page.frame.toNat + (address - start)

theorem Stored.congr {tables : DomainTables} {first second : Memory} (stored : tables.Stored first)
    (same : ∀ paddr, tables.Owns paddr → second paddr = first paddr) : tables.Stored second := by
  intro index
  rw [TablePage.entryWord_congr fun paddr owned => same paddr (Or.inl owned)]
  exact (stored index).congr fun paddr below => same paddr (Or.inr ⟨index, below⟩)

theorem Maps.inside {tables : DomainTables} {leaves : PageSize → Bool} {permission : AccessFlag}
    {address paddr : Nat} (maps : tables.Maps leaves permission address paddr) :
    address < covered (tables.depth + 1) := by
  obtain ⟨depth, start, page, placed, _, _, before_end, _⟩ := maps
  have fits := placed.fits
  rw [← covered_eq, ← covered_eq] at fits
  exact Nat.lt_of_lt_of_le before_end fits

/-- The walk of the tables is the lookup in the tree of pages. -/
theorem walkTable_eq_some_iff {tables : DomainTables} {leaves : PageSize → Bool} {memory : Memory}
    {permission : AccessFlag} {address paddr : Nat} (stored : tables.Stored memory) (asked : Asked permission)
    (low : tables.depth < 5) (inside : address < covered (tables.depth + 1)) :
    walkTable leaves memory permission tables.root.frame (tables.depth + 1) address = some paddr ↔
      tables.Maps leaves permission address paddr := by
  have below : tableIndex address tables.depth < 512 := Nat.mod_lt _ (by decide)
  have digit : address / span 0x1000 512 tables.depth = tableIndex address tables.depth := by
    rw [tableIndex, ← covered_eq, Nat.mod_eq_of_lt]
    apply Nat.div_lt_of_lt_mul
    rwa [← covered_succ]
  have searched : walkTable leaves memory permission tables.root.frame (tables.depth + 1) address =
      (tables.tree.find 0x1000 address).bind (reached leaves permission) := by
    rw [walkTable, tree, Tree.find, Nat.add_sub_cancel]
    simp only [digit]
    have entry : walkEntry leaves memory _ _ _ _ = _ :=
      walkEntry_eq asked low (stored ⟨_, below⟩) address
    rw [covered_eq] at entry
    rw [dif_pos below]
    exact entry
  rw [searched, Option.bind_eq_some_iff]
  rw [covered_eq] at inside
  constructor
  · rintro ⟨found, located, led⟩
    obtain ⟨start, placed, within_page, rfl⟩ := Tree.placed_of_find inside located
    rw [reached] at led
    split at led
    · rename_i granted
      refine ⟨_, start, _, placed, granted, Nat.le_add_right _ _, ?_, ?_⟩
      · rw [covered_eq]
        exact Nat.add_lt_add_left within_page start
      · rw [Nat.add_sub_cancel_left]
        exact (Option.some.inj led).symm
    · contradiction
  · rintro ⟨depth, start, page, placed, granted, from_start, before_end, rfl⟩
    have within_page : address - start < span 0x1000 512 depth := by
      rw [← covered_eq]
      omega
    have located := placed.find within_page
    rw [Nat.add_sub_cancel' from_start] at located
    exact ⟨_, located, if_pos granted⟩

end DomainTables

end Iommu
