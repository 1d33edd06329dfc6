import Iommu.Library.Positional
import Iommu.Paging.Entries

/-!
The shapes of page tables that the repository declares for the page-table crate: how many levels a
table has, which bits of an address each level looks at, and which page sizes a level can map.
-/

namespace Iommu

/-- The constants and functions of a shape. A shape that does not say how many bits a level looks at
gets the page-table crate's own number. -/
structure PagingMetaData where
  levels : Nat
  vaMaxBits : Nat
  levelShift : UInt8 → Nat
  levelIndexBits : UInt8 → Nat
  levelSupportsLeaf : UInt8 → PageSize → Bool

def PageSize.size16K : PageSize := .other 0x4000
def PageSize.size64K : PageSize := .other 0x10000
def PageSize.size32M : PageSize := .other 0x2000000
def PageSize.size512M : PageSize := .other 0x20000000
def PageSize.size64G : PageSize := .other 0x1000000000
def PageSize.size512G : PageSize := .other 0x8000000000
def PageSize.size4T : PageSize := .other 0x40000000000

def pageTableMeta (indexBits levels vaBits : Nat) : PagingMetaData where
  levels := levels
  vaMaxBits := vaBits
  levelShift := fun level => 12 + (level.toNat - 1) * 9
  levelIndexBits := fun _ => indexBits
  levelSupportsLeaf := leafSizes

def vtdSecondLevelMeta39 (indexBits : Nat) : PagingMetaData := pageTableMeta indexBits 3 39
def vtdSecondLevelMeta48 (indexBits : Nat) : PagingMetaData := pageTableMeta indexBits 4 48
def vtdSecondLevelMeta57 (indexBits : Nat) : PagingMetaData := pageTableMeta indexBits 5 57

def amdViMeta39 (indexBits : Nat) : PagingMetaData := pageTableMeta indexBits 3 39
def amdViMeta48 (indexBits : Nat) : PagingMetaData := pageTableMeta indexBits 4 48
def amdViMeta57 (indexBits : Nat) : PagingMetaData := pageTableMeta indexBits 5 57

def rvIommuMeta (indexBits levels vaBits : Nat) : PagingMetaData where
  levels := levels
  vaMaxBits := vaBits
  levelShift := fun level => 12 + (level.toNat - 1) * 9
  levelIndexBits := fun _ => indexBits
  levelSupportsLeaf := fun level size =>
    (leafSizes level size || (level == 4 && size == .size512G)) && decide (level.toNat ≤ levels)

def rvIommuMeta39 (indexBits : Nat) : PagingMetaData := rvIommuMeta indexBits 3 39
def rvIommuMeta48 (indexBits : Nat) : PagingMetaData := rvIommuMeta indexBits 4 48
def rvIommuMeta57 (indexBits : Nat) : PagingMetaData := rvIommuMeta indexBits 5 57

def smmuVmsaMeta4K (levels vaBits : Nat) : PagingMetaData where
  levels := levels
  vaMaxBits := vaBits
  levelShift := fun level => 12 + (level.toNat - 1) * 9
  levelIndexBits := fun level => if levels = 5 ∧ level = 5 then 4 else 9
  levelSupportsLeaf := leafSizes

def smmuVmsaMeta16K (vaBits rootBits : Nat) : PagingMetaData where
  levels := 4
  vaMaxBits := vaBits
  levelShift := fun level => 14 + (level.toNat - 1) * 11
  levelIndexBits := fun level => if level = 4 then rootBits else 11
  levelSupportsLeaf := fun level size =>
    (level == 1 && size == .size16K) || (level == 2 && size == .size32M) ||
      (level == 3 && size == .size64G)

def smmuVmsaMeta64K (vaBits rootBits : Nat) : PagingMetaData where
  levels := 3
  vaMaxBits := vaBits
  levelShift := fun level => 16 + (level.toNat - 1) * 13
  levelIndexBits := fun level => if level = 3 then rootBits else 13
  levelSupportsLeaf := fun level size =>
    (level == 1 && size == .size64K) || (level == 2 && size == .size512M) ||
      (level == 3 && size == .size4T)

def smmuVmsaMeta4K48 : PagingMetaData := smmuVmsaMeta4K 4 48
def smmuVmsaMeta4K52 : PagingMetaData := smmuVmsaMeta4K 5 52
def smmuVmsaMeta16K48 : PagingMetaData := smmuVmsaMeta16K 48 1
def smmuVmsaMeta16K52 : PagingMetaData := smmuVmsaMeta16K 52 5
def smmuVmsaMeta64K48 : PagingMetaData := smmuVmsaMeta64K 48 6
def smmuVmsaMeta64K52 : PagingMetaData := smmuVmsaMeta64K 52 10

def pagingShapes (indexBits : Nat) : List PagingMetaData :=
  [vtdSecondLevelMeta39 indexBits, vtdSecondLevelMeta48 indexBits, vtdSecondLevelMeta57 indexBits,
    amdViMeta39 indexBits, amdViMeta48 indexBits, amdViMeta57 indexBits,
    rvIommuMeta39 indexBits, rvIommuMeta48 indexBits, rvIommuMeta57 indexBits,
    smmuVmsaMeta4K48, smmuVmsaMeta4K52, smmuVmsaMeta16K48, smmuVmsaMeta16K52, smmuVmsaMeta64K48,
    smmuVmsaMeta64K52]

/-- The levels of the walk are counted from one, the fields of an address from zero. -/
def walkLevel (depth : Nat) : UInt8 := UInt8.ofNat (depth + 1)

namespace PagingMetaData

def index (shape : PagingMetaData) (address depth : Nat) : Nat :=
  address / 2 ^ shape.levelShift (walkLevel depth) % 2 ^ shape.levelIndexBits (walkLevel depth)

def offset (shape : PagingMetaData) (address : Nat) : Nat := address % 2 ^ shape.levelShift 1

def address (shape : PagingMetaData) (offset : Nat) (indices : Nat → Nat) : Nat :=
  offset + ∑ depth ∈ Finset.range shape.levels,
    indices depth * 2 ^ shape.levelShift (walkLevel depth)

/-- The levels of a shape cut the addresses of its width into fields, and a leaf of a level maps as
much as one entry of it is for. -/
structure Consistent (shape : PagingMetaData) : Prop where
  some_level : 0 < shape.levels
  joined : ∀ depth < shape.levels - 1, shape.levelShift (walkLevel (depth + 1)) =
    shape.levelShift (walkLevel depth) + shape.levelIndexBits (walkLevel depth)
  whole : shape.levelShift (walkLevel (shape.levels - 1)) +
    shape.levelIndexBits (walkLevel (shape.levels - 1)) = shape.vaMaxBits
  leaves : ∀ level size, shape.levelSupportsLeaf level size = true →
    1 ≤ level.toNat ∧ level.toNat ≤ shape.levels ∧ size.bytes = 2 ^ shape.levelShift level

theorem leafSizes_shift {level : UInt8} {size : PageSize} (supported : leafSizes level size = true) :
    1 ≤ level.toNat ∧ level.toNat ≤ 3 ∧ size.bytes = 2 ^ (12 + (level.toNat - 1) * 9) := by
  rcases leafSizes_cases supported with ⟨rfl, rfl⟩ | ⟨rfl, rfl⟩ | ⟨rfl, rfl⟩
  · decide
  · decide
  · decide

theorem pageTable_leaves {indexBits levels vaBits : Nat} (enough : 3 ≤ levels) {level : UInt8}
    {size : PageSize} (supported : (pageTableMeta indexBits levels vaBits).levelSupportsLeaf level size =
      true) : 1 ≤ level.toNat ∧ level.toNat ≤ levels ∧
      size.bytes = 2 ^ (pageTableMeta indexBits levels vaBits).levelShift level := by
  obtain ⟨least, greatest, bytes⟩ := leafSizes_shift supported
  exact ⟨least, Nat.le_trans greatest enough, bytes⟩

theorem smmuVmsa4K_leaves {levels vaBits : Nat} (enough : 3 ≤ levels) {level : UInt8}
    {size : PageSize} (supported : (smmuVmsaMeta4K levels vaBits).levelSupportsLeaf level size =
      true) : 1 ≤ level.toNat ∧ level.toNat ≤ levels ∧
      size.bytes = 2 ^ (smmuVmsaMeta4K levels vaBits).levelShift level := by
  obtain ⟨least, greatest, bytes⟩ := leafSizes_shift supported
  exact ⟨least, Nat.le_trans greatest enough, bytes⟩

theorem rvIommu_leaves {indexBits levels vaBits : Nat} {level : UInt8} {size : PageSize}
    (supported : (rvIommuMeta indexBits levels vaBits).levelSupportsLeaf level size = true) :
    1 ≤ level.toNat ∧ level.toNat ≤ levels ∧
      size.bytes = 2 ^ (rvIommuMeta indexBits levels vaBits).levelShift level := by
  simp only [rvIommuMeta, Bool.and_eq_true, Bool.or_eq_true, beq_iff_eq, decide_eq_true_eq]
    at supported
  obtain ⟨lower | ⟨rfl, rfl⟩, few⟩ := supported
  · obtain ⟨least, _, bytes⟩ := leafSizes_shift lower
    exact ⟨least, few, bytes⟩
  · exact ⟨by decide, few,
      (by decide : PageSize.size512G.bytes = 2 ^ (12 + ((4 : UInt8).toNat - 1) * 9))⟩

theorem smmuVmsa16K_leaves {vaBits rootBits : Nat} {level : UInt8} {size : PageSize}
    (supported : (smmuVmsaMeta16K vaBits rootBits).levelSupportsLeaf level size = true) :
    1 ≤ level.toNat ∧ level.toNat ≤ 4 ∧
      size.bytes = 2 ^ (smmuVmsaMeta16K vaBits rootBits).levelShift level := by
  simp only [smmuVmsaMeta16K, Bool.and_eq_true, Bool.or_eq_true, beq_iff_eq] at supported ⊢
  rcases supported with (⟨rfl, rfl⟩ | ⟨rfl, rfl⟩) | ⟨rfl, rfl⟩
  · decide
  · decide
  · decide

theorem smmuVmsa64K_leaves {vaBits rootBits : Nat} {level : UInt8} {size : PageSize}
    (supported : (smmuVmsaMeta64K vaBits rootBits).levelSupportsLeaf level size = true) :
    1 ≤ level.toNat ∧ level.toNat ≤ 3 ∧
      size.bytes = 2 ^ (smmuVmsaMeta64K vaBits rootBits).levelShift level := by
  simp only [smmuVmsaMeta64K, Bool.and_eq_true, Bool.or_eq_true, beq_iff_eq] at supported ⊢
  rcases supported with (⟨rfl, rfl⟩ | ⟨rfl, rfl⟩) | ⟨rfl, rfl⟩
  · decide
  · decide
  · decide

theorem consistent_of_mem {shape : PagingMetaData} (listed : shape ∈ pagingShapes 9) :
    shape.Consistent := by
  simp only [pagingShapes, List.mem_cons, List.not_mem_nil, or_false] at listed
  rcases listed with rfl | rfl | rfl | rfl | rfl | rfl | rfl | rfl | rfl | rfl | rfl | rfl | rfl |
    rfl | rfl
  · exact ⟨by decide, by decide, by decide, fun _ _ => pageTable_leaves (by decide)⟩
  · exact ⟨by decide, by decide, by decide, fun _ _ => pageTable_leaves (by decide)⟩
  · exact ⟨by decide, by decide, by decide, fun _ _ => pageTable_leaves (by decide)⟩
  · exact ⟨by decide, by decide, by decide, fun _ _ => pageTable_leaves (by decide)⟩
  · exact ⟨by decide, by decide, by decide, fun _ _ => pageTable_leaves (by decide)⟩
  · exact ⟨by decide, by decide, by decide, fun _ _ => pageTable_leaves (by decide)⟩
  · exact ⟨by decide, by decide, by decide, fun _ _ => rvIommu_leaves⟩
  · exact ⟨by decide, by decide, by decide, fun _ _ => rvIommu_leaves⟩
  · exact ⟨by decide, by decide, by decide, fun _ _ => rvIommu_leaves⟩
  · exact ⟨by decide, by decide, by decide, fun _ _ => smmuVmsa4K_leaves (by decide)⟩
  · exact ⟨by decide, by decide, by decide, fun _ _ => smmuVmsa4K_leaves (by decide)⟩
  · exact ⟨by decide, by decide, by decide, fun _ _ => smmuVmsa16K_leaves⟩
  · exact ⟨by decide, by decide, by decide, fun _ _ => smmuVmsa16K_leaves⟩
  · exact ⟨by decide, by decide, by decide, fun _ _ => smmuVmsa64K_leaves⟩
  · exact ⟨by decide, by decide, by decide, fun _ _ => smmuVmsa64K_leaves⟩

namespace Consistent

variable {shape : PagingMetaData}

def fields (consistent : shape.Consistent) : Positional.Fields where
  place := fun depth =>
    if depth < shape.levels then shape.levelShift (walkLevel depth) else shape.vaMaxBits
  width := fun depth => shape.levelIndexBits (walkLevel depth)
  count := shape.levels
  joined := by
    intro depth below
    rw [if_pos below]
    by_cases last : depth + 1 < shape.levels
    · rw [if_pos last]
      exact consistent.joined depth (by omega)
    · have top : depth = shape.levels - 1 := by omega
      rw [if_neg last, top]
      exact consistent.whole.symm

variable (consistent : shape.Consistent)

theorem fields_place {depth : Nat} (below : depth < shape.levels) :
    consistent.fields.place depth = shape.levelShift (walkLevel depth) :=
  if_pos below

theorem fields_top : consistent.fields.place shape.levels = shape.vaMaxBits :=
  if_neg (Nat.lt_irrefl _)

theorem fields_index {depth : Nat} (below : depth < shape.levels) (number : Nat) :
    consistent.fields.field number depth = shape.index number depth := by
  rw [Positional.Fields.field, consistent.fields_place below]
  rfl

theorem fields_address (rest : Nat) (indices : Nat → Nat) :
    consistent.fields.assemble rest indices shape.levels = shape.address rest indices := by
  rw [Positional.Fields.assemble, PagingMetaData.address]
  congr 1
  apply Finset.sum_congr rfl
  intro depth member
  rw [consistent.fields_place (Finset.mem_range.mp member)]

end Consistent

/-- Every shape of the repository cuts the addresses of its width into an index for each level and an
offset into the smallest page, without a gap and without an overlap, and a page that a level can map
is as large as one entry of that level. -/
theorem shapes_cut_addresses {shape : PagingMetaData} (listed : shape ∈ pagingShapes 9) :
    (∀ number < 2 ^ shape.vaMaxBits,
      shape.address (shape.offset number) (shape.index number) = number) ∧
    (∀ rest indices, rest < 2 ^ shape.levelShift 1 →
      (∀ depth < shape.levels, indices depth < 2 ^ shape.levelIndexBits (walkLevel depth)) →
      shape.address rest indices < 2 ^ shape.vaMaxBits ∧
        shape.offset (shape.address rest indices) = rest ∧
        ∀ depth < shape.levels, shape.index (shape.address rest indices) depth = indices depth) ∧
    (∀ level size, shape.levelSupportsLeaf level size = true →
      1 ≤ level.toNat ∧ level.toNat ≤ shape.levels ∧ size.bytes = 2 ^ shape.levelShift level) := by
  have consistent := consistent_of_mem listed
  have lowest : consistent.fields.place 0 = shape.levelShift 1 :=
    consistent.fields_place consistent.some_level
  refine ⟨?_, ?_, consistent.leaves⟩
  · intro number small
    have whole := consistent.fields.assemble_fields number (Nat.le_refl shape.levels)
    rw [consistent.fields_top, Nat.mod_eq_of_lt small, lowest] at whole
    rw [← consistent.fields_address, offset]
    rw [Positional.Fields.assemble_congr fun depth below =>
      (consistent.fields_index below number).symm]
    exact whole
  · intro rest indices small fits
    rw [← lowest] at small
    rw [← consistent.fields_address]
    refine ⟨?_, ?_, ?_⟩
    · have below := Positional.Fields.assemble_lt (Nat.le_refl shape.levels) small fits
      rwa [consistent.fields_top] at below
    · rw [offset, ← lowest]
      exact Positional.Fields.rest_assemble (Nat.le_refl shape.levels) small
    · intro depth below
      rw [← consistent.fields_index below]
      exact Positional.Fields.field_assemble (Nat.le_refl shape.levels) small fits below

theorem smmuVmsaMeta4K52_cuts_addresses :
    smmuVmsaMeta4K52.address (smmuVmsaMeta4K52.offset 0xf123456789abc)
      (smmuVmsaMeta4K52.index 0xf123456789abc) = 0xf123456789abc :=
  (shapes_cut_addresses (by simp [pagingShapes])).1 0xf123456789abc (by decide)

end PagingMetaData

end Iommu
