import Iommu.Error
import Iommu.Library.MachineWord
import Iommu.Library.Tiling

/-!
The plan that cuts a page range into the aligned power-of-two blocks a
page-selective invalidation can name.
-/

namespace Iommu

open MachineWord

structure VtdIotlbRangeBlock where
  page : Nat
  addressMask : Nat
  deriving DecidableEq, Repr

def VtdIotlbRangeBlock.span (block : VtdIotlbRangeBlock) : Span Nat :=
  ⟨block.page, block.page + 2 ^ block.addressMask⟩

structure VtdIotlbRangePlan where
  nextPage : Nat
  remainingPages : Nat
  minMask : Nat
  maxMask : Nat
  deriving DecidableEq, Repr

def floorLog2 (value : Nat) : Nat := 63 - leadingZeros value

namespace VtdIotlbRangePlan

def new (startPage pageCount minMask maxMask : Nat) : Except Error VtdIotlbRangePlan :=
  if pageCount = 0 then .ok ⟨startPage, 0, minMask, maxMask⟩
  else if maxMask < minMask then .error .featureUnavailable
  else
    match checkedShl 1 minMask with
    | none => .error .addressOverflow
    | some minPages =>
        if startPage &&& (minPages - 1) ≠ 0 ∨ pageCount &&& (minPages - 1) ≠ 0 then
          .error .invalidRange
        else .ok ⟨startPage, pageCount, minMask, maxMask⟩

def nextAddressMask (plan : VtdIotlbRangePlan) : Nat :=
  let remainingMask := floorLog2 plan.remainingPages
  let alignmentMask := if plan.nextPage = 0 then 63 else min (trailingZeros plan.nextPage) 63
  max (min (min remainingMask alignmentMask) plan.maxMask) plan.minMask

/-- One block and the advanced cursor; the shift and the subtraction wrap as release code does. -/
def nextBlock (plan : VtdIotlbRangePlan) : Option (VtdIotlbRangeBlock × VtdIotlbRangePlan) :=
  if plan.remainingPages = 0 then none
  else
    let mask := plan.nextAddressMask
    let pages := 2 ^ (mask % 64)
    some (⟨plan.nextPage, mask⟩, { plan with
      nextPage := saturatingAdd plan.nextPage pages
      remainingPages := wrappingSub plan.remainingPages pages })

def countBlocks : Nat → VtdIotlbRangePlan → Nat → Nat
  | 0, _, count => count
  | rounds + 1, cursor, count =>
      match cursor.nextBlock with
      | none => count
      | some (_, next) => countBlocks rounds next (saturatingAdd count 1)

def descriptorCount (plan : VtdIotlbRangePlan) : Nat := countBlocks plan.remainingPages plan 0

/-- The blocks the cursor yields until it is exhausted or the rounds run out. -/
def blocks : Nat → VtdIotlbRangePlan → List VtdIotlbRangeBlock
  | 0, _ => []
  | rounds + 1, cursor =>
      match cursor.nextBlock with
      | none => []
      | some (block, next) => block :: blocks rounds next

/-- What `new` establishes of the pages that remain; it does not depend on where the cursor stands. -/
structure Divided (plan : VtdIotlbRangePlan) : Prop where
  ordered : plan.minMask ≤ plan.maxMask
  narrow : plan.minMask < 64
  count : 2 ^ plan.minMask ∣ plan.remainingPages
  small : plan.remainingPages < limit

/-- What `new` establishes and every block keeps. -/
structure Aligned (plan : VtdIotlbRangePlan) : Prop where
  ordered : plan.minMask ≤ plan.maxMask
  narrow : plan.minMask < 64
  start : 2 ^ plan.minMask ∣ plan.nextPage
  count : 2 ^ plan.minMask ∣ plan.remainingPages
  bounded : plan.nextPage + plan.remainingPages < limit

theorem Aligned.divided {plan : VtdIotlbRangePlan} (aligned : plan.Aligned) : plan.Divided :=
  ⟨aligned.ordered, aligned.narrow, aligned.count,
    Nat.lt_of_le_of_lt (Nat.le_add_left _ _) aligned.bounded⟩

theorem new_of_aligned {startPage pageCount minMask maxMask : Nat} (ordered : minMask ≤ maxMask)
    (narrow : minMask < 64) (start : 2 ^ minMask ∣ startPage) (count : 2 ^ minMask ∣ pageCount) :
    new startPage pageCount minMask maxMask = .ok ⟨startPage, pageCount, minMask, maxMask⟩ := by
  have small : 2 ^ minMask < limit := Nat.pow_lt_pow_right (by decide) narrow
  have shifted : checkedShl 1 minMask = some (2 ^ minMask) := by
    rw [checkedShl, if_pos narrow, Nat.one_mul, Nat.mod_eq_of_lt small]
  rw [new]
  by_cases empty : pageCount = 0
  · rw [if_pos empty, empty]
  · rw [if_neg empty, if_neg (Nat.not_lt_of_le ordered), shifted]
    simp only
    rw [Nat.and_two_pow_sub_one_eq_mod, Nat.and_two_pow_sub_one_eq_mod,
      Nat.mod_eq_zero_of_dvd start, Nat.mod_eq_zero_of_dvd count, if_neg (by simp)]

section Cursor

variable {plan : VtdIotlbRangePlan}

theorem nextAddressMask_alignment (positive : 0 < plan.nextPage) (small : plan.nextPage < limit) :
    2 ^ (min (trailingZeros plan.nextPage) 63) ∣ plan.nextPage := by
  obtain ⟨below, divides⟩ := trailingZeros_spec positive small
  rw [Nat.min_eq_left (by omega)]
  exact divides

theorem nextAddressMask_cases (plan : VtdIotlbRangePlan) :
    plan.nextAddressMask = plan.minMask ∨
      plan.minMask ≤ plan.nextAddressMask ∧ plan.nextAddressMask ≤ plan.maxMask ∧
      plan.nextAddressMask ≤ floorLog2 plan.remainingPages ∧
      plan.nextAddressMask ≤ if plan.nextPage = 0 then 63 else min (trailingZeros plan.nextPage) 63 := by
  rw [nextAddressMask]
  omega

theorem nextAddressMask_fits (divided : plan.Divided) (more : 0 < plan.remainingPages) :
    plan.minMask ≤ plan.nextAddressMask ∧ plan.nextAddressMask ≤ plan.maxMask ∧
      plan.nextAddressMask < 64 ∧ 2 ^ plan.nextAddressMask ≤ plan.remainingPages := by
  rcases plan.nextAddressMask_cases with least | ⟨above, below, log, _⟩
  · rw [least]
    exact ⟨Nat.le_refl _, divided.ordered, divided.narrow, Nat.le_of_dvd more divided.count⟩
  · obtain ⟨clear, power⟩ := leadingZeros_spec more divided.small
    have fits := Nat.le_trans (Nat.pow_le_pow_right (by decide) log) power
    rw [floorLog2] at log
    exact ⟨above, below, by omega, fits⟩

theorem nextAddressMask_spec (aligned : plan.Aligned) (more : 0 < plan.remainingPages) :
    plan.minMask ≤ plan.nextAddressMask ∧ plan.nextAddressMask ≤ plan.maxMask ∧
      plan.nextAddressMask < 64 ∧ 2 ^ plan.nextAddressMask ∣ plan.nextPage ∧
      2 ^ plan.nextAddressMask ≤ plan.remainingPages := by
  obtain ⟨above, below, narrow, fits⟩ := nextAddressMask_fits aligned.divided more
  refine ⟨above, below, narrow, ?_, fits⟩
  rcases plan.nextAddressMask_cases with least | ⟨_, _, _, alignment⟩
  · rw [least]
    exact aligned.start
  · have bounded := aligned.bounded
    by_cases zero : plan.nextPage = 0
    · rw [zero]
      exact Nat.dvd_zero _
    · rw [if_neg zero] at alignment
      exact Nat.dvd_trans (Nat.pow_dvd_pow 2 alignment)
        (nextAddressMask_alignment (Nat.pos_of_ne_zero zero) (by omega))

theorem nextBlock_of_exhausted (exhausted : plan.remainingPages = 0) : plan.nextBlock = none :=
  if_pos exhausted

theorem nextBlock_spec (aligned : plan.Aligned) (more : 0 < plan.remainingPages) :
    ∃ next, plan.nextBlock = some (⟨plan.nextPage, plan.nextAddressMask⟩, next) ∧ next.Aligned ∧
      next.minMask = plan.minMask ∧ next.maxMask = plan.maxMask ∧
      next.nextPage = plan.nextPage + 2 ^ plan.nextAddressMask ∧
      next.remainingPages + 2 ^ plan.nextAddressMask = plan.remainingPages := by
  obtain ⟨above, below, narrow, divides, fits⟩ := nextAddressMask_spec aligned more
  have bounded := aligned.bounded
  have advanced : saturatingAdd plan.nextPage (2 ^ plan.nextAddressMask) =
      plan.nextPage + 2 ^ plan.nextAddressMask := saturatingAdd_of_lt (by omega)
  have shortened : wrappingSub plan.remainingPages (2 ^ plan.nextAddressMask) =
      plan.remainingPages - 2 ^ plan.nextAddressMask := wrappingSub_of_le fits (by omega)
  have multiple : 2 ^ plan.minMask ∣ 2 ^ plan.nextAddressMask := Nat.pow_dvd_pow 2 above
  rw [nextBlock, if_neg (Nat.ne_of_gt more)]
  simp only
  rw [Nat.mod_eq_of_lt narrow, advanced, shortened]
  refine ⟨_, rfl, ?_, rfl, rfl, rfl, Nat.sub_add_cancel fits⟩
  constructor
  · exact aligned.ordered
  · exact aligned.narrow
  · exact Nat.dvd_add aligned.start multiple
  · exact Nat.dvd_sub aligned.count multiple
  · simp only
    omega

/-- An aligned plan is cut into aligned blocks of its mask bounds that tile the whole range. -/
theorem blocks_tile (rounds : Nat) (aligned : plan.Aligned) (enough : plan.remainingPages ≤ rounds) :
    Span.Tiles plan.nextPage ((blocks rounds plan).map VtdIotlbRangeBlock.span)
        (plan.nextPage + plan.remainingPages) ∧
      ∀ block ∈ blocks rounds plan, block.addressMask ≤ plan.maxMask ∧ block.addressMask < 64 ∧
        2 ^ block.addressMask ∣ block.page := by
  induction rounds generalizing plan with
  | zero =>
      have exhausted : plan.remainingPages = 0 := by omega
      rw [blocks, exhausted]
      exact ⟨Span.Tiles.nil _, by simp⟩
  | succ rounds ih =>
      by_cases exhausted : plan.remainingPages = 0
      · rw [blocks, nextBlock_of_exhausted exhausted, exhausted]
        exact ⟨Span.Tiles.nil _, by simp⟩
      · have more := Nat.pos_of_ne_zero exhausted
        obtain ⟨next, yielded, still, _, cap, page, remaining⟩ := nextBlock_spec aligned more
        obtain ⟨_, below, narrow, divides, _⟩ := nextAddressMask_spec aligned more
        have size : 0 < 2 ^ plan.nextAddressMask := Nat.two_pow_pos _
        obtain ⟨tiled, shaped⟩ := ih still (by omega)
        have last : next.nextPage + next.remainingPages = plan.nextPage + plan.remainingPages := by
          omega
        rw [last, page] at tiled
        rw [blocks, yielded]
        simp only [List.map_cons]
        constructor
        · have proper : (VtdIotlbRangeBlock.span ⟨plan.nextPage, plan.nextAddressMask⟩).Proper := by
            simp only [Span.Proper, VtdIotlbRangeBlock.span]
            omega
          exact Span.Tiles.cons rfl proper tiled
        · intro block member
          rcases List.mem_cons.mp member with rfl | later
          · exact ⟨below, narrow, divides⟩
          · exact cap ▸ shaped block later

theorem countBlocks_eq (rounds : Nat) (plan : VtdIotlbRangePlan) {count : Nat}
    (small : count + rounds < limit) :
    countBlocks rounds plan count = count + (blocks rounds plan).length := by
  induction rounds generalizing plan count with
  | zero => rfl
  | succ rounds ih =>
      rw [countBlocks, blocks]
      cases plan.nextBlock with
      | none => rfl
      | some yielded =>
          simp only [List.length_cons]
          rw [saturatingAdd_of_lt (by omega), ih _ (by omega)]
          omega

theorem descriptorCount_eq (aligned : plan.Aligned) :
    plan.descriptorCount = (blocks plan.remainingPages plan).length := by
  have bounded := aligned.bounded
  rw [descriptorCount, countBlocks_eq _ _ (by omega), Nat.zero_add]

end Cursor

end VtdIotlbRangePlan

end Iommu
