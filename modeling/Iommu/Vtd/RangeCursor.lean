import Iommu.Vtd.RangeMinimality
import Mathlib.Algebra.Order.Ring.Nat

/-!
The cursor of a range plan over all the calls made on it. What remains is a multiple of the least
block wherever the cursor stands, so the cursor is sound even after its position has stuck at the
last page; only the blocks of a range that fits below it are those of the range.
-/

namespace Iommu

open MachineWord

namespace VtdIotlbRangePlan

/-- The cursor after so many calls for a block; one that finds none leaves it as it is. -/
def advance : Nat → VtdIotlbRangePlan → VtdIotlbRangePlan
  | 0, cursor => cursor
  | calls + 1, cursor =>
      match cursor.nextBlock with
      | none => cursor
      | some (_, next) => advance calls next

variable {startPage pageCount minMask maxMask : Nat} {plan : VtdIotlbRangePlan}

theorem new_cases (built : new startPage pageCount minMask maxMask = .ok plan) :
    plan = ⟨startPage, pageCount, minMask, maxMask⟩ ∧
      (pageCount = 0 ∨ minMask ≤ maxMask ∧ minMask < 64 ∧ 2 ^ minMask ∣ startPage ∧
        2 ^ minMask ∣ pageCount) := by
  rw [new] at built
  split at built
  · next empty =>
    cases built
    exact ⟨by rw [empty], Or.inl empty⟩
  · split at built
    · cases built
    · next ordered =>
      rw [checkedShl] at built
      split at built
      · cases built
      · next minPages shifted =>
        split at shifted
        · next narrow =>
          have small : 2 ^ minMask < limit := Nat.pow_lt_pow_right (by decide) narrow
          rw [Nat.one_mul, Nat.mod_eq_of_lt small] at shifted
          obtain rfl := Option.some.inj shifted
          split at built
          · cases built
          · next multiples =>
            rw [Nat.and_two_pow_sub_one_eq_mod, Nat.and_two_pow_sub_one_eq_mod, not_or, not_not,
              not_not] at multiples
            cases built
            exact ⟨rfl, Or.inr ⟨Nat.not_lt.mp ordered, narrow, Nat.dvd_of_mod_eq_zero multiples.1,
              Nat.dvd_of_mod_eq_zero multiples.2⟩⟩
        · cases shifted

theorem nextBlock_of_divided (divided : plan.Divided) (more : 0 < plan.remainingPages) :
    ∃ next, plan.nextBlock = some (⟨plan.nextPage, plan.nextAddressMask⟩, next) ∧ next.Divided ∧
      next.remainingPages + 2 ^ plan.nextAddressMask = plan.remainingPages := by
  obtain ⟨above, _, narrow, fits⟩ := nextAddressMask_fits divided more
  have shortened : wrappingSub plan.remainingPages (2 ^ plan.nextAddressMask) =
      plan.remainingPages - 2 ^ plan.nextAddressMask := wrappingSub_of_le fits divided.small
  rw [nextBlock, if_neg (Nat.ne_of_gt more)]
  simp only
  rw [Nat.mod_eq_of_lt narrow, shortened]
  refine ⟨_, rfl, ?_, Nat.sub_add_cancel fits⟩
  constructor
  · exact divided.ordered
  · exact divided.narrow
  · exact Nat.dvd_sub divided.count (Nat.pow_dvd_pow 2 above)
  · exact Nat.lt_of_le_of_lt (Nat.sub_le _ _) divided.small

theorem advance_of_divided (divided : plan.Divided) (calls : Nat) :
    (plan.advance calls).Divided ∧
      (plan.advance calls).remainingPages ≤ plan.remainingPages - calls := by
  induction calls generalizing plan with
  | zero => exact ⟨divided, Nat.le_refl _⟩
  | succ calls ih =>
      rw [advance]
      by_cases exhausted : plan.remainingPages = 0
      · rw [nextBlock_of_exhausted exhausted]
        exact ⟨divided, Nat.le_trans (Nat.le_of_eq exhausted) (Nat.zero_le _)⟩
      · obtain ⟨next, yielded, still, remaining⟩ :=
          nextBlock_of_divided divided (Nat.pos_of_ne_zero exhausted)
        have size : 0 < 2 ^ plan.nextAddressMask := Nat.two_pow_pos _
        obtain ⟨kept, fewer⟩ := ih still
        rw [yielded]
        exact ⟨kept, by simp only; omega⟩

theorem advance_of_exhausted (exhausted : plan.remainingPages = 0) (calls : Nat) :
    plan.advance calls = plan := by
  cases calls with
  | zero => rfl
  | succ calls => rw [advance, nextBlock_of_exhausted exhausted]

theorem blocks_of_exhausted (exhausted : plan.remainingPages = 0) (rounds : Nat) :
    blocks rounds plan = [] := by
  cases rounds with
  | zero => rfl
  | succ rounds => rw [blocks, nextBlock_of_exhausted exhausted]

theorem blocks_of_le (divided : plan.Divided) {rounds : Nat} (enough : plan.remainingPages ≤ rounds) :
    blocks rounds plan = blocks plan.remainingPages plan := by
  have settled : ∀ fewer more, fewer ≤ more → plan.remainingPages ≤ fewer →
      blocks more plan = blocks fewer plan := by
    intro fewer
    induction fewer generalizing plan with
    | zero =>
        intro more _ covered
        rw [blocks_of_exhausted (Nat.le_zero.mp covered), blocks_of_exhausted (Nat.le_zero.mp covered)]
    | succ fewer ih =>
        intro more ordered covered
        by_cases exhausted : plan.remainingPages = 0
        · rw [blocks_of_exhausted exhausted, blocks_of_exhausted exhausted]
        · obtain ⟨next, yielded, still, remaining⟩ :=
            nextBlock_of_divided divided (Nat.pos_of_ne_zero exhausted)
          have size : 0 < 2 ^ plan.nextAddressMask := Nat.two_pow_pos _
          cases more with
          | zero => exact absurd ordered (by omega)
          | succ more =>
              have rest := ih still (by omega) more (by omega) (by omega)
              rw [blocks, blocks, yielded]
              simp only
              rw [rest]
  exact settled _ _ enough (Nat.le_refl _)

end VtdIotlbRangePlan

theorem sum_sizes_of_tiles {start stop : Nat} {blocks : List VtdIotlbRangeBlock}
    (tiled : Span.Tiles start (blocks.map VtdIotlbRangeBlock.span) stop) :
    start + (blocks.map fun block => 2 ^ block.addressMask).sum = stop := by
  induction blocks generalizing start with
  | nil =>
      cases tiled
      rfl
  | cons block rest ih =>
      cases tiled with
      | cons adjacent proper tiled =>
          have later := ih tiled
          simp only [VtdIotlbRangeBlock.span] at adjacent later
          rw [List.map_cons, List.sum_cons, ← later, ← adjacent, Nat.add_assoc]

/-- Every call for a block shifts by less than the width of a word and takes no more than remains, and
after as many calls as there are pages there is no block left. The blocks of a range that fits are an
aligned partition of it. -/
theorem range_plan_partitions (startPage pageCount minMask maxMask : Nat) (plan : VtdIotlbRangePlan)
    (countBound : pageCount < 2 ^ 64)
    (built : VtdIotlbRangePlan.new startPage pageCount minMask maxMask = .ok plan) :
    (∀ calls, let cursor := plan.advance calls
      cursor.remainingPages ≠ 0 →
        cursor.nextAddressMask < 64 ∧ 2 ^ cursor.nextAddressMask ≤ cursor.remainingPages) ∧
    (∀ calls, pageCount ≤ calls → (plan.advance calls).nextBlock = none) ∧
    (startPage + pageCount < 2 ^ 64 → ∀ rounds, pageCount ≤ rounds →
      let blocks := VtdIotlbRangePlan.blocks rounds plan
      Span.Tiles startPage (blocks.map VtdIotlbRangeBlock.span) (startPage + pageCount) ∧
      (∀ block ∈ blocks, 2 ^ block.addressMask ∣ block.page ∧ minMask ≤ block.addressMask ∧
        block.addressMask ≤ maxMask) ∧
      (blocks.map fun block => 2 ^ block.addressMask).sum = pageCount) := by
  obtain ⟨rfl, rfl | ⟨ordered, narrow, start, count⟩⟩ := VtdIotlbRangePlan.new_cases built
  · refine ⟨?_, ?_, ?_⟩
    · intro calls cursor more
      exact absurd (by simp only [cursor, VtdIotlbRangePlan.advance_of_exhausted]) more
    · intro calls _
      rw [VtdIotlbRangePlan.advance_of_exhausted rfl, VtdIotlbRangePlan.nextBlock_of_exhausted rfl]
    · intro _ rounds _
      simp only [VtdIotlbRangePlan.blocks_of_exhausted]
      exact ⟨.nil _, by simp, rfl⟩
  · have divided : VtdIotlbRangePlan.Divided ⟨startPage, pageCount, minMask, maxMask⟩ :=
      ⟨ordered, narrow, count, countBound⟩
    refine ⟨?_, ?_, ?_⟩
    · intro calls cursor more
      obtain ⟨still, _⟩ := VtdIotlbRangePlan.advance_of_divided divided calls
      obtain ⟨_, _, shift, fits⟩ :=
        VtdIotlbRangePlan.nextAddressMask_fits still (Nat.pos_of_ne_zero more)
      exact ⟨shift, fits⟩
    · intro calls enough
      obtain ⟨_, fewer⟩ := VtdIotlbRangePlan.advance_of_divided divided calls
      exact VtdIotlbRangePlan.nextBlock_of_exhausted (by simp only at fewer; omega)
    · intro bounded rounds enough
      have aligned : VtdIotlbRangePlan.Aligned ⟨startPage, pageCount, minMask, maxMask⟩ :=
        ⟨ordered, narrow, start, count, bounded⟩
      have partition := VtdIotlbRangePlan.blocks_partition aligned
      obtain ⟨tiled, _⟩ := VtdIotlbRangePlan.blocks_tile pageCount aligned (Nat.le_refl _)
      simp only [VtdIotlbRangePlan.blocks_of_le divided enough]
      refine ⟨tiled, fun block member => ?_, Nat.add_left_cancel (sum_sizes_of_tiles tiled)⟩
      exact ⟨partition.aligned block member, partition.masks block member⟩

/-- The last page of the address space: the position sticks there and the plan still ends. -/
theorem range_plan_partitions_last :
    ((VtdIotlbRangePlan.advance 1 ⟨2 ^ 64 - 1, 3, 0, 9⟩).remainingPages ≠ 0 →
      (VtdIotlbRangePlan.advance 1 ⟨2 ^ 64 - 1, 3, 0, 9⟩).nextAddressMask < 64) ∧
    (VtdIotlbRangePlan.advance 3 ⟨2 ^ 64 - 1, 3, 0, 9⟩).nextBlock = none := by
  have built : VtdIotlbRangePlan.new (2 ^ 64 - 1) 3 0 9 = .ok ⟨2 ^ 64 - 1, 3, 0, 9⟩ :=
    VtdIotlbRangePlan.new_of_aligned (Nat.zero_le _) (by simp) (Nat.one_dvd _) (Nat.one_dvd _)
  obtain ⟨taken, ended, _⟩ := range_plan_partitions _ _ _ _ _ (by simp) built
  exact ⟨fun more => (taken 1 more).1, ended 3 (Nat.le_refl 3)⟩

end Iommu
