import Iommu.Library.Laminar
import Iommu.Vtd.RangeOutcome
import Mathlib.Order.Bounds.Basic

/-!
The plan of a range invalidation has as few blocks as the masks allow, so a range is given up
for a domain invalidation only where no few blocks would have done.
-/

namespace Iommu

open MachineWord Memory

/-- Aligned blocks of the masks allowed that partition the pages, in any order. -/
structure RangePartition (startPage pageCount minMask maxMask : Nat)
    (blocks : List VtdIotlbRangeBlock) : Prop where
  masks : ∀ block ∈ blocks, minMask ≤ block.addressMask ∧ block.addressMask ≤ maxMask
  aligned : ∀ block ∈ blocks, 2 ^ block.addressMask ∣ block.page
  apart : (blocks.map VtdIotlbRangeBlock.span).Pairwise Span.Apart
  exact : ∀ page, Span.Covers (blocks.map VtdIotlbRangeBlock.span) page ↔
    startPage ≤ page ∧ page < startPage + pageCount

namespace RangePartition

variable {startPage pageCount minMask maxMask : Nat} {blocks : List VtdIotlbRangeBlock}

theorem dyadic (partition : RangePartition startPage pageCount minMask maxMask blocks)
    {block : VtdIotlbRangeBlock} (member : block ∈ blocks) :
    Span.Dyadic minMask maxMask block.span :=
  ⟨block.addressMask, (partition.masks block member).1, (partition.masks block member).2,
    partition.aligned block member, rfl⟩

theorem inside (partition : RangePartition startPage pageCount minMask maxMask blocks)
    {block : VtdIotlbRangeBlock} (member : block ∈ blocks) :
    startPage ≤ block.span.start ∧ block.span.stop ≤ startPage + pageCount := by
  have size : 0 < 2 ^ block.addressMask := Nat.two_pow_pos _
  have among : block.span ∈ blocks.map VtdIotlbRangeBlock.span := List.mem_map_of_mem member
  have first := (partition.exact block.page).mp
    ⟨block.span, among, Nat.le_refl _, Nat.lt_add_of_pos_right size⟩
  have last := (partition.exact (block.page + 2 ^ block.addressMask - 1)).mp
    ⟨block.span, among, by simp only [VtdIotlbRangeBlock.span]; omega,
      by simp only [VtdIotlbRangeBlock.span]; omega⟩
  simp only [VtdIotlbRangeBlock.span]
  omega

theorem empty (startPage minMask maxMask : Nat) : RangePartition startPage 0 minMask maxMask [] := by
  constructor
  · simp
  · simp
  · simp
  · intro page
    simp [Span.Covers]

end RangePartition

namespace VtdIotlbRangePlan

variable {plan : VtdIotlbRangePlan}

theorem nextAddressMask_greatest (aligned : plan.Aligned) {mask : Nat} (allowed : mask ≤ plan.maxMask)
    (divides : 2 ^ mask ∣ plan.nextPage) (fits : 2 ^ mask ≤ plan.remainingPages) :
    mask ≤ plan.nextAddressMask := by
  have bounded := aligned.bounded
  have small : mask ≤ floorLog2 plan.remainingPages := le_log_of_two_pow_le (by omega) fits
  have narrow : mask ≤ 63 := Nat.le_trans small (Nat.sub_le _ _)
  have low : mask ≤ if plan.nextPage = 0 then 63 else min (trailingZeros plan.nextPage) 63 := by
    split
    · exact narrow
    · next nonzero =>
      exact Nat.le_min.mpr
        ⟨le_trailingZeros (Nat.pos_of_ne_zero nonzero) (by omega) divides, narrow⟩
  exact Nat.le_trans (Nat.le_min.mpr ⟨Nat.le_min.mpr ⟨small, low⟩, allowed⟩) (Nat.le_max_left _ _)

theorem blocks_greedy (rounds : Nat) (aligned : plan.Aligned) (enough : plan.remainingPages ≤ rounds) :
    Span.Greedy (Span.Dyadic plan.minMask plan.maxMask) (plan.nextPage + plan.remainingPages)
      plan.nextPage ((blocks rounds plan).map VtdIotlbRangeBlock.span) := by
  induction rounds generalizing plan with
  | zero =>
      have exhausted : plan.remainingPages = 0 := by omega
      rw [blocks, exhausted]
      exact .nil
  | succ rounds ih =>
      by_cases exhausted : plan.remainingPages = 0
      · rw [blocks, nextBlock_of_exhausted exhausted, exhausted]
        exact .nil
      · have more := Nat.pos_of_ne_zero exhausted
        obtain ⟨next, yielded, still, least, cap, page, remaining⟩ := nextBlock_spec aligned more
        obtain ⟨above, below, _, divides, _⟩ := nextAddressMask_spec aligned more
        have size : 0 < 2 ^ plan.nextAddressMask := Nat.two_pow_pos _
        have later := ih still (by omega)
        have last : next.nextPage + next.remainingPages = plan.nextPage + plan.remainingPages := by
          omega
        rw [last, page, least, cap] at later
        rw [blocks, yielded]
        have belongs : Span.Dyadic plan.minMask plan.maxMask
            (VtdIotlbRangeBlock.span ⟨plan.nextPage, plan.nextAddressMask⟩) :=
          ⟨_, above, below, divides, rfl⟩
        refine .cons (Nat.lt_add_of_pos_right size) ?_ belongs later
        rintro other ⟨order, _, allowed, otherDivides, ends⟩ starts within
        simp only [VtdIotlbRangeBlock.span] at starts
        rw [starts] at otherDivides ends
        have fits : 2 ^ order ≤ plan.remainingPages := by omega
        have smaller := nextAddressMask_greatest aligned allowed otherDivides fits
        rw [ends]
        exact Nat.add_le_add_left (Nat.pow_le_pow_right (by decide) smaller) _

theorem blocks_partition (aligned : plan.Aligned) :
    RangePartition plan.nextPage plan.remainingPages plan.minMask plan.maxMask
      (blocks plan.remainingPages plan) := by
  have greedy := blocks_greedy plan.remainingPages aligned (Nat.le_refl _)
  have shape : ∀ block ∈ blocks plan.remainingPages plan, plan.minMask ≤ block.addressMask ∧
      block.addressMask ≤ plan.maxMask ∧ 2 ^ block.addressMask ∣ block.page := by
    intro block member
    obtain ⟨order, above, below, divides, ends⟩ :=
      greedy.members block.span (List.mem_map_of_mem member)
    have same : 2 ^ block.addressMask = 2 ^ order := Nat.add_left_cancel ends
    have exponent := Nat.pow_right_injective (Nat.le_refl 2) same
    exact ⟨exponent ▸ above, exponent ▸ below, exponent ▸ divides⟩
  constructor
  · exact fun block member => ⟨(shape block member).1, (shape block member).2.1⟩
  · exact fun block member => (shape block member).2.2
  · exact greedy.tiles.pairwise_apart
  · exact greedy.tiles.covers_iff

theorem descriptorCount_le (aligned : plan.Aligned) {others : List VtdIotlbRangeBlock}
    (partition : RangePartition plan.nextPage plan.remainingPages plan.minMask plan.maxMask others) :
    plan.descriptorCount ≤ others.length := by
  have greedy := blocks_greedy plan.remainingPages aligned (Nat.le_refl _)
  have allowed : ∀ span ∈ others.map VtdIotlbRangeBlock.span,
      Span.Dyadic plan.minMask plan.maxMask span ∧ plan.nextPage ≤ span.start ∧
        span.stop ≤ plan.nextPage + plan.remainingPages := by
    intro span among
    obtain ⟨block, member, rfl⟩ := List.mem_map.mp among
    exact ⟨partition.dyadic member, partition.inside member⟩
  have shortest := greedy.length_le (Span.laminar_dyadic _ _) allowed fun page low high =>
    (partition.exact page).mpr ⟨low, high⟩
  rw [List.length_map, List.length_map] at shortest
  rw [descriptorCount_eq aligned]
  exact shortest

theorem descriptorCount_isLeast (aligned : plan.Aligned) :
    IsLeast {count | ∃ blocks, RangePartition plan.nextPage plan.remainingPages plan.minMask
      plan.maxMask blocks ∧ blocks.length = count} plan.descriptorCount := by
  constructor
  · exact ⟨_, blocks_partition aligned, (descriptorCount_eq aligned).symm⟩
  · rintro _ ⟨others, partition, rfl⟩
    exact descriptorCount_le aligned partition

theorem new_eq_ok {startPage pageCount minMask maxMask : Nat} {plan : VtdIotlbRangePlan}
    (made : new startPage pageCount minMask maxMask = .ok plan) :
    plan = ⟨startPage, pageCount, minMask, maxMask⟩ ∧
      (pageCount = 0 ∨ minMask ≤ maxMask ∧ minMask < 64 ∧ 2 ^ minMask ∣ startPage ∧
        2 ^ minMask ∣ pageCount) := by
  rw [new] at made
  split at made
  · next empty =>
    cases made
    exact ⟨by rw [empty], Or.inl empty⟩
  split at made
  · cases made
  next ordered =>
  rw [checkedShl] at made
  split at made
  · cases made
  · next minPages shifted =>
    split at shifted
    · next narrow =>
      have small : 2 ^ minMask < limit := Nat.pow_lt_pow_right (by decide) narrow
      rw [Nat.one_mul, Nat.mod_eq_of_lt small] at shifted
      obtain rfl := Option.some.inj shifted
      rw [Nat.and_two_pow_sub_one_eq_mod, Nat.and_two_pow_sub_one_eq_mod] at made
      split at made
      · cases made
      · next aligned =>
        rw [not_or, not_not, not_not] at aligned
        cases made
        exact ⟨rfl, Or.inr ⟨Nat.le_of_not_lt ordered, narrow, Nat.dvd_of_mod_eq_zero aligned.1,
          Nat.dvd_of_mod_eq_zero aligned.2⟩⟩
    · cases shifted

theorem new_aligned {startPage pageCount minMask maxMask : Nat} {plan : VtdIotlbRangePlan}
    (made : new startPage pageCount minMask maxMask = .ok plan) (some_pages : pageCount ≠ 0)
    (inside : startPage + pageCount ≤ 2 ^ 52) : plan.Aligned := by
  obtain ⟨rfl, empty | ⟨ordered, narrow, start, count⟩⟩ := new_eq_ok made
  · exact absurd empty some_pages
  · refine ⟨ordered, narrow, start, count, ?_⟩
    simp only [limit]
    omega

end VtdIotlbRangePlan

/-- The number of descriptors of a plan is the least number of aligned blocks that partition its pages,
and a range is flushed as a whole domain only if more than the threshold of them are needed. -/
theorem range_plan_minimal {startPage pageCount minMask maxMask : Nat} {plan : VtdIotlbRangePlan}
    (made : VtdIotlbRangePlan.new startPage pageCount minMask maxMask = .ok plan)
    (inside : startPage + pageCount ≤ 2 ^ 52) :
    IsLeast {count | ∃ blocks, RangePartition startPage pageCount minMask maxMask blocks ∧
      blocks.length = count} plan.descriptorCount ∧
    ∀ (QN : Nat) (Registers : Type) (mmu : Translation) (unit : VtdUnit Registers)
      (domain : VtdIoDomain) (start : UInt64) (pageSize : PageSize) (countPages : Nat),
      RangePlanned unit.info.cap start pageSize countPages plan →
      ((∃ blocks, RangePartition startPage pageCount minMask maxMask blocks ∧
          blocks.length ≤ IOTLB_RANGE_DOMAIN_INVALIDATION_THRESHOLD) →
        (unit.invalidateIotlbRange mmu domain start pageSize countPages :
          Effect (QueueWorld QN Registers) Error InvalidateScope) = unit.submitPlan mmu domain plan) ∧
      ((¬∃ blocks, RangePartition startPage pageCount minMask maxMask blocks ∧
          blocks.length ≤ IOTLB_RANGE_DOMAIN_INVALIDATION_THRESHOLD) →
        (unit.invalidateIotlbRange mmu domain start pageSize countPages :
          Effect (QueueWorld QN Registers) Error InvalidateScope) = unit.flushDomain mmu domain) := by
  have least : IsLeast {count | ∃ blocks, RangePartition startPage pageCount minMask maxMask blocks ∧
      blocks.length = count} plan.descriptorCount := by
    have same := (VtdIotlbRangePlan.new_eq_ok made).1
    by_cases empty : pageCount = 0
    · rw [same, empty]
      exact ⟨⟨[], .empty .., rfl⟩, fun _ _ => Nat.zero_le _⟩
    · have fewest := VtdIotlbRangePlan.descriptorCount_isLeast
        (VtdIotlbRangePlan.new_aligned made empty inside)
      rw [same] at fewest ⊢
      exact fewest
  refine ⟨least, fun QN Registers mmu unit domain start pageSize countPages planned => ?_⟩
  rw [VtdUnit.invalidateIotlbRange_planned planned]
  constructor
  · rintro ⟨blocks, partition, few⟩
    exact if_neg (Nat.not_lt_of_le (Nat.le_trans (least.2 ⟨blocks, partition, rfl⟩) few))
  · intro many
    apply if_pos
    by_contra few
    obtain ⟨blocks, partition, counted⟩ := least.1
    exact many ⟨blocks, partition, counted ▸ Nat.le_of_not_lt few⟩

theorem range_plan_minimal_sample :
    IsLeast {count | ∃ blocks, RangePartition 3 5 0 9 blocks ∧ blocks.length = count}
      (VtdIotlbRangePlan.descriptorCount ⟨3, 5, 0, 9⟩) :=
  (@range_plan_minimal 3 5 0 9 _ rfl (by decide)).1

end Iommu
