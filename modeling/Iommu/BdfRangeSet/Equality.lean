import Iommu.BdfRangeSet

/-!
Equality of range sets. It compares the whole window array, the windows behind
`count` too, so it speaks of what was inserted only because each set of requesters
has one representation.
-/

namespace Iommu.BdfRangeSet

variable {N : Nat}

instance : BEq (BdfRangeSet N) where
  beq first second :=
    (List.range N).all (fun index => first.windows index == second.windows index) &&
      first.count == second.count

theorem beq_iff (first second : BdfRangeSet N) :
    (first == second) = true ↔
      (∀ index < N, first.windows index = second.windows index) ∧ first.count = second.count := by
  show ((List.range N).all _ && _) = true ↔ _
  simp only [Bool.and_eq_true, List.all_eq_true, List.mem_range, beq_iff_eq]

theorem beq_self (set : BdfRangeSet N) : (set == set) = true :=
  (beq_iff set set).mpr ⟨fun _ _ => rfl, rfl⟩

theorem contains_of_beq {first second : BdfRangeSet N} (same : (first == second) = true)
    (capacity : first.count ≤ N) (bdf : Bdf) : Contains first bdf ↔ Contains second bdf := by
  obtain ⟨windows, counts⟩ := (beq_iff first second).mp same
  have window : ∀ index < first.count, first.windows index = second.windows index :=
    fun index below => windows index (Nat.lt_of_lt_of_le below capacity)
  simp only [Contains, ← counts]
  constructor
  · rintro ⟨index, below, held⟩
    exact ⟨index, below, window index below ▸ held⟩
  · rintro ⟨index, below, held⟩
    exact ⟨index, below, (window index below).symm ▸ held⟩

theorem spans_injective {first second : List BdfRange} (same : spans first = spans second) :
    first = second :=
  (List.map_inj_right fun _ _ => BdfRange.span_injective).mp same

theorem covers_lt {ranges : List BdfRange} {point : Nat}
    (covered : Span.Covers (spans ranges) point) : point < 0x10000 := by
  obtain ⟨span, member, _, below⟩ := covered
  obtain ⟨range, _, rfl⟩ := List.mem_map.mp member
  exact Nat.lt_of_lt_of_le below range.bounded

theorem covers_of_contains {first second : List BdfRange}
    (same : ∀ bdf, Contains (ofList first : BdfRangeSet N) bdf →
      Contains (ofList second : BdfRangeSet N) bdf)
    {point : Nat} (covered : Span.Covers (spans first) point) :
    Span.Covers (spans second) point := by
  have raw : (⟨UInt16.ofNat point⟩ : Bdf).asU32 = point :=
    UInt16.toNat_ofNat_of_lt' (covers_lt covered)
  have held := same ⟨UInt16.ofNat point⟩
  rw [contains_ofList, contains_ofList, raw] at held
  exact held covered

theorem ofList_eq_of_contains {first second : List BdfRange}
    (firstSeparated : Span.Separated (spans first)) (secondSeparated : Span.Separated (spans second))
    (same : ∀ bdf, Contains (ofList first : BdfRangeSet N) bdf ↔
      Contains (ofList second : BdfRangeSet N) bdf) : first = second :=
  spans_injective <| firstSeparated.eq_of_covers secondSeparated fun _ =>
    ⟨covers_of_contains fun bdf => (same bdf).mp, covers_of_contains fun bdf => (same bdf).mpr⟩

theorem insertAll_reaches (history : List BdfRange) :
    ∃ held, (insertAll history (empty : BdfRangeSet N)).2 = ofList held ∧
      Span.Separated (spans held) ∧ held.length ≤ N := by
  obtain ⟨held, reached, separated, capacity, _⟩ :=
    insertAll_preserves (N := N) [] separated_nil (Nat.zero_le N) history
  exact ⟨held, reached, separated, capacity⟩

theorem insertAll_of_insertEach {ranges : List BdfRange} {set final : BdfRangeSet N}
    (ran : insertEach ranges set = (.ok (), final)) : (insertAll ranges set).2 = final := by
  induction ranges generalizing set with
  | nil =>
      cases ran
      rfl
  | cons range rest ih =>
      obtain ⟨_, middle, inserted, others⟩ := Effect.bind_eq_ok.mp ran
      simp only [insertAll, inserted]
      exact ih others

theorem beq_iff_contains (first second : List BdfRange) :
    ((insertAll first (empty : BdfRangeSet N)).2 == (insertAll second empty).2) = true ↔
      ∀ bdf, Contains (insertAll first (empty : BdfRangeSet N)).2 bdf ↔
        Contains (insertAll second (empty : BdfRangeSet N)).2 bdf := by
  obtain ⟨firstHeld, firstReached, firstSeparated, firstCapacity⟩ := insertAll_reaches (N := N) first
  obtain ⟨secondHeld, secondReached, secondSeparated, _⟩ := insertAll_reaches (N := N) second
  rw [firstReached, secondReached]
  constructor
  · exact fun same => contains_of_beq same firstCapacity
  · intro same
    obtain rfl := ofList_eq_of_contains firstSeparated secondSeparated same
    exact beq_self _

theorem insertEach_reaches {ranges : List BdfRange} {final : BdfRangeSet N}
    (ran : insertEach ranges empty = (.ok (), final)) :
    ∃ held, final = ofList held ∧ Span.Separated (spans held) := by
  obtain ⟨held, reached, separated, _⟩ := insertAll_reaches (N := N) ranges
  exact ⟨held, (insertAll_of_insertEach ran).symm.trans reached, separated⟩

/-- What went in decides the set, in whatever order and however often it went in. -/
theorem insertEach_unique {first second : List BdfRange}
    (same : ∀ range, range ∈ first ↔ range ∈ second) {firstFinal secondFinal : BdfRangeSet N}
    (firstRan : insertEach first empty = (.ok (), firstFinal))
    (secondRan : insertEach second empty = (.ok (), secondFinal)) : firstFinal = secondFinal := by
  have contents : ∀ bdf, Contains firstFinal bdf ↔ Contains secondFinal bdf := by
    intro bdf
    rw [contains_insertEach firstRan, contains_insertEach secondRan]
    simp only [same]
  obtain ⟨firstHeld, rfl, firstSeparated⟩ := insertEach_reaches firstRan
  obtain ⟨secondHeld, rfl, secondSeparated⟩ := insertEach_reaches secondRan
  rw [ofList_eq_of_contains firstSeparated secondSeparated contents]

theorem insert_again (range : BdfRange) {held : List BdfRange}
    (separated : Span.Separated (spans held)) :
    insert range (insert range (ofList held : BdfRangeSet N)).2 = insert range (ofList held) := by
  cases vacant : range.isEmpty with
  | true => rw [insert_empty vacant, insert_empty vacant]
  | false =>
      have proper := BdfRange.span_proper vacant
      by_cases place : (∃ member ∈ held, range.span.Touches member.span) ∨ held.length ≠ N
      · obtain ⟨merged, mergedSpans, ran⟩ := insert_ok vacant separated place
        have mergedSeparated : Span.Separated (spans merged) :=
          mergedSpans ▸ Span.separated_insert proper separated
        have covered : ∀ point, range.span.Contains point → Span.Covers (spans merged) point := by
          intro point inside
          rw [mergedSpans, Span.covers_insert]
          exact Or.inl inside
        obtain ⟨span, among, inside⟩ := covered range.span.start ⟨Nat.le_refl _, proper⟩
        obtain ⟨member, found, rfl⟩ := List.mem_map.mp among
        have touches : range.span.Touches member.span :=
          ⟨Nat.le_of_lt inside.2, Nat.le_trans inside.1 (Nat.le_of_lt proper)⟩
        obtain ⟨again, againSpans, ranAgain⟩ :=
          insert_ok (N := N) vacant mergedSeparated (Or.inl ⟨member, found, touches⟩)
        rw [Span.insert_of_covered proper mergedSeparated covered] at againSpans
        rw [ran, ranAgain, spans_injective againSpans]
      · obtain ⟨apart, full⟩ := not_or.mp place
        have refused := insert_full (N := N) vacant
          (fun member found touches => apart ⟨member, found, touches⟩) (not_not.mp full)
        rw [refused, refused]

theorem merged_runs {ranges : List BdfRange} (filled : ∀ range ∈ ranges, range.isEmpty = false)
    {held : List (Span Nat)} (separated : Span.Separated held) :
    Span.Separated (merged ranges held) ∧ ∀ point, Span.Covers (merged ranges held) point ↔
      (∃ range ∈ ranges, range.span.Contains point) ∨ Span.Covers held point := by
  induction ranges generalizing held with
  | nil => exact ⟨separated, fun point => by simp [merged]⟩
  | cons range rest ih =>
      obtain ⟨nonempty, others⟩ := List.forall_mem_cons.mp filled
      obtain ⟨apart, covers⟩ :=
        ih others (Span.separated_insert (BdfRange.span_proper nonempty) separated)
      refine ⟨apart, fun point => (covers point).trans ?_⟩
      rw [Span.covers_insert]
      simp only [List.mem_cons, exists_eq_or_imp]
      exact or_left_comm.trans or_assoc.symm

theorem reached_sets_canonical (N : Nat) :
    (∀ first second : List BdfRange,
      ((insertAll first (empty : BdfRangeSet N)).2 == (insertAll second empty).2) = true ↔
        ∀ bdf, Contains (insertAll first (empty : BdfRangeSet N)).2 bdf ↔
          Contains (insertAll second (empty : BdfRangeSet N)).2 bdf) ∧
    (∀ (first second : List BdfRange) (firstFinal secondFinal : BdfRangeSet N),
      first.Perm second → insertEach first empty = (.ok (), firstFinal) →
        insertEach second empty = (.ok (), secondFinal) → (firstFinal == secondFinal) = true) ∧
    ∀ (history : List BdfRange) (range : BdfRange),
      insert range (insert range (insertAll history (empty : BdfRangeSet N)).2).2 =
        insert range (insertAll history empty).2 := by
  refine ⟨beq_iff_contains, ?_, fun history range => ?_⟩
  · intro first second firstFinal secondFinal permuted firstRan secondRan
    rw [insertEach_unique (fun range => permuted.mem_iff) firstRan secondRan]
    exact beq_self _
  · obtain ⟨held, reached, separated, _⟩ := insertAll_reaches (N := N) history
    rw [reached]
    exact insert_again range separated

theorem reached_sets_canonical_swapped : ∃ first second : BdfRangeSet 2,
    insertEach [.single ⟨1⟩, .single ⟨4⟩] empty = (.ok (), first) ∧
      insertEach [.single ⟨4⟩, .single ⟨1⟩] empty = (.ok (), second) ∧ (first == second) = true := by
  obtain ⟨_, ordered, _⟩ := reached_sets_canonical 2
  refine ⟨_, _, rfl, rfl, ?_⟩
  refine ordered [.single ⟨1⟩, .single ⟨4⟩] [.single ⟨4⟩, .single ⟨1⟩] _ _ ?_ rfl rfl
  exact .swap _ _ _

end Iommu.BdfRangeSet
