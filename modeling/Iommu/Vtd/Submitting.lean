import Iommu.Vtd.Unit

/-!
Invalidations as programs: whatever the unit invalidates, it does so by submitting descriptors to its
ring and by nothing else. What one submission keeps, every invalidation keeps.
-/

namespace Iommu

variable {QN : Nat} {Registers : Type} {mmu : Translation} {unit : VtdUnit Registers}

/-- An operation made of submissions to the ring of the unit. -/
inductive Submitting (mmu : Translation) (unit : VtdUnit Registers) :
    {Value : Type} → Effect (QueueWorld QN Registers) Error Value → Prop
  | pure {Value : Type} (value : Value) : Submitting mmu unit (Pure.pure value)
  | fail {Value : Type} (error : Error) :
      Submitting mmu unit (Effect.fail error : Effect (QueueWorld QN Registers) Error Value)
  | ofExcept {Value : Type} (outcome : Except Error Value) :
      Submitting mmu unit (Effect.ofExcept outcome)
  | submit (descriptor : VtdQueuedInvalidationDescriptor) :
      Submitting mmu unit (unit.submitQueuedInvalidation mmu descriptor)
  | bind {Value Result : Type} {first : Effect (QueueWorld QN Registers) Error Value}
      {next : Value → Effect (QueueWorld QN Registers) Error Result} :
      Submitting mmu unit first → (∀ value, Submitting mmu unit (next value)) →
        Submitting mmu unit (first >>= next)

namespace Submitting

theorem submitBlocks (domain : VtdIoDomain) (rounds : Nat) (plan : VtdIotlbRangePlan) :
    Submitting mmu unit (unit.submitBlocks mmu domain rounds plan :
      Effect (QueueWorld QN Registers) Error Unit) := by
  induction rounds generalizing plan with
  | zero => exact pure ()
  | succ rounds ih =>
      rw [VtdUnit.submitBlocks]
      cases plan.nextBlock with
      | none => exact pure ()
      | some found =>
          apply bind (ofExcept _)
          intro iova
          apply bind (ofExcept _)
          intro descriptor
          exact bind (submit descriptor) fun _ => ih found.2

theorem domainFallback (domain : VtdIoDomain) (scope : InvalidateScope) :
    Submitting mmu unit (do
      unit.invalidateIotlbDomain mmu domain
      Pure.pure scope : Effect (QueueWorld QN Registers) Error InvalidateScope) :=
  bind (submit _) fun _ => pure scope

theorem invalidateIotlbRange (domain : VtdIoDomain) (start : UInt64) (pageSize : PageSize)
    (countPages : Nat) :
    Submitting mmu unit (unit.invalidateIotlbRange mmu domain start pageSize countPages :
      Effect (QueueWorld QN Registers) Error InvalidateScope) := by
  rw [VtdUnit.invalidateIotlbRange]
  by_cases none : countPages = 0
  · rw [if_pos none]
    exact pure _
  · rw [if_neg none]
    dsimp only
    split
    · exact domainFallback domain _
    · split
      · exact fail _
      · split
        · exact domainFallback domain _
        · split
          · exact fail _
          · apply bind (ofExcept _)
            intro plan
            split
            · exact domainFallback domain _
            · exact bind (submitBlocks domain _ plan) fun _ => pure _

theorem invalidateIotlbPage (domain : VtdIoDomain) (iova : UInt64) (granule : PageSize) :
    Submitting mmu unit (unit.invalidateIotlbPage mmu domain iova granule :
      Effect (QueueWorld QN Registers) Error InvalidateScope) := by
  rw [VtdUnit.invalidateIotlbPage]
  split
  · exact bind (submit _) fun _ => pure _
  · exact domainFallback domain _
  · exact fail _

theorem invalidate (controller : VtdDomainController) (request : Invalidate) :
    Submitting mmu unit (controller.invalidate mmu unit request :
      Effect (QueueWorld QN Registers) Error InvalidateOutcome) := by
  cases request with
  | global => exact bind (submit _) fun _ => pure _
  | addressSpace => exact bind (submit _) fun _ => pure _
  | leaf iova granule => exact bind (invalidateIotlbPage _ iova granule) fun _ => pure _
  | device client => exact fail _
  | deviceLeaf client iova granule => exact fail _

/-- What a submission does to the world, the operation does to it, whatever the outcome. -/
theorem respects {relation : QueueWorld QN Registers → QueueWorld QN Registers → Prop}
    {Value : Type} {effect : Effect (QueueWorld QN Registers) Error Value}
    (refl : ∀ world, relation world world)
    (trans : ∀ first second third, relation first second → relation second third →
      relation first third)
    (submits : ∀ descriptor, (unit.submitQueuedInvalidation mmu descriptor :
      Effect (QueueWorld QN Registers) Error Unit).Respects relation)
    (made : Submitting mmu unit effect) : effect.Respects relation := by
  induction made with
  | pure value => exact .pure refl value
  | fail error => exact .fail refl error
  | ofExcept outcome => exact .ofExcept refl outcome
  | submit descriptor => exact submits descriptor
  | bind _ _ before after => exact .bind trans before after

/-- What a submission that returns `Ok` leaves true, the operation leaves true when it returns. -/
theorem keeps {invariant : QueueWorld QN Registers → Prop}
    {Value : Type} {effect : Effect (QueueWorld QN Registers) Error Value}
    (submits : ∀ descriptor world after, invariant world →
      unit.submitQueuedInvalidation mmu descriptor world = (.ok (), after) → invariant after)
    (made : Submitting mmu unit effect) :
    ∀ world value after, invariant world → effect world = (.ok value, after) → invariant after := by
  induction made with
  | pure value =>
      rintro world result after holds ⟨⟩
      exact holds
  | fail error =>
      intro world result after _ ran
      cases ran
  | ofExcept outcome =>
      intro world result after holds ran
      rw [Effect.ofExcept_apply] at ran
      obtain rfl := congrArg Prod.snd ran
      exact holds
  | submit descriptor => exact fun world _ after => submits descriptor world after
  | bind _ _ before after =>
      intro world result final holds ran
      obtain ⟨value, middle, first, second⟩ := Effect.bind_eq_ok.mp ran
      exact after value middle result final (before world value middle holds first) second

end Submitting

end Iommu
