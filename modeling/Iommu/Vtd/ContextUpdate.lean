import Iommu.Vtd.RangeInvalidation

/-!
Replacing a context entry: `bind_context` and `unbind_context` both make their
checks, write one slot and hand two invalidations to the queue. Everything either
of them can do is said once here.
-/

namespace Iommu

open MachineWord Memory

variable {QN : Nat} {Registers : Type}

namespace VtdUnit

def prepareBinding (unit : VtdUnit Registers) (activeDomain : VtdDomain)
    (binding : Binding PciDevice VtdDomain) :
    Except Error (VtdContextTableBacking × VtdContextEntry) :=
  if binding.selector ≠ .default then .error .featureUnavailable
  else
    match unit.validateClient binding.client with
    | .error error => .error error
    | .ok () =>
        if foreignDomain activeDomain binding.target then .error .invalidAddressSpace
        else
          match unit.contextTableForClient binding.client with
          | .error error => .error error
          | .ok table =>
              match VtdContextEntry.fromBinding binding unit.info.ecap with
              | .error error => .error error
              | .ok entry => .ok (table, entry)

def prepareUnbinding (unit : VtdUnit Registers) (client : PciDevice) (selector : BindingSelector) :
    Except Error (VtdContextTableBacking × VtdContextEntry) :=
  if selector ≠ .default then .error .featureUnavailable
  else
    match unit.validateClient client with
    | .error error => .error error
    | .ok () =>
        match unit.contextTableForClient client with
        | .error error => .error error
        | .ok table => .ok (table, .disabled)

def replaceContext (mmu : Translation) (unit : VtdUnit Registers) (domain : VtdDomain)
    (client : PciDevice) (table : VtdContextTableBacking) (entry : VtdContextEntry) :
    Effect (QueueWorld QN Registers) Error Unit := do
  writeContextEntry mmu table client entry
  unit.invalidateContextDevice mmu client
  unit.invalidateIotlbDomain mmu domain.id

def replaceAfter (mmu : Translation) (unit : VtdUnit Registers) (domain : VtdDomain)
    (client : PciDevice) :
    Except Error (VtdContextTableBacking × VtdContextEntry) →
      Effect (QueueWorld QN Registers) Error Unit
  | .error error => .fail error
  | .ok (table, entry) => unit.replaceContext mmu domain client table entry

variable {mmu : Translation} {unit : VtdUnit Registers}

theorem bindContext_eq (activeDomain : VtdDomain) (binding : Binding PciDevice VtdDomain) :
    (unit.bindContext mmu activeDomain binding : Effect (QueueWorld QN Registers) Error Unit) =
      unit.replaceAfter mmu activeDomain binding.client
        (unit.prepareBinding activeDomain binding) := by
  rw [bindContext, prepareBinding]
  by_cases selector : binding.selector ≠ .default
  · rw [if_pos selector, if_pos selector]
    rfl
  · rw [if_neg selector, if_neg selector]
    cases unit.validateClient binding.client with
    | error error => rfl
    | ok value =>
        by_cases foreign : foreignDomain activeDomain binding.target = true
        · simp only [foreign]
          rfl
        · simp only [foreign]
          cases unit.contextTableForClient binding.client with
          | error error => rfl
          | ok table =>
              cases VtdContextEntry.fromBinding binding unit.info.ecap with
              | error error => rfl
              | ok entry => rfl

theorem unbindContext_eq (domain : VtdDomain) (client : PciDevice) (selector : BindingSelector) :
    (unit.unbindContext mmu domain client selector :
      Effect (QueueWorld QN Registers) Error Unit) =
      unit.replaceAfter mmu domain client (unit.prepareUnbinding client selector) := by
  rw [unbindContext, prepareUnbinding]
  by_cases other : selector ≠ .default
  · rw [if_pos other, if_pos other]
    rfl
  · rw [if_neg other, if_neg other]
    cases unit.validateClient client with
    | error error => rfl
    | ok value =>
        cases unit.contextTableForClient client with
        | error error => rfl
        | ok table => rfl

theorem validateClient_eq_ok {client : PciDevice} :
    unit.validateClient client = .ok () ↔ ∀ segment, unit.info.segment = some segment →
      segment = client.segment := by
  rw [validateClient]
  cases unit.info.segment with
  | none => simp
  | some segment => simp

theorem contextTableForClient_eq_ok {client : PciDevice} {table : VtdContextTableBacking} :
    unit.contextTableForClient client = .ok table ↔
      unit.contextTables client.bus = some table := by
  rw [contextTableForClient, contextTable]
  cases unit.contextTables client.bus with
  | none => simp
  | some found => simp

theorem prepareBinding_eq_ok {activeDomain : VtdDomain} {binding : Binding PciDevice VtdDomain}
    {table : VtdContextTableBacking} {entry : VtdContextEntry} :
    unit.prepareBinding activeDomain binding = .ok (table, entry) ↔
      binding.selector = .default ∧ unit.validateClient binding.client = .ok () ∧
        foreignDomain activeDomain binding.target = false ∧
        unit.contextTables binding.client.bus = some table ∧
        VtdContextEntry.fromBinding binding unit.info.ecap = .ok entry := by
  rw [prepareBinding]
  by_cases selector : binding.selector = .default
  · rw [if_neg (not_not_intro selector), ← contextTableForClient_eq_ok]
    cases unit.validateClient binding.client with
    | error error => simp
    | ok value =>
        cases foreignDomain activeDomain binding.target with
        | true => simp
        | false =>
            cases unit.contextTableForClient binding.client with
            | error error => simp
            | ok found =>
                cases VtdContextEntry.fromBinding binding unit.info.ecap with
                | error error => simp
                | ok built => simp [selector]
  · rw [if_pos selector]
    simp [selector]

theorem prepareUnbinding_eq_ok {client : PciDevice} {selector : BindingSelector}
    {table : VtdContextTableBacking} {entry : VtdContextEntry} :
    unit.prepareUnbinding client selector = .ok (table, entry) ↔
      selector = .default ∧ unit.validateClient client = .ok () ∧
        unit.contextTables client.bus = some table ∧ entry = .disabled := by
  rw [prepareUnbinding]
  by_cases default : selector = .default
  · rw [if_neg (not_not_intro default), ← contextTableForClient_eq_ok]
    cases unit.validateClient client with
    | error error => simp
    | ok value =>
        cases unit.contextTableForClient client with
        | error error => simp
        | ok found => simp [default, eq_comm]
  · rw [if_pos default]
    simp [default]

section Replacement

variable {domain : VtdDomain} {client : PciDevice} {table : VtdContextTableBacking}
  {entry : VtdContextEntry} {world after : QueueWorld QN Registers}

theorem replaceContext_apply :
    unit.replaceContext mmu domain client table entry world =
      (do
        unit.invalidateContextDevice mmu client
        unit.invalidateIotlbDomain mmu domain.id : Effect (QueueWorld QN Registers) Error Unit)
      (world.writeEntry mmu (table.clientVaddr client) entry.low entry.high) := by
  rw [replaceContext, Effect.bind_of_ok (writeContextEntry_apply mmu table client entry world)]

theorem replaceContext_ringOnly (mapped : world.RingMapped mmu) :
    (world.writeEntry mmu (table.clientVaddr client) entry.low entry.high).RingOnly
      (unit.replaceContext mmu domain client table entry world).2 := by
  rw [replaceContext_apply]
  have written : (world.writeEntry mmu (table.clientVaddr client) entry.low entry.high).RingMapped
      mmu := mapped
  have first := unit.submitQueuedInvalidation_ringOnly written (.contextDevice client)
  rw [Effect.bind_apply, invalidateContextDevice]
  rcases ran : unit.submitQueuedInvalidation mmu (.contextDevice client)
    (world.writeEntry mmu (table.clientVaddr client) entry.low entry.high) with ⟨outcome, middle⟩
  rw [ran] at first
  cases outcome with
  | error error => exact first
  | ok value =>
      exact first.trans
        (unit.submitQueuedInvalidation_ringOnly (written.congr first.ring) _)

theorem replaceContext_words (ringMapped : world.RingMapped mmu)
    (tableMapped : table.backing.Mapped mmu)
    (apart : ∀ offset < 16, ¬world.OwnsRing (table.clientPaddr client + offset)) :
    entryWords (unit.replaceContext mmu domain client table entry world).2.memory
      (table.clientPaddr client) = (entry.low, entry.high) := by
  rw [entryWords_of_ringOnly (replaceContext_ringOnly ringMapped) apart]
  exact entryWords_store128 (client_contiguous tableMapped client) _ _ _

theorem replaceContext_words_other (ringMapped : world.RingMapped mmu)
    (tableMapped : table.backing.Mapped mmu) {query : Nat}
    (apart : ∀ offset < 16, ¬world.OwnsRing (query + offset))
    (other : query + 16 ≤ table.clientPaddr client ∨ table.clientPaddr client + 16 ≤ query) :
    entryWords (unit.replaceContext mmu domain client table entry world).2.memory query =
      entryWords world.memory query := by
  rw [entryWords_of_ringOnly (replaceContext_ringOnly ringMapped) apart]
  exact entryWords_store128_outside (client_contiguous tableMapped client) _ _ _ other

/-- After the two stores of the entry, a replacement that returned `Ok` has handed over two
invalidations: of the requester's context entry and of the controller's domain. -/
theorem replaceContext_ok_events (mapped : world.RingMapped mmu)
    (ran : unit.replaceContext mmu domain client table entry world = (.ok (), after)) :
    ∃ submitted, after.events = world.events ++ [.store (table.clientVaddr client) entry.low,
        .store (table.clientVaddr client + 8) entry.high] ++ submitted ∧
      Invalidation.ofEvents submitted =
        [some (.contextDevice client.bdf.raw.toNat), some (.iotlbDomain domain.id.id.toNat)] := by
  rw [replaceContext_apply] at ran
  obtain ⟨_, middle, first, second⟩ := Effect.bind_eq_ok.mp ran
  have written : (world.writeEntry mmu (table.clientVaddr client) entry.low entry.high).RingMapped
      mmu := mapped
  obtain ⟨still, device, afterFirst, deviceReads⟩ :=
    submitQueuedInvalidation_ok_events written first
  obtain ⟨_, flushed, afterSecond, flushedReads⟩ := submitQueuedInvalidation_ok_events still second
  rw [VtdQueuedInvalidationDescriptor.contextDevice_reads] at deviceReads
  rw [VtdQueuedInvalidationDescriptor.iotlbDomain_reads] at flushedReads
  refine ⟨device ++ flushed, ?_, ?_⟩
  · rw [afterSecond, afterFirst, List.append_assoc]
    rfl
  · rw [Invalidation.ofEvents_append, deviceReads, flushedReads]
    rfl

end Replacement

end VtdUnit

end Iommu
