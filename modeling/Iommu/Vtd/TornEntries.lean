import Iommu.Vtd.EntryFields
import Iommu.Vtd.Tables

/-!
What the hardware can see of an entry while it is being replaced: the memory after
every prefix of the stores of one write, and when none of them shows a torn entry.
-/

namespace Iommu

open MachineWord Memory

variable {QN : Nat} {Registers : Type} {mmu : Translation}

/-- The memory after some of the stores a computation has performed. -/
def replay (mmu : Translation) (memory : Memory) (events : List Event) : Memory :=
  events.foldl (fun current event =>
    match event with
    | .store vaddr word => store64 mmu current vaddr word
    | .publish _ _ => current) memory

/-- After any number of the stores of the write, the slot shows the old words, the new ones, or a
clear present bit. -/
def NeverTorn (mmu : Translation) (write : Effect (QueueWorld QN Registers) Error Unit)
    (world : QueueWorld QN Registers) (paddr : Nat) (fresh : UInt64 × UInt64) : Prop :=
  ∀ count,
    let stored := ((write world).2.events.drop world.events.length).take count
    let shown := entryWords (replay mmu world.memory stored) paddr
    shown = entryWords world.memory paddr ∨ shown = fresh ∨ shown.1 &&& 1 = 0

theorem replay_write128 (mmu : Translation) (vaddr : Nat) (low high : UInt64)
    (world : QueueWorld QN Registers) :
    (write128 mmu vaddr low high world).2.events.drop world.events.length =
        [.store vaddr low, .store (vaddr + 8) high] ∧
      (write128 mmu vaddr low high world).2.memory =
        replay mmu world.memory [.store vaddr low, .store (vaddr + 8) high] := by
  rw [write128_apply]
  constructor
  · simp [QueueWorld.writeEntry]
  · rfl

/-- Between the two stores the slot pairs the new low word with the old high word. -/
theorem entryWords_between {vaddr paddr : Nat} (contiguous : Contiguous mmu vaddr paddr 16)
    (memory : Memory) (low : UInt64) :
    entryWords (store64 mmu memory vaddr low) paddr = (low, (entryWords memory paddr).2) := by
  rw [entryWords, load64_store64 _ _ (contiguous.narrow (by omega)),
    load64_store64_outside _ _ (contiguous.narrow (by omega)) (by omega), entryWords]

theorem write128_neverTorn_iff {vaddr paddr : Nat} (contiguous : Contiguous mmu vaddr paddr 16)
    {low high oldLow oldHigh : UInt64} {world : QueueWorld QN Registers}
    {write : Effect (QueueWorld QN Registers) Error Unit}
    (writes : write world = write128 mmu vaddr low high world)
    (before : entryWords world.memory paddr = (oldLow, oldHigh)) :
    NeverTorn mmu write world paddr (low, high) ↔
      low = oldLow ∨ high = oldHigh ∨ low &&& 1 = 0 := by
  obtain ⟨stores, _⟩ := replay_write128 mmu vaddr low high world
  have between := entryWords_between contiguous world.memory low
  rw [before] at between
  have finished := entryWords_store128 contiguous world.memory low high
  constructor
  · intro whole
    have shown := whole 1
    simp only [writes, stores, List.take_succ_cons, List.take_zero, replay, List.foldl_cons,
      List.foldl_nil, between, before, Prod.mk.injEq, and_true, true_and] at shown
    rcases shown with same | same | clear
    · exact Or.inl same
    · exact Or.inr (Or.inl same.symm)
    · exact Or.inr (Or.inr clear)
  · intro safe count
    simp only [writes, stores, before]
    match count with
    | 0 => exact Or.inl before
    | 1 =>
        simp only [List.take_succ_cons, List.take_zero, replay, List.foldl_cons, List.foldl_nil,
          between, Prod.mk.injEq, and_true, true_and]
        rcases safe with same | same | clear
        · exact Or.inl same
        · exact Or.inr (Or.inl same.symm)
        · exact Or.inr (Or.inr clear)
    | count + 2 =>
        simp only [List.take_succ_cons, List.take_nil, replay, List.foldl_cons, List.foldl_nil]
        exact Or.inr (Or.inl finished)

def RootBuilt (entry : VtdRootEntry) : Prop :=
  entry = .disabled ∨ ∃ table, VtdRootEntry.fromContextTable table = .ok entry

def ContextBuilt (target : BindingTarget VtdDomain) (entry : VtdContextEntry) : Prop :=
  (target = .abort ∧ entry = .disabled) ∨
    ∃ binding ecap, binding.target = target ∧ VtdContextEntry.fromBinding binding ecap = .ok entry

def RemapBuilt (source : Option (PciDevice × VtdInterruptRemapTarget))
    (entry : VtdInterruptRemapEntry) : Prop :=
  match source with
  | none => entry = .disabled
  | some (device, target) => entry = .fromTarget device target

/-- When replacing a context entry shows no torn one. -/
def ContextReplaceable : BindingTarget VtdDomain → BindingTarget VtdDomain → Prop
  | _, .abort => True
  | .domain _, .passThrough => False
  | _, .passThrough => True
  | .domain old, .domain new =>
      (old.id.id = new.id.id ∧ old.width = new.width) ∨
        old.root &&& TABLE_ADDR_MASK = new.root &&& TABLE_ADDR_MASK
  | _, .domain _ => False

def RemapReplaceable : Option (PciDevice × VtdInterruptRemapTarget) →
    Option (PciDevice × VtdInterruptRemapTarget) → Prop
  | _, none => True
  | none, some _ => False
  | some (oldSource, oldTarget), some (newSource, newTarget) =>
      oldSource.bdf = newSource.bdf ∨ oldTarget = newTarget

theorem RootBuilt.high {entry : VtdRootEntry} (built : RootBuilt entry) : entry.high = 0 := by
  rcases built with rfl | ⟨table, built⟩
  · rfl
  · rw [VtdRootEntry.fromContextTable_eq] at built
    cases built
    rfl

section Context

def targetWords : BindingTarget VtdDomain → UInt64 × UInt64
  | .abort => (0, 0)
  | .passThrough => (9, 0)
  | .domain domain => (domain.root &&& TABLE_ADDR_MASK ||| 1,
      vtdAgawBits domain.width ||| domain.id.id.toUInt64 <<< CONTEXT_DOMAIN_ID_SHIFT)

theorem ContextBuilt.words {target : BindingTarget VtdDomain} {entry : VtdContextEntry}
    (built : ContextBuilt target entry) : (entry.low, entry.high) = targetWords target := by
  rcases built with ⟨rfl, rfl⟩ | ⟨binding, ecap, rfl, built⟩
  · rfl
  · rw [VtdContextEntry.fromBinding] at built
    split at built
    · contradiction
    · cases target : binding.target with
      | abort =>
          simp only [target] at built
          cases built
          rfl
      | passThrough =>
          simp only [target] at built
          split at built
          · cases built
            decide
          · contradiction
      | domain domain =>
          simp only [target, VtdContextEntry.fromDomain] at built
          split at built
          · contradiction
          · cases built
            have flags : CONTEXT_PRESENT |||
                CONTEXT_TRANSLATION_TYPE_MULTI_LEVEL <<< CONTEXT_TRANSLATION_TYPE_SHIFT = 1 := by
              decide
            rw [UInt64.or_assoc, flags, targetWords]

theorem domainWords_low (domain : VtdDomain) :
    (targetWords (.domain domain)).1.toNat = (domain.root &&& TABLE_ADDR_MASK).toNat + 1 ∧
      (domain.root &&& TABLE_ADDR_MASK).toNat % 2 ^ 12 = 0 := by
  have placed : (domain.root &&& TABLE_ADDR_MASK ||| 1).toNat =
      domain.root.toNat / 2 ^ 12 % 2 ^ 40 * 2 ^ 12 + (1 : UInt64).toNat :=
    toNat_masked_or_flags domain.root 12 40 (by decide) (by decide)
  have masked : (domain.root &&& TABLE_ADDR_MASK).toNat =
      domain.root.toNat / 2 ^ 12 % 2 ^ 40 * 2 ^ 12 :=
    toNat_and_fieldMask domain.root 12 40 (by decide)
  have one : (1 : UInt64).toNat = 1 := by decide
  rw [one, ← masked] at placed
  refine ⟨placed, ?_⟩
  rw [masked]
  omega

theorem domainWords_low_ne {domain : VtdDomain} {word : UInt64} (other : word.toNat % 2 ^ 12 ≠ 1) :
    (targetWords (.domain domain)).1 ≠ word := by
  rintro rfl
  obtain ⟨placed, aligned⟩ := domainWords_low domain
  omega

theorem domainWords_present (domain : VtdDomain) : (targetWords (.domain domain)).1 &&& 1 ≠ 0 := by
  obtain ⟨placed, aligned⟩ := domainWords_low domain
  rw [and_one_ne_zero_iff]
  omega

theorem domainWords_high (domain : VtdDomain) (low : UInt64) :
    (VtdContextEntry.domainId ⟨low, (targetWords (.domain domain)).2⟩).toNat =
        domain.id.id.toNat ∧
      VtdContextEntry.addressWidthBits ⟨low, (targetWords (.domain domain)).2⟩ =
        domain.width.bits :=
  VtdContextEntry.routing_high_fields domain.width
    (vtdIoDomain_id_lt domain.id) low

theorem domainWords_high_ne_zero (domain : VtdDomain) : (targetWords (.domain domain)).2 ≠ 0 := by
  intro zero
  have width := (domainWords_high domain 0).2
  rw [zero] at width
  cases shape : domain.width <;> rw [shape] at width <;> exact absurd width (by decide)

theorem domainWords_low_eq_iff {first second : VtdDomain} :
    (targetWords (.domain first)).1 = (targetWords (.domain second)).1 ↔
      first.root &&& TABLE_ADDR_MASK = second.root &&& TABLE_ADDR_MASK := by
  constructor
  · intro same
    have placed := congrArg UInt64.toNat same
    rw [(domainWords_low first).1, (domainWords_low second).1] at placed
    apply UInt64.toNat_inj.mp
    omega
  · intro same
    rw [targetWords, targetWords, same]

theorem domainWords_high_eq_iff {first second : VtdDomain} :
    (targetWords (.domain first)).2 = (targetWords (.domain second)).2 ↔
      first.id.id = second.id.id ∧ first.width = second.width := by
  constructor
  · intro same
    obtain ⟨firstId, firstWidth⟩ := domainWords_high first 0
    obtain ⟨secondId, secondWidth⟩ := domainWords_high second 0
    rw [same] at firstId firstWidth
    constructor
    · exact UInt32.toNat_inj.mp (firstId.symm.trans secondId)
    · have bits := firstWidth.symm.trans secondWidth
      cases left : first.width <;> cases right : second.width <;>
        first | rfl | (rw [left, right] at bits; exact absurd bits (by decide))
  · rintro ⟨identifier, width⟩
    rw [targetWords, targetWords, identifier, width]

theorem contextReplaceable_iff (old new : BindingTarget VtdDomain) :
    ((targetWords new).1 = (targetWords old).1 ∨ (targetWords new).2 = (targetWords old).2 ∨
      (targetWords new).1 &&& 1 = 0) ↔ ContextReplaceable old new := by
  cases new with
  | abort => simp [ContextReplaceable, targetWords]
  | passThrough =>
      cases old with
      | abort => simp [ContextReplaceable, targetWords]
      | passThrough => simp [ContextReplaceable]
      | domain domain =>
          have low : (targetWords (.domain domain)).1 ≠ (targetWords .passThrough).1 :=
            domainWords_low_ne (by decide)
          have high := domainWords_high_ne_zero domain
          have present : (targetWords .passThrough).1 &&& 1 ≠ 0 := by decide
          simp only [ContextReplaceable, iff_false, not_or]
          exact ⟨low.symm, high.symm, present⟩
  | domain domain =>
      have present := domainWords_present domain
      cases old with
      | abort =>
          simp only [ContextReplaceable, iff_false, not_or]
          exact ⟨domainWords_low_ne (by decide), domainWords_high_ne_zero domain, present⟩
      | passThrough =>
          simp only [ContextReplaceable, iff_false, not_or]
          exact ⟨domainWords_low_ne (by decide), domainWords_high_ne_zero domain, present⟩
      | domain old =>
          rw [domainWords_low_eq_iff, domainWords_high_eq_iff]
          simp only [ContextReplaceable, present, or_false]
          constructor
          · rintro (root | ⟨identifier, width⟩)
            · exact Or.inr root.symm
            · exact Or.inl ⟨identifier.symm, width.symm⟩
          · rintro (⟨identifier, width⟩ | root)
            · exact Or.inr ⟨identifier.symm, width.symm⟩
            · exact Or.inl root.symm

end Context

section Remap

def remapFlags (logical hint level : Bool) : UInt64 :=
  IRTE_PRESENT ||| (if logical then IRTE_DESTINATION_MODE_LOGICAL else 0) |||
    (if hint then IRTE_REDIRECTION_HINT else 0) ||| (if level then IRTE_TRIGGER_MODE_LEVEL else 0)

theorem remapFlags_toNat (logical hint level : Bool) :
    (remapFlags logical hint level).toNat =
      1 + logical.toNat * 4 + hint.toNat * 8 + level.toNat * 16 := by
  cases logical <;> cases hint <;> cases level <;> decide

theorem bit_injective {first second : Bool} (same : first.toNat = second.toNat) :
    first = second := by
  cases first <;> cases second <;> simp at same ⊢

theorem code_lt (mode : X86MsiDeliveryMode) : mode.code.toNat < 8 := by
  cases mode <;> decide

theorem code_injective {first second : X86MsiDeliveryMode}
    (same : first.code.toNat = second.code.toNat) : first = second := by
  cases first <;> cases second <;> first | rfl | exact absurd same (by decide)

theorem or_fields_last (present mode vector destination logical hint level : UInt64) :
    present ||| mode ||| vector ||| destination ||| logical ||| hint ||| level =
      present ||| logical ||| hint ||| level ||| mode ||| vector ||| destination := by
  ac_rfl

theorem or_if (choice : Bool) (word flag : UInt64) :
    (if choice then word ||| flag else word) = word ||| (if choice then flag else 0) := by
  cases choice with
  | true => rfl
  | false => exact (UInt64.or_zero).symm

theorem fromTarget_low (source : PciDevice) (target : VtdInterruptRemapTarget) :
    (VtdInterruptRemapEntry.fromTarget source target).low =
      remapFlags target.destinationModeLogical target.redirectionHint
          (decide (target.triggerMode = .level)) |||
        target.deliveryMode.code <<< IRTE_DELIVERY_MODE_SHIFT |||
        target.vector.vector.toUInt64 <<< IRTE_VECTOR_SHIFT |||
        target.destination.toUInt64 <<< IRTE_DESTINATION_SHIFT := by
  rw [remapFlags, ← or_fields_last, ← or_if, ← or_if, ← or_if, VtdInterruptRemapEntry.fromTarget]
  simp only [decide_eq_true_eq]

theorem fromTarget_low_toNat (source : PciDevice) (target : VtdInterruptRemapTarget) :
    (VtdInterruptRemapEntry.fromTarget source target).low.toNat =
      (remapFlags target.destinationModeLogical target.redirectionHint
          (decide (target.triggerMode = .level))).toNat +
        target.deliveryMode.code.toNat * 2 ^ 5 + target.vector.vector.toNat * 2 ^ 16 +
        target.destination.toNat * 2 ^ 32 := by
  have flags := remapFlags_toNat target.destinationModeLogical target.redirectionHint
    (decide (target.triggerMode = .level))
  have logical := Bool.toNat_le target.destinationModeLogical
  have hint := Bool.toNat_le target.redirectionHint
  have level := Bool.toNat_le (decide (target.triggerMode = .level))
  have code := code_lt target.deliveryMode
  have vector := target.vector.vector.toNat_lt
  have destination := target.destination.toNat_lt
  have delivered : (remapFlags target.destinationModeLogical target.redirectionHint
        (decide (target.triggerMode = .level)) |||
      target.deliveryMode.code <<< IRTE_DELIVERY_MODE_SHIFT).toNat =
      (remapFlags target.destinationModeLogical target.redirectionHint
        (decide (target.triggerMode = .level))).toNat + target.deliveryMode.code.toNat * 2 ^ 5 := by
    have shift : IRTE_DELIVERY_MODE_SHIFT.toNat = 5 := by decide
    rw [toNat_or_shifted, shift]
    · decide
    · rw [shift, limit]
      omega
    · rw [shift]
      omega
  have vectored : (remapFlags target.destinationModeLogical target.redirectionHint
        (decide (target.triggerMode = .level)) |||
      target.deliveryMode.code <<< IRTE_DELIVERY_MODE_SHIFT |||
      target.vector.vector.toUInt64 <<< IRTE_VECTOR_SHIFT).toNat =
      (remapFlags target.destinationModeLogical target.redirectionHint
        (decide (target.triggerMode = .level))).toNat + target.deliveryMode.code.toNat * 2 ^ 5 +
        target.vector.vector.toNat * 2 ^ 16 := by
    have shift : IRTE_VECTOR_SHIFT.toNat = 16 := by decide
    rw [toNat_or_shifted, shift, UInt8.toNat_toUInt64, delivered]
    · decide
    · rw [shift, UInt8.toNat_toUInt64, limit]
      omega
    · rw [shift, delivered]
      omega
  have shift : IRTE_DESTINATION_SHIFT.toNat = 32 := by decide
  rw [fromTarget_low, toNat_or_shifted, shift, UInt32.toNat_toUInt64, vectored]
  · decide
  · rw [shift, UInt32.toNat_toUInt64, limit]
    omega
  · rw [shift, vectored]
    omega

theorem fromTarget_low_injective {firstSource secondSource : PciDevice}
    {first second : VtdInterruptRemapTarget}
    (same : (VtdInterruptRemapEntry.fromTarget firstSource first).low =
      (VtdInterruptRemapEntry.fromTarget secondSource second).low) : first = second := by
  have words := congrArg UInt64.toNat same
  rw [fromTarget_low_toNat, fromTarget_low_toNat, remapFlags_toNat, remapFlags_toNat] at words
  have bits := fun choice : Bool => Bool.toNat_le choice
  have firstLogical := bits first.destinationModeLogical
  have secondLogical := bits second.destinationModeLogical
  have firstHint := bits first.redirectionHint
  have secondHint := bits second.redirectionHint
  have firstLevel := bits (decide (first.triggerMode = .level))
  have secondLevel := bits (decide (second.triggerMode = .level))
  have firstCode := code_lt first.deliveryMode
  have secondCode := code_lt second.deliveryMode
  have firstVector := first.vector.vector.toNat_lt
  have secondVector := second.vector.vector.toNat_lt
  have destination : first.destination = second.destination := UInt32.toNat_inj.mp (by omega)
  have vector : first.vector.vector = second.vector.vector := UInt8.toNat_inj.mp (by omega)
  have mode : first.deliveryMode = second.deliveryMode := code_injective (by omega)
  have logical : first.destinationModeLogical = second.destinationModeLogical :=
    bit_injective (by omega)
  have hint : first.redirectionHint = second.redirectionHint := bit_injective (by omega)
  have level : decide (first.triggerMode = .level) = decide (second.triggerMode = .level) :=
    bit_injective (by omega)
  have trigger : first.triggerMode = second.triggerMode := by
    cases left : first.triggerMode <;> cases right : second.triggerMode <;>
      simp [left, right] at level ⊢
  obtain ⟨_, ⟨_, _⟩, _, _, _, _⟩ := first
  obtain ⟨_, ⟨_, _⟩, _, _, _, _⟩ := second
  subst destination vector mode trigger logical hint
  rfl

theorem sourceValidationHigh_toNat (sourceId : UInt16) :
    (sourceValidationHigh sourceId).toNat = sourceId.toNat + 2 ^ 18 := by
  have bounded := sourceId.toNat_lt
  have low : sourceId.toUInt64 <<< IRTE_SOURCE_ID_SHIFT |||
      IRTE_SOURCE_QUALIFIER_ALL_BITS <<< IRTE_SOURCE_ID_QUALIFIER_SHIFT = sourceId.toUInt64 := by
    simp [IRTE_SOURCE_ID_SHIFT, IRTE_SOURCE_QUALIFIER_ALL_BITS, IRTE_SOURCE_ID_QUALIFIER_SHIFT]
  have shift : IRTE_SOURCE_VALIDATION_TYPE_SHIFT.toNat = 18 := by decide
  have verify : IRTE_SOURCE_VALIDATION_VERIFY_SOURCE_ID.toNat = 1 := by decide
  rw [sourceValidationHigh, low, toNat_or_shifted, shift, verify, UInt16.toNat_toUInt64,
    Nat.one_mul]
  · decide
  · decide
  · rw [shift, UInt16.toNat_toUInt64]
    omega

theorem fromTarget_high_eq_iff {firstSource secondSource : PciDevice}
    {first second : VtdInterruptRemapTarget} :
    (VtdInterruptRemapEntry.fromTarget firstSource first).high =
        (VtdInterruptRemapEntry.fromTarget secondSource second).high ↔
      firstSource.bdf = secondSource.bdf := by
  have highs : (VtdInterruptRemapEntry.fromTarget firstSource first).high =
        (VtdInterruptRemapEntry.fromTarget secondSource second).high ↔
      sourceValidationHigh firstSource.bdf.raw = sourceValidationHigh secondSource.bdf.raw := Iff.rfl
  rw [highs, ← UInt64.toNat_inj, sourceValidationHigh_toNat, sourceValidationHigh_toNat,
    Nat.add_right_cancel_iff, UInt16.toNat_inj]
  constructor
  · exact fun same => congrArg Bdf.mk same
  · exact fun same => congrArg Bdf.raw same

theorem fromTarget_high_ne_zero (source : PciDevice) (target : VtdInterruptRemapTarget) :
    (VtdInterruptRemapEntry.fromTarget source target).high ≠ 0 := by
  intro zero
  have word := congrArg UInt64.toNat zero
  have high : (VtdInterruptRemapEntry.fromTarget source target).high.toNat = _ :=
    sourceValidationHigh_toNat source.bdf.raw
  rw [high] at word
  simp at word

theorem fromTarget_present (source : PciDevice) (target : VtdInterruptRemapTarget) :
    (VtdInterruptRemapEntry.fromTarget source target).low &&& 1 ≠ 0 := by
  rw [and_one_ne_zero_iff, fromTarget_low_toNat, remapFlags_toNat]
  omega

theorem remapReplaceable_iff {old new : Option (PciDevice × VtdInterruptRemapTarget)}
    {oldEntry newEntry : VtdInterruptRemapEntry} (oldBuilt : RemapBuilt old oldEntry)
    (newBuilt : RemapBuilt new newEntry) :
    (newEntry.low = oldEntry.low ∨ newEntry.high = oldEntry.high ∨ newEntry.low &&& 1 = 0) ↔
      RemapReplaceable old new := by
  cases new with
  | none =>
      obtain rfl := newBuilt
      simp [RemapReplaceable, VtdInterruptRemapEntry.disabled]
  | some fresh =>
      obtain ⟨newSource, newTarget⟩ := fresh
      obtain rfl := newBuilt
      have present := fromTarget_present newSource newTarget
      cases old with
      | none =>
          obtain rfl := oldBuilt
          simp only [RemapReplaceable, iff_false, not_or]
          refine ⟨?_, fromTarget_high_ne_zero newSource newTarget, present⟩
          intro low
          rw [low] at present
          exact present (by decide)
      | some replaced =>
          obtain ⟨oldSource, oldTarget⟩ := replaced
          obtain rfl := oldBuilt
          rw [fromTarget_high_eq_iff]
          simp only [RemapReplaceable, present, or_false]
          constructor
          · rintro (low | source)
            · exact Or.inr (fromTarget_low_injective low).symm
            · exact Or.inl source.symm
          · rintro (source | rfl)
            · exact Or.inr source.symm
            · exact Or.inl ((fromTarget_low newSource oldTarget).trans
                (fromTarget_low oldSource oldTarget).symm)

end Remap

/-- Replacing a root entry never shows a torn one; replacing a context or an interrupt-remapping
entry shows none exactly when the two entries agree in a half or the new one is not present. -/
theorem entries_never_torn_iff (mmu : Translation) (world : QueueWorld QN Registers) :
    (∀ (table : VtdRootTableBacking) (bus : UInt8) (old new : VtdRootEntry),
      table.backing.Mapped mmu → RootBuilt old → RootBuilt new →
      entryWords world.memory (table.busPaddr bus) = (old.low, old.high) →
      NeverTorn mmu (writeRootEntry mmu table bus new) world (table.busPaddr bus)
        (new.low, new.high)) ∧
    (∀ (table : VtdContextTableBacking) (client : PciDevice)
        (oldTarget newTarget : BindingTarget VtdDomain) (old new : VtdContextEntry),
      table.backing.Mapped mmu → ContextBuilt oldTarget old → ContextBuilt newTarget new →
      entryWords world.memory (table.clientPaddr client) = (old.low, old.high) →
      (NeverTorn mmu (writeContextEntry mmu table client new) world (table.clientPaddr client)
        (new.low, new.high) ↔ ContextReplaceable oldTarget newTarget)) ∧
    (∀ (table : VtdInterruptRemapTableBacking) (entry : VtdInterruptEntry)
        (oldSource newSource : Option (PciDevice × VtdInterruptRemapTarget))
        (old new : VtdInterruptRemapEntry),
      table.backing.Mapped mmu → entry.index.toNat < table.backing.entryCount →
      RemapBuilt oldSource old → RemapBuilt newSource new →
      entryWords world.memory (table.remapPaddr entry) = (old.low, old.high) →
      (NeverTorn mmu (writeInterruptRemapEntry mmu table entry new) world (table.remapPaddr entry)
        (new.low, new.high) ↔ RemapReplaceable oldSource newSource)) := by
  refine ⟨?_, ?_, ?_⟩
  · intro table bus old new mapped oldBuilt newBuilt before
    apply (write128_neverTorn_iff (bus_contiguous mapped bus) _ before).mpr
    · rw [oldBuilt.high, newBuilt.high]
      exact Or.inr (Or.inl rfl)
    · rw [writeRootEntry_apply, write128_apply]
  · intro table client oldTarget newTarget old new mapped oldBuilt newBuilt before
    rw [write128_neverTorn_iff (client_contiguous mapped client) _ before,
      ← contextReplaceable_iff, ← oldBuilt.words, ← newBuilt.words]
    rw [writeContextEntry_apply, write128_apply]
  · intro table entry oldSource newSource old new mapped below oldBuilt newBuilt before
    rw [write128_neverTorn_iff (remap_contiguous mapped below) _ before,
      remapReplaceable_iff oldBuilt newBuilt]
    rw [writeInterruptRemapEntry_of_lt mmu below, write128_apply]

def tableWorld (client : PciDevice) (entry : VtdContextEntry) : QueueWorld 2 UInt64 :=
  ⟨.new, store128 id (fun _ => 0) (VtdContextTableBacking.sample.clientVaddr client) entry.low
    entry.high, 0, []⟩

theorem tableWorld_entry (client : PciDevice) (entry : VtdContextEntry) :
    entryWords (tableWorld client entry).memory (VtdContextTableBacking.sample.clientPaddr client) =
      (entry.low, entry.high) :=
  entryWords_store128 (client_contiguous (fun _ _ => rfl) client) _ _ _

def firstDomain : VtdDomain := ⟨⟨1⟩, 0x5000, .bits48, .stage2⟩

def secondDomain : VtdDomain := ⟨⟨2⟩, 0x6000, .bits48, .stage2⟩

def sampleTarget : VtdInterruptRemapTarget := ⟨0, ⟨48, by decide⟩, .fixed, .edge, false, false⟩

def blankWorld : QueueWorld 2 UInt64 := ⟨.new, fun _ => 0, 0, []⟩

theorem blank_entries_never_torn_iff :
    NeverTorn id (writeRootEntry id .sample 0 ⟨0x2001, 0⟩) blankWorld
        (VtdRootTableBacking.sample.busPaddr 0) (0x2001, 0) ∧
      (NeverTorn id (writeContextEntry id .sample ⟨0⟩ ⟨0x6001, 0x202⟩) blankWorld
          (VtdContextTableBacking.sample.clientPaddr ⟨0⟩) (0x6001, 0x202) ↔
        ContextReplaceable .abort (.domain secondDomain)) ∧
      (NeverTorn id (writeInterruptRemapEntry id .sample ⟨0⟩ (.fromTarget ⟨0⟩ sampleTarget))
          blankWorld (VtdInterruptRemapTableBacking.sample.remapPaddr ⟨0⟩)
          ((VtdInterruptRemapEntry.fromTarget ⟨0⟩ sampleTarget).low,
            (VtdInterruptRemapEntry.fromTarget ⟨0⟩ sampleTarget).high) ↔
        RemapReplaceable none (some (⟨0⟩, sampleTarget))) := by
  have blank : ∀ paddr, entryWords blankWorld.memory paddr = (0, 0) :=
    fun _ => entryWords_zero fun _ _ => rfl
  obtain ⟨root, context, remap⟩ := entries_never_torn_iff id blankWorld
  refine ⟨?_, ?_, ?_⟩
  · exact root .sample 0 .disabled ⟨0x2001, 0⟩ (fun _ _ => rfl) (Or.inl rfl)
      (Or.inr ⟨.sample, rfl⟩) (blank _)
  · exact context .sample ⟨0⟩ .abort (.domain secondDomain) .disabled ⟨0x6001, 0x202⟩
      (fun _ _ => rfl) (Or.inl ⟨rfl, rfl⟩)
      (Or.inr ⟨⟨⟨0⟩, .default, .domain secondDomain⟩, ⟨0⟩, rfl, rfl⟩) (blank _)
  · exact remap .sample ⟨0⟩ none (some (⟨0⟩, sampleTarget)) .disabled _ (fun _ _ => rfl)
      (by decide) rfl rfl (blank _)

/-- Rebinding a requester from one domain to another shows the new root with the old identifier. -/
theorem rebound_context_torn : ∃ old new : VtdContextEntry,
    VtdContextEntry.fromBinding ⟨⟨0⟩, .default, .domain firstDomain⟩ ⟨0⟩ = .ok old ∧
    VtdContextEntry.fromBinding ⟨⟨0⟩, .default, .domain secondDomain⟩ ⟨0⟩ = .ok new ∧
    entryWords (tableWorld ⟨0⟩ old).memory (VtdContextTableBacking.sample.clientPaddr ⟨0⟩) =
      (old.low, old.high) ∧
    ¬NeverTorn id (writeContextEntry id .sample ⟨0⟩ new) (tableWorld ⟨0⟩ old)
      (VtdContextTableBacking.sample.clientPaddr ⟨0⟩) (new.low, new.high) := by
  refine ⟨⟨0x5001, 0x102⟩, ⟨0x6001, 0x202⟩, rfl, rfl, tableWorld_entry _ _, ?_⟩
  rw [write128_neverTorn_iff (client_contiguous (fun _ _ => rfl) _) _ (tableWorld_entry _ _)]
  · decide
  · rw [writeContextEntry_apply, write128_apply]

end Iommu
