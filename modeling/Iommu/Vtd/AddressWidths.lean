import Iommu.Vtd.ContextUpdate
import Iommu.Vtd.EntryFields
import Iommu.Vtd.PromptHardware

/-!
Address widths of context entries: the width of a domain goes into its entry as it is, and the
entry of a client passed through is given the narrowest one.
-/

namespace Iommu

open MachineWord Memory CommandQueue

/-- A binding leaves no present entry of a width the capability lacks, and a domain of such a width is
refused before anything is written. -/
def BindingWidthsKept (info : VtdInfo) (activeDomain : VtdDomain) (binding : Binding PciDevice VtdDomain) :
    Prop :=
  ∀ (QN : Nat) (Registers : Type) (mmu : Translation) (unit : VtdUnit Registers)
    (world : QueueWorld QN Registers), unit.info = info → world.RingMapped mmu →
    (∀ table, unit.contextTables binding.client.bus = some table → table.backing.Mapped mmu ∧
      ∀ offset < 16, ¬world.OwnsRing (table.clientPaddr binding.client + offset)) →
    let ran := unit.bindContext mmu activeDomain binding world
    (ran.1 = .ok () → ∀ table, unit.contextTables binding.client.bus = some table →
      let words := entryWords ran.2.memory (table.clientPaddr binding.client)
      let entry : VtdContextEntry := ⟨words.1, words.2⟩
      entry.present = true → ∃ width : VtdSecondLevelAddressWidth,
        entry.addressWidthBits = width.bits ∧ info.cap.supportsAddressWidth width = true) ∧
    ∀ domain, binding.target = .domain domain → info.cap.supportsAddressWidth domain.width = false →
      ∃ error, ran = (.error error, world)

def WidthSupported (cap : VtdCapability) : BindingTarget VtdDomain → Prop
  | .abort => True
  | .passThrough => False
  | .domain domain => cap.supportsAddressWidth domain.width = true

structure BindingAccepted (info : VtdInfo) (activeDomain : VtdDomain)
    (binding : Binding PciDevice VtdDomain) : Prop where
  selector : binding.selector = .default
  segment : ∀ segment, info.segment = some segment → segment = binding.client.segment
  own : VtdUnit.foreignDomain activeDomain binding.target = false
  passThrough : binding.target = .passThrough → info.ecap.passThrough = true
  aligned : ∀ domain, binding.target = .domain domain → domain.root.toNat % PageSize.size4K.bytes = 0

namespace VtdContextEntry

variable {binding : Binding PciDevice VtdDomain} {ecap : VtdExtendedCapability}

theorem exists_fromBinding_iff : (∃ entry, fromBinding binding ecap = .ok entry) ↔
    binding.selector = .default ∧ (binding.target = .passThrough → ecap.passThrough = true) ∧
      ∀ domain, binding.target = .domain domain → domain.root.toNat % PageSize.size4K.bytes = 0 := by
  rw [fromBinding]
  by_cases selector : binding.selector = .default
  · rw [if_neg (not_not_intro selector)]
    cases binding.target with
    | abort => simp [selector]
    | passThrough => cases ecap.passThrough <;> simp [selector]
    | domain domain =>
        simp only [fromDomain]
        by_cases aligned : domain.root.toNat % PageSize.size4K.bytes = 0
        · simp [selector, aligned]
        · simp [aligned]
  · rw [if_pos selector]
    simp [selector]

theorem width_of_fromBinding {cap : VtdCapability} {entry : VtdContextEntry}
    (built : fromBinding binding ecap = .ok entry) (supported : WidthSupported cap binding.target)
    (present : entry.present = true) :
    ∃ width : VtdSecondLevelAddressWidth,
      entry.addressWidthBits = width.bits ∧ cap.supportsAddressWidth width = true := by
  rw [fromBinding] at built
  split at built
  · cases built
  · cases target : binding.target with
    | abort =>
        simp only [target] at built
        cases built
        exact absurd present (by decide)
    | passThrough =>
        rw [target] at supported
        exact absurd supported id
    | domain domain =>
        simp only [target, fromDomain] at built
        rw [target] at supported
        split at built
        · cases built
        · cases built
          exact ⟨domain.width,
            (routing_high_fields domain.width (vtdIoDomain_id_lt domain.id) _).2, supported⟩

theorem passThrough_width (width : VtdSecondLevelAddressWidth) :
    passThrough.present = true ∧ passThrough.addressWidthBits ≠ width.bits := by
  cases width <;> decide

end VtdContextEntry

namespace VtdUnit

variable {info : VtdInfo} {activeDomain : VtdDomain} {binding : Binding PciDevice VtdDomain}

theorem prepareBinding_ok_iff {Registers : Type} {unit : VtdUnit Registers}
    {table : VtdContextTableBacking} (found : unit.contextTables binding.client.bus = some table) :
    (∃ entry, unit.prepareBinding activeDomain binding = .ok (table, entry)) ↔
      BindingAccepted unit.info activeDomain binding := by
  simp only [prepareBinding_eq_ok, validateClient_eq_ok]
  constructor
  · rintro ⟨entry, selector, segment, own, _, built⟩
    obtain ⟨_, passThrough, aligned⟩ := VtdContextEntry.exists_fromBinding_iff.mp ⟨entry, built⟩
    exact ⟨selector, segment, own, passThrough, aligned⟩
  · rintro ⟨selector, segment, own, passThrough, aligned⟩
    obtain ⟨entry, built⟩ :=
      VtdContextEntry.exists_fromBinding_iff.mpr ⟨selector, passThrough, aligned⟩
    exact ⟨entry, selector, segment, own, found, built⟩

theorem bindingWidthsKept_of_supported
    (supported : BindingAccepted info activeDomain binding → WidthSupported info.cap binding.target) :
    BindingWidthsKept info activeDomain binding := by
  rintro QN Registers mmu unit world rfl mapped tables ran
  cases prepared : unit.prepareBinding activeDomain binding with
  | error error =>
      have stopped : ran = (.error error, world) := by
        simp only [ran, bindContext_eq, prepared]
        rfl
      rw [stopped]
      exact ⟨fun returned => absurd returned (by simp), fun _ _ _ => ⟨error, rfl⟩⟩
  | ok slot =>
      obtain ⟨table, entry⟩ := slot
      have wrote : ran = unit.replaceContext mmu activeDomain binding.client table entry world := by
        simp only [ran, bindContext_eq, prepared]
        rfl
      obtain ⟨_, _, _, found, built⟩ := prepareBinding_eq_ok.mp prepared
      have accepted := (prepareBinding_ok_iff found).mp ⟨entry, prepared⟩
      obtain ⟨tableMapped, apart⟩ := tables table found
      rw [wrote]
      constructor
      · intro _ other same
        obtain rfl := Option.some.inj (found.symm.trans same)
        rw [replaceContext_words mapped tableMapped apart]
        exact VtdContextEntry.width_of_fromBinding built (supported accepted)
      · intro domain target unsupported
        have widths := supported accepted
        rw [target] at widths
        exact absurd (widths.symm.trans unsupported) (by decide)

def widthUnit (info : VtdInfo) : VtdUnit UInt64 :=
  ⟨info, .prompt, .sample, fun _ => some .sample, none⟩

theorem sample_apart (client : PciDevice) : ∀ offset < 16,
    ¬sampleWorld.OwnsRing (VtdContextTableBacking.sample.clientPaddr client + offset) := by
  rintro offset below ⟨backing, active, owned⟩
  obtain rfl := Option.some.inj active
  have start : 0x2000 ≤ VtdContextTableBacking.sample.clientPaddr client := Nat.le_add_right _ _
  have ends : VtdContextTableBacking.sample.clientPaddr client + offset < 0 + 32 := owned.2
  omega

theorem sample_context_mapped : VtdContextTableBacking.sample.backing.Mapped id := fun _ _ => rfl

theorem widthUnit_tables (info : VtdInfo) (client : PciDevice) :
    ∀ table, (widthUnit info).contextTables client.bus = some table → table.backing.Mapped id ∧
      ∀ offset < 16, ¬sampleWorld.OwnsRing (table.clientPaddr client + offset) := by
  rintro table found
  obtain rfl := Option.some.inj found
  exact ⟨sample_context_mapped, sample_apart client⟩

theorem widthUnit_bind (accepted : BindingAccepted info activeDomain binding) :
    ∃ entry, VtdContextEntry.fromBinding binding info.ecap = .ok entry ∧
      let ran := (widthUnit info).bindContext id activeDomain binding sampleWorld
      ran.1 = .ok () ∧ entryWords ran.2.memory (VtdContextTableBacking.sample.clientPaddr binding.client) =
        (entry.low, entry.high) := by
  have found : (widthUnit info).contextTables binding.client.bus = some .sample := rfl
  obtain ⟨entry, prepared⟩ := (prepareBinding_ok_iff found).mpr accepted
  have wrote : (widthUnit info).bindContext id activeDomain binding sampleWorld =
      (widthUnit info).replaceContext id activeDomain binding.client .sample entry sampleWorld := by
    rw [bindContext_eq, prepared]
    rfl
  have prompt : (widthUnit info).registers = .prompt := rfl
  let written := sampleWorld.writeEntry id (VtdContextTableBacking.sample.clientVaddr binding.client)
    entry.low entry.high
  have clean : Clean descriptorRing 0 written := ⟨rfl, rfl, rfl, rfl, fun _ _ => rfl⟩
  obtain ⟨middle, first, next⟩ := submit_prompt prompt (.contextDevice binding.client) clean (by decide)
  obtain ⟨after, second, _⟩ := submit_prompt prompt
    (.iotlbDomain activeDomain.id info.cap) next (by decide)
  refine ⟨entry, (prepareBinding_eq_ok.mp prepared).2.2.2.2, ?_⟩
  rw [wrote]
  constructor
  · rw [replaceContext_apply, invalidateContextDevice, Effect.bind_of_ok first]
    exact congrArg Prod.fst second
  · exact replaceContext_words sampleWorld_mapped sample_context_mapped (sample_apart binding.client)

end VtdUnit

open VtdUnit

/-- The widths are kept exactly where every binding that is not refused for another reason has a
supported target: nothing compares a domain's width with the capability, and no width is ever chosen
for a client that is passed through. -/
theorem binding_widths_kept_iff (info : VtdInfo) (activeDomain : VtdDomain)
    (binding : Binding PciDevice VtdDomain) :
    BindingWidthsKept info activeDomain binding ↔
      (BindingAccepted info activeDomain binding → WidthSupported info.cap binding.target) := by
  refine ⟨fun kept accepted => ?_, bindingWidthsKept_of_supported⟩
  obtain ⟨entry, built, returned, words⟩ := widthUnit_bind accepted
  obtain ⟨left, refused⟩ :=
    kept 2 UInt64 id (widthUnit info) sampleWorld rfl sampleWorld_mapped (widthUnit_tables info _)
  cases target : binding.target with
  | abort => trivial
  | passThrough =>
      have passed : entry = .passThrough := by
        have enabled := accepted.passThrough target
        rw [VtdContextEntry.fromBinding, if_neg (not_not_intro accepted.selector), target] at built
        simp only [enabled] at built
        cases built
        rfl
      obtain ⟨width, encoded, _⟩ := left returned .sample rfl (by
        rw [words, passed]
        decide)
      rw [words, passed] at encoded
      exact absurd encoded (VtdContextEntry.passThrough_width width).2
  | domain domain =>
      by_contra unsupported
      obtain ⟨error, stopped⟩ := refused domain target (Bool.eq_false_iff.mpr unsupported)
      rw [stopped] at returned
      cases returned

section ThreeLevels

def threeLevelInfo : VtdInfo := ⟨some 0, ⟨0x200⟩, ⟨0⟩⟩

def fourLevelDomain : VtdDomain := ⟨⟨1⟩, 0x5000, .bits48, .stage2⟩

def fourLevelBinding : Binding PciDevice VtdDomain := ⟨⟨0x10⟩, .default, .domain fourLevelDomain⟩

theorem fourLevelBinding_accepted : BindingAccepted threeLevelInfo fourLevelDomain fourLevelBinding := by
  refine ⟨rfl, ?_, rfl, fun through => ?_, ?_⟩
  · rintro segment found
    obtain rfl := Option.some.inj found
    decide
  · cases through
  · rintro domain target
    obtain rfl := BindingTarget.domain.inj target
    decide

/-- It is handed a domain of four levels. -/
theorem four_levels_bound :
    ((widthUnit threeLevelInfo).bindContext id fourLevelDomain fourLevelBinding sampleWorld).1 = .ok () ∧
      threeLevelInfo.cap.supportsAddressWidth .bits39 = true ∧
      threeLevelInfo.cap.supportsAddressWidth .bits48 = false ∧
      ¬BindingWidthsKept threeLevelInfo fourLevelDomain fourLevelBinding := by
  obtain ⟨_, _, returned, _⟩ := widthUnit_bind fourLevelBinding_accepted
  refine ⟨returned, by decide, by decide, fun kept => ?_⟩
  obtain ⟨error, stopped⟩ := (kept 2 UInt64 id (widthUnit threeLevelInfo) sampleWorld rfl
    sampleWorld_mapped (widthUnit_tables _ _)).2 fourLevelDomain rfl (by decide)
  rw [stopped] at returned
  cases returned

end ThreeLevels

end Iommu
