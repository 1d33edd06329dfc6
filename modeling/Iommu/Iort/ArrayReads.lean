import Iommu.Iort.NodeReads

/-!
What the accessors of a node's arrays come to. Each refuses an array that does not lie in
the node, and otherwise gives as many elements as the node declares, from its own bytes.
-/

namespace Iommu

open MachineWord FirmwareTable

namespace IortNodeHeader

def HoldsArray (header : IortNodeHeader) (offset count size least : Nat) : Prop :=
  least ≤ offset ∧ offset + size * count ≤ header.length

instance (header : IortNodeHeader) (offset count size least : Nat) :
    Decidable (header.HoldsArray offset count size least) :=
  inferInstanceAs (Decidable (_ ∧ _))

end IortNodeHeader

namespace IortTable

section Items

variable (table : IortTable)

def idMappingItems (node : IortNode) : Parse IortError (List (Except IortError IortIdMapping)) :=
  arrayItems (idMappings node) IORT_ID_MAPPING_LENGTH table.readIdMapping

def itsIdentifierItems (group : IortItsGroup) :
    Parse IortError (List (Except IortError IortItsIdentifier)) :=
  arrayItems (itsIdentifiers group) 4 table.readItsIdentifier

def rmrDescriptorItems (memory : IortReservedMemory) :
    Parse IortError (List (Except IortError IortRmrDescriptor)) :=
  arrayItems (rmrDescriptors memory) RMR_DESCRIPTOR_LENGTH table.readRmrDescriptor

def smmuContextInterruptItems (smmu : IortSmmu) :
    Parse IortError (List (Except IortError IortSmmuInterrupt)) :=
  arrayItems (smmuContextInterrupts smmu) 8 table.readSmmuInterrupt

def smmuPmuInterruptItems (smmu : IortSmmu) :
    Parse IortError (List (Except IortError IortSmmuInterrupt)) :=
  arrayItems (smmuPmuInterrupts smmu) 8 table.readSmmuInterrupt

end Items

variable {table : IortTable} {header : IortNodeHeader}

section Elements

variable {place : Nat} (low : header.offset ≤ place) (fits : header.endOffset ≤ table.sdt.length)

include low fits

theorem readIdMapping_within (high : place + IORT_ID_MAPPING_LENGTH ≤ header.endOffset) :
    ReadsWithin header.offset header.endOffset table fun table => readIdMapping table place := by
  have size : IORT_ID_MAPPING_LENGTH = 20 := rfl
  apply ReadsWithin.bind (.readU32 (by omega) (by omega) fits)
  intro inputBase _
  apply ReadsWithin.bind (.readU32 (by omega) (by omega) fits)
  intro idCount _
  apply ReadsWithin.bind (.readU32 (by omega) (by omega) fits)
  intro outputBase _
  apply ReadsWithin.bind (.readU32 (by omega) (by omega) fits)
  intro outputReference _
  apply ReadsWithin.bind (.readU32 (by omega) (by omega) fits)
  intro flags _
  exact .pure _

theorem readItsIdentifier_within (high : place + 4 ≤ header.endOffset) :
    ReadsWithin header.offset header.endOffset table fun table =>
      readItsIdentifier table place := by
  apply ReadsWithin.bind (.readU32 (by omega) (by omega) fits)
  intro identifier _
  exact .pure _

theorem readRmrDescriptor_within (high : place + RMR_DESCRIPTOR_LENGTH ≤ header.endOffset) :
    ReadsWithin header.offset header.endOffset table fun table =>
      readRmrDescriptor table place := by
  have size : RMR_DESCRIPTOR_LENGTH = 20 := rfl
  apply ReadsWithin.bind (.readU64 (by omega) (by omega) fits)
  intro base _
  apply ReadsWithin.bind (.readU64 (by omega) (by omega) fits)
  intro length _
  apply ReadsWithin.bind (.constant (rangeFromStartSize_returns _ _ _ _ _ _))
  intro memory _
  apply ReadsWithin.bind (.readU32 (by omega) (by omega) fits)
  intro reserved _
  exact .pure _

theorem readSmmuInterrupt_within (high : place + 8 ≤ header.endOffset) :
    ReadsWithin header.offset header.endOffset table fun table =>
      readSmmuInterrupt table place := by
  apply ReadsWithin.bind (.readU32 (by omega) (by omega) fits)
  intro gsiv _
  apply ReadsWithin.bind (.readU32 (by omega) (by omega) fits)
  intro flags _
  exact .pure _

end Elements

/-- An accessor gives an iterator exactly when the array fits, and the iterator as many results as are
declared, from the bytes of the node. -/
structure ArrayWithin {Item : Type} (table : IortTable) (header : IortNodeHeader) (count : UInt32)
    (holds : Prop) (accessor : Parse IortError ArrayCursor)
    (items : IortTable → Parse IortError (List (Except IortError Item))) : Prop where
  accepts : holds → ∃ cursor, accessor = .ok cursor
  refuses : ¬holds → ∃ message, accessor = malformed message
  yields : holds → ∃ found, items table = .ok found ∧ found.length = count.toNat
  within : ReadsWithin header.offset header.endOffset table items

structure Inside (header : IortNodeHeader) (size : Nat) (cursor : ArrayCursor) : Prop where
  low : header.offset ≤ cursor.offset
  high : cursor.offset + size * cursor.remaining.toNat ≤ header.endOffset

section Arrays

variable {Item : Type} {size : Nat} {cursor : ArrayCursor} {count : UInt32} {holds : Prop}
  {accessor : Parse IortError ArrayCursor} {read : IortTable → Nat → Parse IortError Item}
  (fits : header.endOffset ≤ table.sdt.length)
  (reads : ∀ place, header.offset ≤ place → place + size ≤ header.endOffset →
    ReadsWithin header.offset header.endOffset table fun table => read table place)

include fits reads

theorem items_within (inside : Inside header size cursor) :
    (∃ found, cursor.items size (read table) = .ok found ∧
      found.length = cursor.remaining.toNat) ∧
    ReadsWithin header.offset header.endOffset table fun table => cursor.items size (read table) := by
  obtain ⟨low, high⟩ := inside
  have small : cursor.offset + size * cursor.remaining.toNat < limit :=
    Nat.lt_of_le_of_lt (Nat.le_trans high fits) table.length_lt_limit
  have each : ∀ place ∈ List.range' cursor.offset cursor.remaining.toNat size,
      ReadsWithin header.offset header.endOffset table fun table => read table place := by
    intro place member
    obtain ⟨after, before⟩ := ArrayCursor.place_inside member
    exact reads place (Nat.le_trans low after) (Nat.le_trans before high)
  have returns := fun place member => (each place member).returns
  obtain ⟨found, ran, outcomes⟩ := ArrayCursor.items_ok small returns
  have length := outcomes.length_eq
  rw [List.length_range'] at length
  refine ⟨⟨found, ran, length.symm⟩, ?_, ?_⟩
  · rw [ran]
    exact .ok _
  · intro other agree
    exact ArrayCursor.items_congr small returns fun place member =>
      (each place member).only other agree

theorem ArrayWithin.intro
    (accepts : holds → ∃ cursor, accessor = .ok cursor ∧ cursor.remaining = count ∧
      Inside header size cursor)
    (refuses : ¬holds → ∃ message, accessor = malformed message) :
    ArrayWithin table header count holds accessor fun table =>
      arrayItems accessor size (read table) := by
  constructor
  · intro held
    obtain ⟨cursor, opened, _⟩ := accepts held
    exact ⟨cursor, opened⟩
  · exact refuses
  · intro held
    obtain ⟨cursor, rfl, rfl, inside⟩ := accepts held
    exact (items_within fits reads inside).1
  · by_cases held : holds
    · obtain ⟨cursor, rfl, _, inside⟩ := accepts held
      exact (items_within fits reads inside).2
    · obtain ⟨message, rfl⟩ := refuses held
      exact .malformed message

end Arrays

section Accessors

variable (fits : header.endOffset ≤ table.sdt.length)

include fits

theorem arrayAt_eq (offset count : UInt32) {size : Nat} (small : size ≤ 2 ^ 8) (least : Nat)
    (overflow outside : String) :
    arrayAt header offset count size least overflow outside =
      if header.HoldsArray offset.toNat count.toNat size least then
        .ok ⟨header.offset + offset.toNat, count⟩
      else malformed outside := by
  have short := table.short
  have limited : limit = 2 ^ 64 := rfl
  have near := offset.toNat_lt
  have bytes := Nat.mul_le_mul (Nat.le_of_lt count.toNat_lt) small
  have turned := Nat.mul_comm size count.toNat
  rw [IortNodeHeader.endOffset] at fits
  rw [arrayAt, checkedOffset_of_lt (by omega), Parse.ok_bind, arrayBytes_eq count (by omega),
    Parse.ok_bind, checkedOffset_of_lt (by omega), Parse.ok_bind, Parse.sum_of_lt (by omega),
    Parse.ok_bind]
  by_cases held : header.HoldsArray offset.toNat count.toNat size least
  · rw [if_pos held]
    obtain ⟨behind, inside⟩ := held
    rw [if_neg (by omega)]
    rfl
  · rw [if_neg held]
    rw [IortNodeHeader.HoldsArray] at held
    rw [if_pos (by omega)]

theorem emptyArray_eq : emptyArray header = .ok ⟨header.endOffset, 0⟩ := by
  have small := Nat.lt_of_le_of_lt fits table.length_lt_limit
  rw [emptyArray, Parse.sum_of_lt small]
  rfl

theorem smmuInterrupts_eq (offset count : UInt32) :
    smmuInterrupts header offset count =
      if count = 0 then emptyArray header
      else
        arrayAt header offset count 8 SMMU_MIN_LENGTH "IORT SMMU interrupt array length overflows"
          "IORT SMMU interrupt array extends past node" := by
  have short := table.short
  have limited : limit = 2 ^ 64 := rfl
  have near := offset.toNat_lt
  have many := count.toNat_lt
  have ends : header.endOffset = header.offset + header.length := rfl
  rw [smmuInterrupts]
  congr 1
  rw [arrayAt_eq fits offset count (by decide), checkedOffset_of_lt (by omega), Parse.ok_bind,
    arrayBytes_eq count (by decide), Parse.ok_bind]
  by_cases behind : offset.toNat < SMMU_MIN_LENGTH
  · rw [if_pos behind, if_neg fun held => Nat.not_lt_of_le held.1 behind]
  · rw [if_neg behind, checkedOffset_of_lt (by omega), Parse.ok_bind, Parse.sum_of_lt (by omega),
      Parse.ok_bind]
    by_cases inside : offset.toNat + 8 * count.toNat ≤ header.length
    · rw [if_neg (by omega), if_pos ⟨Nat.le_of_not_lt behind, inside⟩]
      rfl
    · rw [if_pos (by omega), if_neg fun held => inside held.2]

theorem arrayAt_within {Item : Type} {read : IortTable → Nat → Parse IortError Item} {size : Nat}
    (reads : ∀ place, header.offset ≤ place → place + size ≤ header.endOffset →
      ReadsWithin header.offset header.endOffset table fun table => read table place)
    (offset count : UInt32) (small : size ≤ 2 ^ 8) (least : Nat) (overflow outside : String) :
    ArrayWithin table header count (header.HoldsArray offset.toNat count.toNat size least)
      (arrayAt header offset count size least overflow outside)
      fun table => arrayItems (arrayAt header offset count size least overflow outside) size
        (read table) := by
  apply ArrayWithin.intro fits reads
  · intro held
    refine ⟨_, (arrayAt_eq fits offset count small least overflow outside).trans (if_pos held), rfl,
      Nat.le_add_right _ _, ?_⟩
    have inside := held.2
    rw [IortNodeHeader.endOffset]
    dsimp only
    omega
  · intro outsideNode
    exact ⟨outside,
      (arrayAt_eq fits offset count small least overflow outside).trans (if_neg outsideNode)⟩

theorem orEmpty_within {Item : Type} {read : IortTable → Nat → Parse IortError Item} {size : Nat}
    (reads : ∀ place, header.offset ≤ place → place + size ≤ header.endOffset →
      ReadsWithin header.offset header.endOffset table fun table => read table place)
    (offset count : UInt32) (small : size ≤ 2 ^ 8) (least : Nat) (overflow outside : String) :
    ArrayWithin table header count
      (count = 0 ∨ header.HoldsArray offset.toNat count.toNat size least)
      (if count = 0 then emptyArray header
        else arrayAt header offset count size least overflow outside)
      fun table => arrayItems
        (if count = 0 then emptyArray header
          else arrayAt header offset count size least overflow outside) size (read table) := by
  by_cases none_declared : count = 0
  · simp only [if_pos none_declared]
    apply ArrayWithin.intro fits reads
    · intro _
      exact ⟨_, emptyArray_eq fits, none_declared.symm, Nat.le_add_right _ _, Nat.le_refl _⟩
    · intro nonempty
      exact absurd (Or.inl none_declared) nonempty
  · simp only [none_declared, if_false, false_or]
    exact arrayAt_within fits reads offset count small least overflow outside

theorem itsIdentifiers_within (itsCount : UInt32) :
    ArrayWithin table header itsCount
      (header.HoldsArray ITS_GROUP_MIN_LENGTH itsCount.toNat 4 ITS_GROUP_MIN_LENGTH)
      (itsIdentifiers ⟨itsCount, header⟩) fun table =>
        itsIdentifierItems table ⟨itsCount, header⟩ := by
  have short := table.short
  have limited : limit = 2 ^ 64 := rfl
  have many := itsCount.toNat_lt
  have least : ITS_GROUP_MIN_LENGTH = 20 := rfl
  have ends : header.endOffset = header.offset + header.length := rfl
  have opened : itsIdentifiers ⟨itsCount, header⟩ =
      if header.endOffset < header.offset + ITS_GROUP_MIN_LENGTH + itsCount.toNat * 4 then
        malformed "IORT ITS identifier array extends past node"
      else .ok ⟨header.offset + ITS_GROUP_MIN_LENGTH, itsCount⟩ := by
    rw [itsIdentifiers]
    dsimp only
    rw [Parse.sum_of_lt (by omega), Parse.ok_bind, arrayBytes_eq _ (by decide), Parse.ok_bind,
      checkedOffset_of_lt (by omega), Parse.ok_bind, Parse.sum_of_lt (by omega)]
    rfl
  apply ArrayWithin.intro fits fun place low high => readItsIdentifier_within low fits high
  · rintro ⟨_, inside⟩
    refine ⟨_, opened.trans (if_neg (by omega)), rfl, Nat.le_add_right _ _, ?_⟩
    dsimp only
    omega
  · intro outside
    rw [IortNodeHeader.HoldsArray] at outside
    exact ⟨_, opened.trans (if_pos (by omega))⟩

end Accessors

structure GlobalInterruptWithin (table : IortTable) (smmu : IortSmmu) : Prop where
  without : smmu.globalInterruptOffset = 0 → table.smmuGlobalInterrupt smmu = .ok none
  reads : smmu.globalInterruptOffset ≠ 0 →
    smmu.globalInterruptOffset.toNat + 16 ≤ smmu.header.length →
      ∃ interrupt, table.smmuGlobalInterrupt smmu = .ok (some interrupt)
  refuses : smmu.globalInterruptOffset ≠ 0 →
    smmu.header.length < smmu.globalInterruptOffset.toNat + 16 →
      ∃ message, table.smmuGlobalInterrupt smmu = malformed message
  within : ReadsWithin smmu.header.offset smmu.header.endOffset table fun table =>
    smmuGlobalInterrupt table smmu

theorem globalInterruptWithin {smmu : IortSmmu} (fits : smmu.header.endOffset ≤ table.sdt.length) :
    table.GlobalInterruptWithin smmu := by
  have short := table.short
  have limited : limit = 2 ^ 64 := rfl
  have near := smmu.globalInterruptOffset.toNat_lt
  rw [IortNodeHeader.endOffset] at fits
  have start : checkedOffset smmu.header.offset smmu.globalInterruptOffset.toNat =
      .ok (smmu.header.offset + smmu.globalInterruptOffset.toNat) := checkedOffset_of_lt (by omega)
  have stop : checkedOffset (smmu.header.offset + smmu.globalInterruptOffset.toNat) 16 =
      .ok (smmu.header.offset + smmu.globalInterruptOffset.toNat + 16) :=
    checkedOffset_of_lt (by omega)
  have nodeStop : (Parse.sum smmu.header.offset smmu.header.length : Parse IortError Nat) =
      .ok (smmu.header.offset + smmu.header.length) := Parse.sum_of_lt (by omega)
  constructor
  · intro absent
    exact if_pos absent
  · intro declared inside
    rw [smmuGlobalInterrupt, if_neg declared, start, Parse.ok_bind, stop, Parse.ok_bind, nodeStop,
      Parse.ok_bind, if_neg (by omega)]
    rw [readU32_inside (by omega), Parse.ok_bind, readU32_inside (by omega), Parse.ok_bind,
      readU32_inside (by omega), Parse.ok_bind, readU32_inside (by omega), Parse.ok_bind]
    exact ⟨_, rfl⟩
  · intro declared outside
    rw [smmuGlobalInterrupt, if_neg declared, start, Parse.ok_bind, stop, Parse.ok_bind, nodeStop,
      Parse.ok_bind, if_pos (by omega)]
    exact ⟨_, rfl⟩
  · rw [IortNodeHeader.endOffset]
    apply ReadsWithin.ite (fun _ => .pure _)
    intro _
    simp only [start, stop, nodeStop, Parse.ok_bind]
    apply ReadsWithin.ite (fun _ => .malformed _)
    intro inside
    apply ReadsWithin.bind (.readU32 (by omega) (by omega) fits)
    intro nsgIrpt _
    apply ReadsWithin.bind (.readU32 (by omega) (by omega) fits)
    intro nsgIrptFlags _
    apply ReadsWithin.bind (.readU32 (by omega) (by omega) fits)
    intro nsgCfgIrpt _
    apply ReadsWithin.bind (.readU32 (by omega) (by omega) fits)
    intro nsgCfgIrptFlags _
    exact .pure _

end IortTable

end Iommu
