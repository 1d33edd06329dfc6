import Iommu.Iort.NodeArrays

/-!
Every node is read from its own bytes. A node can be read when the length that it declares
holds its header and stays in the table.
-/

namespace Iommu

open MachineWord FirmwareTable

namespace IortNodeHeader

def nameEnd (header : IortNodeHeader) : Nat :=
  if header.mappingCount = 0 then header.length else header.mappingOffset.toNat

def HoldsName (header : IortNodeHeader) : Prop :=
  NAMED_COMPONENT_MIN_LENGTH ≤ header.nameEnd ∧ header.nameEnd ≤ header.length

instance (header : IortNodeHeader) : Decidable header.HoldsName := inferInstanceAs (Decidable (_ ∧ _))

end IortNodeHeader

namespace IortTable

section Arithmetic

variable {base offset : Nat}

theorem checkedOffset_of_lt (small : base + offset < limit) :
    checkedOffset base offset = .ok (base + offset) := by
  rw [checkedOffset, checkedAdd_of_lt small]

theorem checkedOffset_eq_ok {total : Nat} (added : checkedOffset base offset = .ok total) :
    total = base + offset := by
  rw [checkedOffset] at added
  split at added
  · exact absurd ⟨_, added⟩ malformed_ne_ok
  · next found =>
    cases added
    exact (checkedAdd_eq_some.mp found).2.symm

theorem arrayBytes_eq (count : UInt32) {size : Nat} (small : size ≤ 2 ^ 32) (overflow : String) :
    arrayBytes count size overflow = .ok (count.toNat * size) := by
  have few := count.toNat_lt
  have product : count.toNat * size < limit := by
    apply Nat.lt_of_le_of_lt (Nat.mul_le_mul (Nat.le_of_lt_succ few) small)
    rw [limit]
    omega
  rw [arrayBytes, checkedMul_of_lt product]

theorem mmioAddress_eq (address : UInt64) : mmioAddress address = .ok address.toNat := by
  rw [mmioAddress, usizeTryFrom_eq]

theorem optionalAddress_returns (address : UInt64) : (optionalAddress address).Returns := by
  rw [optionalAddress, mmioAddress_eq]
  split
  · exact .pure _
  · exact .ok _

theorem rangeFromStartSize_returns (start size : UInt64)
    (addrError sizeError emptyError rangeError : String) :
    (rangeFromStartSize start size addrError sizeError emptyError rangeError).Returns := by
  rw [rangeFromStartSize, usizeTryFrom_eq, usizeTryFrom_eq]
  dsimp only
  split
  · exact .fail _
  · split
    · exact .fail _
    · exact .ok _

end Arithmetic

def declared (table : IortTable) (offset : Nat) : Nat := fieldLE table.sdt (offset + 1) 2

structure Frames (table : IortTable) (offset : Nat) : Prop where
  large : IORT_NODE_HEADER_LENGTH ≤ table.declared offset
  fits : offset + table.declared offset ≤ table.sdt.length

variable {table : IortTable} {offset : Nat} {header : IortNodeHeader}

theorem declared_lt (table : IortTable) (offset : Nat) : table.declared offset < 2 ^ 16 :=
  fieldLE_lt _ _ _

theorem declared_toNat (table : IortTable) (offset : Nat) :
    (UInt16.ofNat (table.declared offset)).toNat = table.declared offset :=
  UInt16.toNat_ofNat_of_lt' (table.declared_lt offset)

theorem readLength_eq (inside : offset + 3 ≤ table.sdt.length) :
    table.readU16 offset 1 = .ok (.ofNat (table.declared offset)) :=
  readU16_inside inside

theorem parseNodeHeader_within (frames : table.Frames offset) :
    ReadsWithin offset (offset + table.declared offset) table fun table =>
      parseNodeHeader table offset := by
  obtain ⟨large, fits⟩ := frames
  have short := table.short
  have limited : limit = 2 ^ 64 := rfl
  have least : IORT_NODE_HEADER_LENGTH = 16 := rfl
  simp only [parseNodeHeader, checkedOffset_of_lt (show offset + IORT_NODE_HEADER_LENGTH < limit by
    omega), Parse.ok_bind]
  apply ReadsWithin.reachesTo (by omega) fits
  apply ReadsWithin.bind (.readU16 (by omega) (by omega) fits)
  intro length found
  have same : length.toNat = table.declared offset := by
    rw [readLength_eq (by omega)] at found
    rw [← Except.ok.inj found, declared_toNat]
  apply ReadsWithin.ite (fun _ => .malformed _)
  intro _
  simp only [checkedOffset_of_lt (show offset + length.toNat < limit by omega), Parse.ok_bind]
  apply ReadsWithin.reachesTo (by omega) fits
  apply ReadsWithin.bind (.readU8 (by omega) (by omega) fits)
  intro kind _
  apply ReadsWithin.bind (.readU8 (by omega) (by omega) fits)
  intro revision _
  apply ReadsWithin.bind (.readU32 (by omega) (by omega) fits)
  intro identifier _
  apply ReadsWithin.bind (.readU32 (by omega) (by omega) fits)
  intro mappingCount _
  apply ReadsWithin.bind (.readU32 (by omega) (by omega) fits)
  intro mappingOffset _
  exact .pure _

theorem parseNodeHeader_frames (table : IortTable) (offset : Nat) :
    (table.parseNodeHeader offset).Ensures fun header =>
      header.offset = offset ∧ header.length = table.declared offset ∧ table.Frames offset := by
  have least : IORT_NODE_HEADER_LENGTH = 16 := rfl
  refine .bind fun start added => .ite (fun _ => .fail _) fun holds => ?_
  have start_eq := checkedOffset_eq_ok added
  rw [readLength_eq (by omega), Parse.ok_bind, declared_toNat]
  refine .ite (fun _ => .fail _) fun large => .bind fun stop added => ?_
  have stop_eq := checkedOffset_eq_ok added
  refine .ite (fun _ => .fail _) fun fits => ?_
  refine .bind fun _ _ => .bind fun _ _ => .bind fun _ _ => .bind fun _ _ => .bind fun _ _ => ?_
  exact .pure ⟨rfl, rfl, Nat.le_of_not_lt large, by omega⟩

section Bodies

variable (fits : header.endOffset ≤ table.sdt.length)

include fits

theorem readMemoryAccess_within {displacement : Nat} (inside : displacement + 8 ≤ header.length) :
    ReadsWithin header.offset header.endOffset table fun table =>
      readMemoryAccess table header.offset displacement := by
  have short := table.length_lt_limit
  rw [IortNodeHeader.endOffset] at fits ⊢
  apply ReadsWithin.afterSum (by omega)
  apply ReadsWithin.bind (.readU32 (by omega) (by omega) fits)
  intro cacheCoherency _
  apply ReadsWithin.bind (.readU8 (by omega) (by omega) fits)
  intro hints _
  apply ReadsWithin.bind (.readU8 (by omega) (by omega) fits)
  intro memoryFlags _
  exact .pure _

theorem parseItsGroup_within : ReadsWithin header.offset header.endOffset table fun table =>
    parseItsGroup table header := by
  rw [IortNodeHeader.endOffset] at fits ⊢
  apply ReadsWithin.ite (fun _ => .malformed _)
  intro enough
  have least : ITS_GROUP_MIN_LENGTH = 20 := rfl
  apply ReadsWithin.bind (.readU32 (by omega) (by omega) fits)
  intro itsCount _
  exact .pure _

theorem deviceNameEnd_eq : deviceNameEnd header = .ok (header.offset + header.nameEnd) := by
  have short := table.short
  have small := header.mappingOffset.toNat_lt
  have limited : limit = 2 ^ 64 := rfl
  rw [IortNodeHeader.endOffset] at fits
  rw [deviceNameEnd, IortNodeHeader.nameEnd]
  split
  · exact Parse.sum_of_lt (by omega)
  · exact checkedOffset_of_lt (by omega)

theorem parseNamedComponent_within : ReadsWithin header.offset header.endOffset table fun table =>
    parseNamedComponent table header := by
  have short := table.length_lt_limit
  have least : NAMED_COMPONENT_MIN_LENGTH = 29 := rfl
  have ends : header.endOffset = header.offset + header.length := rfl
  apply ReadsWithin.ite (fun _ => .malformed _)
  intro enough
  apply ReadsWithin.afterSum (by omega)
  simp only [deviceNameEnd_eq fits, Parse.ok_bind]
  apply ReadsWithin.afterSum (by omega)
  apply ReadsWithin.ite (fun _ => .malformed _)
  intro bounds
  apply ReadsWithin.bind (.readU32 (by omega) (by omega) fits)
  intro nodeFlags _
  apply ReadsWithin.bind (readMemoryAccess_within fits (by omega))
  intro memoryProperties _
  apply ReadsWithin.bind (.readU8 (by omega) (by omega) fits)
  intro memoryAddressLimit _
  apply ReadsWithin.bind (.sliced (by omega) (by omega) (by omega) fits)
  intro deviceName _
  exact .pure _

theorem parseRootComplex_within : ReadsWithin header.offset header.endOffset table fun table =>
    parseRootComplex table header := by
  have least : ROOT_COMPLEX_MIN_LENGTH = 35 := rfl
  have ends : header.endOffset = header.offset + header.length := rfl
  apply ReadsWithin.ite (fun _ => .malformed _)
  intro enough
  apply ReadsWithin.bind (readMemoryAccess_within fits (by omega))
  intro memoryProperties _
  apply ReadsWithin.bind (.readU32 (by omega) (by omega) fits)
  intro atsAttribute _
  apply ReadsWithin.bind (.readU32 (by omega) (by omega) fits)
  intro pciSegmentNumber _
  apply ReadsWithin.bind (.readU8 (by omega) (by omega) fits)
  intro memoryAddressLimit _
  apply ReadsWithin.bind (.readU16 (by omega) (by omega) fits)
  intro pasidCapabilities _
  exact .pure _

theorem parseSmmu_within : ReadsWithin header.offset header.endOffset table fun table =>
    parseSmmu table header := by
  have least : SMMU_MIN_LENGTH = 60 := rfl
  rw [IortNodeHeader.endOffset] at fits ⊢
  apply ReadsWithin.ite (fun _ => .malformed _)
  intro enough
  apply ReadsWithin.bind (.readU64 (by omega) (by omega) fits)
  intro start _
  apply ReadsWithin.bind (.readU64 (by omega) (by omega) fits)
  intro size _
  apply ReadsWithin.bind (.constant (rangeFromStartSize_returns _ _ _ _ _ _))
  intro registers _
  apply ReadsWithin.bind (.readU32 (by omega) (by omega) fits)
  intro model _
  apply ReadsWithin.bind (.readU32 (by omega) (by omega) fits)
  intro flags _
  apply ReadsWithin.bind (.readU32 (by omega) (by omega) fits)
  intro globalInterruptOffset _
  apply ReadsWithin.bind (.readU32 (by omega) (by omega) fits)
  intro contextInterruptCount _
  apply ReadsWithin.bind (.readU32 (by omega) (by omega) fits)
  intro contextInterruptOffset _
  apply ReadsWithin.bind (.readU32 (by omega) (by omega) fits)
  intro pmuInterruptCount _
  apply ReadsWithin.bind (.readU32 (by omega) (by omega) fits)
  intro pmuInterruptOffset _
  exact .pure _

theorem parseSmmuV3_within : ReadsWithin header.offset header.endOffset table fun table =>
    parseSmmuV3 table header := by
  have least : SMMU_V3_MIN_LENGTH = 68 := rfl
  rw [IortNodeHeader.endOffset] at fits ⊢
  apply ReadsWithin.ite (fun _ => .malformed _)
  intro enough
  apply ReadsWithin.bind (.readU64 (by omega) (by omega) fits)
  intro vatos _
  apply ReadsWithin.bind (.readU64 (by omega) (by omega) fits)
  intro base _
  simp only [mmioAddress_eq, Parse.ok_bind]
  apply ReadsWithin.bind (.readU32 (by omega) (by omega) fits)
  intro flags _
  apply ReadsWithin.bind (.constant (optionalAddress_returns vatos))
  intro vatosAddress _
  apply ReadsWithin.bind (.readU32 (by omega) (by omega) fits)
  intro model _
  apply ReadsWithin.bind (.readU32 (by omega) (by omega) fits)
  intro eventGsiv _
  apply ReadsWithin.bind (.readU32 (by omega) (by omega) fits)
  intro priGsiv _
  apply ReadsWithin.bind (.readU32 (by omega) (by omega) fits)
  intro gerrGsiv _
  apply ReadsWithin.bind (.readU32 (by omega) (by omega) fits)
  intro syncGsiv _
  apply ReadsWithin.bind (.readU32 (by omega) (by omega) fits)
  intro pxm _
  apply ReadsWithin.bind (.readU32 (by omega) (by omega) fits)
  intro idMappingIndex _
  exact .pure _

theorem parsePmcg_within : ReadsWithin header.offset header.endOffset table fun table =>
    parsePmcg table header := by
  have least : PMCG_MIN_LENGTH = 40 := rfl
  rw [IortNodeHeader.endOffset] at fits ⊢
  apply ReadsWithin.ite (fun _ => .malformed _)
  intro enough
  apply ReadsWithin.bind (.readU64 (by omega) (by omega) fits)
  intro page1 _
  apply ReadsWithin.bind (.readU64 (by omega) (by omega) fits)
  intro base _
  simp only [mmioAddress_eq, Parse.ok_bind]
  apply ReadsWithin.bind (.readU32 (by omega) (by omega) fits)
  intro overflowGsiv _
  apply ReadsWithin.bind (.readU32 (by omega) (by omega) fits)
  intro nodeReference _
  apply ReadsWithin.bind (.constant (optionalAddress_returns page1))
  intro page1BaseAddress _
  exact .pure _

theorem parseReservedMemory_within : ReadsWithin header.offset header.endOffset table fun table =>
    parseReservedMemory table header := by
  have least : RMR_MIN_LENGTH = 28 := rfl
  rw [IortNodeHeader.endOffset] at fits ⊢
  apply ReadsWithin.ite (fun _ => .malformed _)
  intro enough
  apply ReadsWithin.bind (.readU32 (by omega) (by omega) fits)
  intro flags _
  apply ReadsWithin.bind (.readU32 (by omega) (by omega) fits)
  intro descriptorCount _
  apply ReadsWithin.bind (.readU32 (by omega) (by omega) fits)
  intro descriptorOffset _
  exact .pure _

theorem parseBody_within : ReadsWithin header.offset header.endOffset table fun table =>
    parseBody table header := by
  rcases header with ⟨kind, revision, identifier, mappingCount, mappingOffset, offset, length⟩
  cases kind with
  | itsGroup => exact (parseItsGroup_within fits).bind fun _ _ => .pure _
  | namedComponent => exact (parseNamedComponent_within fits).bind fun _ _ => .pure _
  | rootComplex => exact (parseRootComplex_within fits).bind fun _ _ => .pure _
  | smmu => exact (parseSmmu_within fits).bind fun _ _ => .pure _
  | smmuV3 => exact (parseSmmuV3_within fits).bind fun _ _ => .pure _
  | pmcg => exact (parsePmcg_within fits).bind fun _ _ => .pure _
  | reservedMemory => exact (parseReservedMemory_within fits).bind fun _ _ => .pure _
  | unknown kind => exact .pure _

end Bodies

theorem parseNode_within (frames : table.Frames offset) :
    ReadsWithin offset (offset + table.declared offset) table fun table => parseNode table offset := by
  apply ReadsWithin.bind (parseNodeHeader_within frames)
  intro header parsed
  obtain ⟨rfl, size, _⟩ := parseNodeHeader_frames table _ header parsed
  rw [← size]
  apply parseBody_within
  rw [IortNodeHeader.endOffset, size]
  exact frames.fits

end IortTable

end Iommu
