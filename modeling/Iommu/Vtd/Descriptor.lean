import Iommu.Vtd.Entries
import Iommu.Queue.CommandQueueCore

/-!
Queued-invalidation descriptors: the words the driver builds, and what the
hardware reads out of a ring entry.
-/

namespace Iommu

open MachineWord Memory

def QI_CC_TYPE : UInt64 := 0x1
def QI_IOTLB_TYPE : UInt64 := 0x2
def QI_IEC_TYPE : UInt64 := 0x4
def QI_CC_DEVICE : UInt64 := (3 : UInt64) <<< 4
def QI_CC_SID_SHIFT : UInt64 := 32
def QI_IOTLB_GLOBAL : UInt64 := (1 : UInt64) <<< 4
def QI_IOTLB_DOMAIN : UInt64 := (2 : UInt64) <<< 4
def QI_IOTLB_PAGE : UInt64 := (3 : UInt64) <<< 4
def QI_IOTLB_DW : UInt64 := (1 : UInt64) <<< 6
def QI_IOTLB_DR : UInt64 := (1 : UInt64) <<< 7
def QI_IOTLB_DID_SHIFT : UInt64 := 16
def QI_IEC_SELECTIVE : UInt64 := (1 : UInt64) <<< 4
def QI_IEC_IDX_SHIFT : UInt64 := 32
def IVA_AM_MASK : Nat := 0x3f

def iotlbDrainBits (cap : VtdCapability) : UInt64 :=
  (if cap.readDraining then QI_IOTLB_DR else 0) ||| (if cap.writeDraining then QI_IOTLB_DW else 0)

structure VtdQueuedInvalidationDescriptor where
  low : UInt64
  high : UInt64
  deriving DecidableEq, Repr

namespace VtdQueuedInvalidationDescriptor

def bytes (descriptor : VtdQueuedInvalidationDescriptor) : List UInt8 :=
  toBytesLE 8 descriptor.low.toNat ++ toBytesLE 8 descriptor.high.toNat

def contextDevice (client : PciDevice) : VtdQueuedInvalidationDescriptor :=
  ⟨QI_CC_TYPE ||| QI_CC_DEVICE ||| client.bdf.raw.toUInt64 <<< QI_CC_SID_SHIFT, 0⟩

def iotlbGlobal (cap : VtdCapability) : VtdQueuedInvalidationDescriptor :=
  ⟨QI_IOTLB_TYPE ||| QI_IOTLB_GLOBAL ||| iotlbDrainBits cap, 0⟩

def iotlbDomain (domain : VtdIoDomain) (cap : VtdCapability) : VtdQueuedInvalidationDescriptor :=
  ⟨QI_IOTLB_TYPE ||| QI_IOTLB_DOMAIN ||| iotlbDrainBits cap |||
    domain.id.toUInt64 <<< QI_IOTLB_DID_SHIFT, 0⟩

def iotlbPageWithAddressMask (domain : VtdIoDomain) (iova : UInt64) (addressMask : Nat)
    (cap : VtdCapability) : Except Error VtdQueuedInvalidationDescriptor :=
  if !cap.pageSelectiveInvalidation ∨ cap.maxAddressMaskValue < addressMask ∨
      IVA_AM_MASK < addressMask then
    .error VtdError.pageSelectiveInvalidationUnavailable.toError
  else .ok ⟨QI_IOTLB_TYPE ||| QI_IOTLB_PAGE ||| iotlbDrainBits cap |||
      domain.id.toUInt64 <<< QI_IOTLB_DID_SHIFT,
    iova &&& PAGE_ADDR_MASK ||| UInt64.ofNat (addressMask &&& IVA_AM_MASK)⟩

def iotlbPage (domain : VtdIoDomain) (iova : UInt64) (granule : PageSize) (cap : VtdCapability) :
    Except Error VtdQueuedInvalidationDescriptor :=
  match cap.pageSelectiveAddressMask granule with
  | none => .error VtdError.pageSelectiveInvalidationUnavailable.toError
  | some addressMask => iotlbPageWithAddressMask domain iova addressMask cap

def interruptEntryCache (entry : VtdInterruptEntry) : VtdQueuedInvalidationDescriptor :=
  ⟨QI_IEC_TYPE ||| QI_IEC_SELECTIVE ||| entry.index.toUInt64 <<< QI_IEC_IDX_SHIFT, 0⟩

end VtdQueuedInvalidationDescriptor

/-- What the hardware does on reading a ring entry. -/
inductive Invalidation
  | contextDevice (sourceId : Nat)
  | iotlbGlobal
  | iotlbDomain (domainId : Nat)
  | iotlbPages (domainId page addressMask : Nat)
  | interruptEntry (index : Nat)
  deriving DecidableEq, Repr

namespace Invalidation

/-- The hardware's reading of the two words of a descriptor: the type in the low four bits, the
granularity in the two above it. -/
def ofWords (low high : Nat) : Option Invalidation :=
  match low % 2 ^ 6 with
  | 0x31 => some (.contextDevice (low / 2 ^ 32 % 2 ^ 16))
  | 0x12 => some .iotlbGlobal
  | 0x22 => some (.iotlbDomain (low / 2 ^ 16 % 2 ^ 16))
  | 0x32 => some (.iotlbPages (low / 2 ^ 16 % 2 ^ 16) (high / 2 ^ 12) (high % 2 ^ 6))
  | 0x14 => some (.interruptEntry (low / 2 ^ 32 % 2 ^ 16))
  | _ => none

def ofEntry (entry : List UInt8) : Option Invalidation :=
  ofWords (ofBytesLE (entry.take 8)) (ofBytesLE ((entry.drop 8).take 8))

def ofEvents (events : List Event) : List (Option Invalidation) :=
  events.filterMap fun event =>
    match event with
    | .store _ _ => none
    | .publish _ entry => some (ofEntry entry)

theorem ofEvents_append (first second : List Event) :
    ofEvents (first ++ second) = ofEvents first ++ ofEvents second :=
  List.filterMap_append

end Invalidation

namespace VtdQueuedInvalidationDescriptor

def reads (descriptor : VtdQueuedInvalidationDescriptor) : Option Invalidation :=
  Invalidation.ofWords descriptor.low.toNat descriptor.high.toNat

theorem bytes_length (descriptor : VtdQueuedInvalidationDescriptor) :
    descriptor.bytes.length = 16 := by
  simp [bytes]

theorem ofEntry_bytes (descriptor : VtdQueuedInvalidationDescriptor) (padding : List UInt8) :
    Invalidation.ofEntry (descriptor.bytes ++ padding) = descriptor.reads := by
  have word : ∀ value : UInt64, ofBytesLE (toBytesLE 8 value.toNat) = value.toNat := by
    intro value
    rw [ofBytesLE_toBytesLE]
    exact Nat.mod_eq_of_lt value.toNat_lt
  rw [Invalidation.ofEntry, reads, bytes, List.append_assoc]
  rw [List.take_left' (toBytesLE_length 8 _), List.drop_left' (toBytesLE_length 8 _),
    List.take_left' (toBytesLE_length 8 _), word, word]

section Fields

variable (cap : VtdCapability) (domain : VtdIoDomain)

theorem iotlbDrainBits_eq :
    ∃ drains : UInt64, drains.toNat < 4 ∧ iotlbDrainBits cap = drains <<< 6 := by
  rw [iotlbDrainBits]
  cases cap.readDraining <;> cases cap.writeDraining
  · exact ⟨0, by decide, by decide⟩
  · exact ⟨1, by decide, by decide⟩
  · exact ⟨2, by decide, by decide⟩
  · exact ⟨3, by decide, by decide⟩

theorem iotlb_kind_fields (kind : UInt64) (small : kind.toNat < 2 ^ 6) :
    (kind ||| iotlbDrainBits cap).toNat < 2 ^ 8 ∧
      (kind ||| iotlbDrainBits cap).toNat % 2 ^ 6 = kind.toNat := by
  obtain ⟨drains, few, bits⟩ := iotlbDrainBits_eq cap
  have placed : (kind ||| drains <<< 6).toNat = kind.toNat + drains.toNat * 2 ^ 6 :=
    toNat_or_shifted (by decide) (by simp [limit]; omega) small
  rw [bits, placed]
  omega

theorem iotlb_low_fields (kind : UInt64) (small : kind.toNat < 2 ^ 6) :
    (kind ||| iotlbDrainBits cap ||| domain.id.toUInt64 <<< QI_IOTLB_DID_SHIFT).toNat % 2 ^ 6 =
        kind.toNat ∧
      (kind ||| iotlbDrainBits cap ||| domain.id.toUInt64 <<< QI_IOTLB_DID_SHIFT).toNat / 2 ^ 16 %
        2 ^ 16 = domain.id.toNat := by
  obtain ⟨narrow, kept⟩ := iotlb_kind_fields cap kind small
  have identifier := vtdIoDomain_id_lt domain
  have shift : QI_IOTLB_DID_SHIFT.toNat = 16 := by decide
  have placed : (kind ||| iotlbDrainBits cap |||
      domain.id.toUInt64 <<< QI_IOTLB_DID_SHIFT).toNat =
      (kind ||| iotlbDrainBits cap).toNat + domain.id.toNat * 2 ^ 16 := by
    rw [toNat_or_shifted, shift, UInt32.toNat_toUInt64]
    · decide
    · rw [shift, UInt32.toNat_toUInt64, limit]
      omega
    · rw [shift]
      omega
  rw [placed]
  omega

theorem iotlbGlobal_reads : (iotlbGlobal cap).reads = some .iotlbGlobal := by
  have fields := iotlb_kind_fields cap (QI_IOTLB_TYPE ||| QI_IOTLB_GLOBAL) (by decide)
  have code : (iotlbGlobal cap).low.toNat % 2 ^ 6 = 0x12 := fields.2.trans (by decide)
  simp only [reads, Invalidation.ofWords, code]

theorem iotlbDomain_reads :
    (iotlbDomain domain cap).reads = some (.iotlbDomain domain.id.toNat) := by
  have fields :=
    iotlb_low_fields cap domain (QI_IOTLB_TYPE ||| QI_IOTLB_DOMAIN) (by decide)
  have code : (iotlbDomain domain cap).low.toNat % 2 ^ 6 = 0x22 := fields.1.trans (by decide)
  have identifier : (iotlbDomain domain cap).low.toNat / 2 ^ 16 % 2 ^ 16 = domain.id.toNat :=
    fields.2
  simp only [reads, Invalidation.ofWords, code, identifier]

theorem pageMask_high_fields (iova : UInt64) {addressMask : Nat}
    (encodable : addressMask ≤ IVA_AM_MASK) :
    (iova &&& PAGE_ADDR_MASK ||| UInt64.ofNat (addressMask &&& IVA_AM_MASK)).toNat / 2 ^ 12 =
        iova.toNat / 2 ^ 12 ∧
      (iova &&& PAGE_ADDR_MASK ||| UInt64.ofNat (addressMask &&& IVA_AM_MASK)).toNat % 2 ^ 6 =
        addressMask := by
  rw [IVA_AM_MASK] at encodable
  have inside : iova.toNat / 2 ^ 12 < 2 ^ 52 := by
    have bounded := iova.toNat_lt
    omega
  have page : (iova &&& PAGE_ADDR_MASK).toNat = iova.toNat / 2 ^ 12 * 2 ^ 12 := by
    rw [toNat_and_fieldMask iova 12 52 (by decide), Nat.mod_eq_of_lt inside]
  have mask : (UInt64.ofNat (addressMask &&& IVA_AM_MASK)).toNat = addressMask := by
    have narrow := Nat.and_two_pow_sub_one_of_lt_two_pow (x := addressMask) (n := 6) (by omega)
    rw [IVA_AM_MASK, narrow, UInt64.toNat_ofNat_of_lt' (by simp [UInt64.size]; omega)]
  rw [UInt64.toNat_or, page, mask, Nat.mul_comm,
    ← Nat.two_pow_add_eq_or_of_lt (by omega : addressMask < 2 ^ 12)]
  omega

theorem iotlbPageWithAddressMask_reads (iova : UInt64) {addressMask : Nat}
    (selective : cap.pageSelectiveInvalidation = true)
    (supported : addressMask ≤ cap.maxAddressMaskValue) (encodable : addressMask ≤ IVA_AM_MASK) :
    ∃ descriptor, iotlbPageWithAddressMask domain iova addressMask cap = .ok descriptor ∧
      descriptor.reads =
        some (.iotlbPages domain.id.toNat (iova.toNat / 2 ^ 12) addressMask) := by
  rw [iotlbPageWithAddressMask, if_neg (by simp [selective]; omega)]
  refine ⟨_, rfl, ?_⟩
  have fields :=
    iotlb_low_fields cap domain (QI_IOTLB_TYPE ||| QI_IOTLB_PAGE) (by decide)
  obtain ⟨page, mask⟩ := pageMask_high_fields iova encodable
  have code := fields.1.trans (by decide : (QI_IOTLB_TYPE ||| QI_IOTLB_PAGE).toNat = 0x32)
  simp only [reads, Invalidation.ofWords, code, fields.2, page, mask]

end Fields

theorem word_above_half (kind : UInt64) (small : kind.toNat < 2 ^ 6) (field : UInt16) :
    (kind ||| field.toUInt64 <<< 32).toNat % 2 ^ 6 = kind.toNat ∧
      (kind ||| field.toUInt64 <<< 32).toNat / 2 ^ 32 % 2 ^ 16 = field.toNat := by
  have bounded := field.toNat_lt
  have placed : (kind ||| field.toUInt64 <<< 32).toNat = kind.toNat + field.toNat * 2 ^ 32 := by
    have shift : (32 : UInt64).toNat = 32 := by decide
    rw [toNat_or_shifted, shift, UInt16.toNat_toUInt64]
    · decide
    · rw [shift, UInt16.toNat_toUInt64, limit]
      omega
    · rw [shift]
      omega
  rw [placed]
  omega

theorem contextDevice_reads (client : PciDevice) :
    (contextDevice client).reads = some (.contextDevice client.bdf.raw.toNat) := by
  have fields := word_above_half (QI_CC_TYPE ||| QI_CC_DEVICE) (by decide) client.bdf.raw
  have code : (contextDevice client).low.toNat % 2 ^ 6 = 0x31 := fields.1.trans (by decide)
  have source : (contextDevice client).low.toNat / 2 ^ 32 % 2 ^ 16 = client.bdf.raw.toNat :=
    fields.2
  simp only [reads, Invalidation.ofWords, code, source]

theorem interruptEntryCache_reads (entry : VtdInterruptEntry) :
    (interruptEntryCache entry).reads = some (.interruptEntry entry.index.toNat) := by
  have fields := word_above_half (QI_IEC_TYPE ||| QI_IEC_SELECTIVE) (by decide) entry.index
  have code : (interruptEntryCache entry).low.toNat % 2 ^ 6 = 0x14 := fields.1.trans (by decide)
  have index : (interruptEntryCache entry).low.toNat / 2 ^ 32 % 2 ^ 16 = entry.index.toNat :=
    fields.2
  simp only [reads, Invalidation.ofWords, code, index]

end VtdQueuedInvalidationDescriptor

end Iommu
