import Iommu.Pcie

/-!
The values VT-d operations are given: page sizes, domains, bindings and the
capability registers discovered for one remapping unit.
-/

namespace Iommu

/-- Page sizes of the page-table crate; `other` stands for the ones VT-d does not name. -/
inductive PageSize
  | size4K
  | size2M
  | size1G
  | other (bytes : Nat)
  deriving DecidableEq, Repr

namespace PageSize

def bytes : PageSize → Nat
  | size4K => 0x1000
  | size2M => 0x200000
  | size1G => 0x40000000
  | other bytes => bytes

def pages (size : PageSize) : Nat := size.bytes / 0x1000

end PageSize

/-- A domain number in the bits of `mask`, with a generation above it. -/
structure IoDomain (mask : UInt32) where
  bits : UInt32
  deriving DecidableEq, Repr

def IoDomain.id {mask : UInt32} (domain : IoDomain mask) : UInt32 := domain.bits &&& mask

def VTD_DOMAIN_MASK : UInt32 := 0x0000ffff

abbrev VtdIoDomain := IoDomain VTD_DOMAIN_MASK

theorem vtdIoDomain_id_lt (domain : VtdIoDomain) : domain.id.toNat < 2 ^ 16 := by
  rw [IoDomain.id, UInt32.toNat_and]
  exact Nat.lt_succ_of_le Nat.and_le_right

inductive TranslationStage
  | stage1
  | stage2
  | nested
  deriving DecidableEq, Repr

inductive VtdSecondLevelAddressWidth
  | bits39
  | bits48
  | bits57
  deriving DecidableEq, Repr

def VtdSecondLevelAddressWidth.bits : VtdSecondLevelAddressWidth → UInt8
  | bits39 => 39
  | bits48 => 48
  | bits57 => 57

def VtdSecondLevelAddressWidth.sagawBit : VtdSecondLevelAddressWidth → UInt8
  | bits39 => (1 : UInt8) <<< 1
  | bits48 => (1 : UInt8) <<< 2
  | bits57 => (1 : UInt8) <<< 3

structure VtdDomain where
  id : VtdIoDomain
  root : UInt64
  width : VtdSecondLevelAddressWidth
  stage : TranslationStage
  deriving DecidableEq, Repr

inductive BindingSelector
  | default
  | addrSpace (id : UInt32)
  | substream (id : UInt32)
  deriving DecidableEq, Repr

inductive BindingTarget (Domain : Type)
  | abort
  | passThrough
  | domain (domain : Domain)
  deriving DecidableEq, Repr

structure Binding (Client Domain : Type) where
  client : Client
  selector : BindingSelector
  target : BindingTarget Domain
  deriving DecidableEq, Repr

def CAP_MGAW_SHIFT : UInt64 := 16
def CAP_MGAW_MASK : UInt64 := 0x3f
def CAP_SAGAW_SHIFT : UInt64 := 8
def CAP_SAGAW_MASK : UInt64 := 0x1f
def CAP_FRO_SHIFT : UInt64 := 24
def CAP_FRO_MASK : UInt64 := 0x03ff
def CAP_SLLPS_SHIFT : UInt64 := 34
def CAP_SLLPS_MASK : UInt64 := 0x0f
def CAP_NFR_SHIFT : UInt64 := 40
def CAP_NFR_MASK : UInt64 := 0xff
def CAP_PSI : UInt64 := (1 : UInt64) <<< 39
def CAP_MAMV_SHIFT : UInt64 := 48
def CAP_MAMV_MASK : UInt64 := 0x3f
def CAP_DWD : UInt64 := (1 : UInt64) <<< 54
def CAP_DRD : UInt64 := (1 : UInt64) <<< 55

structure VtdCapability where
  bits : UInt64
  deriving DecidableEq, Repr

namespace VtdCapability

def maxGuestAddressWidth (cap : VtdCapability) : Nat :=
  (cap.bits >>> CAP_MGAW_SHIFT &&& CAP_MGAW_MASK).toNat + 1

def supportedAgawMask (cap : VtdCapability) : UInt8 :=
  (cap.bits >>> CAP_SAGAW_SHIFT &&& CAP_SAGAW_MASK).toUInt8

def supportsAddressWidth (cap : VtdCapability) (width : VtdSecondLevelAddressWidth) : Bool :=
  cap.supportedAgawMask &&& width.sagawBit ≠ 0

def bestAddressWidth (cap : VtdCapability) : Option VtdSecondLevelAddressWidth :=
  if cap.supportsAddressWidth .bits57 then some .bits57
  else if cap.supportsAddressWidth .bits48 then some .bits48
  else if cap.supportsAddressWidth .bits39 then some .bits39
  else none

def faultRecordRegisterOffset (cap : VtdCapability) : Nat :=
  (cap.bits >>> CAP_FRO_SHIFT &&& CAP_FRO_MASK).toNat * 16

def faultRecordCount (cap : VtdCapability) : Nat :=
  min ((cap.bits >>> CAP_NFR_SHIFT &&& CAP_NFR_MASK).toNat + 1) 0xffff

def superpageMask (cap : VtdCapability) : UInt8 :=
  (cap.bits >>> CAP_SLLPS_SHIFT &&& CAP_SLLPS_MASK).toUInt8

def supportsLeafSize (cap : VtdCapability) : PageSize → Bool
  | .size4K => true
  | .size2M => cap.superpageMask &&& 0b0001 ≠ 0
  | .size1G => cap.superpageMask &&& 0b0010 ≠ 0
  | .other _ => false

def pageSelectiveInvalidation (cap : VtdCapability) : Bool := cap.bits &&& CAP_PSI ≠ 0

def maxAddressMaskValue (cap : VtdCapability) : Nat :=
  (cap.bits >>> CAP_MAMV_SHIFT &&& CAP_MAMV_MASK).toNat

def pageSelectiveAddressMask (cap : VtdCapability) (size : PageSize) : Option Nat :=
  let supported (required : Nat) : Option Nat :=
    if cap.pageSelectiveInvalidation ∧ required ≤ cap.maxAddressMaskValue then some required
    else none
  match size with
  | .size4K => supported 0
  | .size2M => supported 9
  | .size1G => supported 18
  | .other _ => none

def writeDraining (cap : VtdCapability) : Bool := cap.bits &&& CAP_DWD ≠ 0

def readDraining (cap : VtdCapability) : Bool := cap.bits &&& CAP_DRD ≠ 0

end VtdCapability

def ECAP_PT : UInt64 := (1 : UInt64) <<< 6

structure VtdExtendedCapability where
  bits : UInt64
  deriving DecidableEq, Repr

def VtdExtendedCapability.passThrough (ecap : VtdExtendedCapability) : Bool :=
  ecap.bits &&& ECAP_PT ≠ 0

structure VtdInfo where
  segment : Option UInt16
  cap : VtdCapability
  ecap : VtdExtendedCapability
  deriving DecidableEq, Repr

inductive InvalidateScope
  | global
  | domain
  | leaf
  | device
  | deviceLeaf
  deriving DecidableEq, Repr

end Iommu
