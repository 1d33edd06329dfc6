import Iommu.Vtd.Info
import Iommu.Backing

/-!
The 128-bit entries of the VT-d root, context and interrupt-remapping tables, and
the memory those tables live in.
-/

namespace Iommu

def TABLE_ADDR_MASK : UInt64 := 0x000ffffffffff000
def PAGE_ADDR_MASK : UInt64 := ~~~0xfff

def ROOT_ENTRY_BYTES : Nat := 16
def ROOT_ENTRY_COUNT : Nat := 256
def CONTEXT_ENTRY_BYTES : Nat := 16
def CONTEXT_ENTRY_COUNT : Nat := 256
def INTERRUPT_REMAP_ENTRY_BYTES : Nat := 16
def INTERRUPT_REMAP_MIN_ENTRIES : Nat := 2
def INTERRUPT_REMAP_MAX_ENTRIES : Nat := 65536

def ROOT_ENTRY_PRESENT : UInt64 := 1
def CONTEXT_PRESENT : UInt64 := 1
def CONTEXT_TRANSLATION_TYPE_SHIFT : UInt64 := 2
def CONTEXT_TRANSLATION_TYPE_MULTI_LEVEL : UInt64 := 0
def CONTEXT_TRANSLATION_TYPE_PASS_THROUGH : UInt64 := 2
def CONTEXT_ADDRESS_WIDTH_MASK : UInt64 := 0x7
def CONTEXT_DOMAIN_ID_SHIFT : UInt64 := 8

def vtdContextEntryIndex (client : PciDevice) : UInt8 := client.device <<< 3 ||| client.function

/-- One page of root entries; `aligned` is the page alignment its constructor asks for. -/
structure VtdRootTableBacking where
  backing : DescriptorTableBacking ROOT_ENTRY_BYTES
  count : backing.entryCount = ROOT_ENTRY_COUNT
  aligned : backing.phys.start % PageSize.size4K.bytes = 0

namespace VtdRootTableBacking

def new (phys virt : AddrRange) : Except Error VtdRootTableBacking :=
  match accepted : DescriptorTableBacking.newAligned phys virt ROOT_ENTRY_COUNT
    PageSize.size4K.bytes with
  | .error error => .error error
  | .ok backing =>
      have checked := DescriptorTableBacking.newAligned_eq_ok accepted
      .ok ⟨backing, checked.2.2.1, checked.1 ▸ checked.2.2.2⟩

def sample : VtdRootTableBacking :=
  ⟨.page 16 0x1000 descriptorBytes_power (by decide) (by decide) (by decide), rfl, rfl⟩

def entryVaddr (table : VtdRootTableBacking) (bus : UInt8) : Except Error Nat :=
  table.backing.entryVaddr bus.toNat

end VtdRootTableBacking

structure VtdContextTableBacking where
  backing : DescriptorTableBacking CONTEXT_ENTRY_BYTES
  count : backing.entryCount = CONTEXT_ENTRY_COUNT
  aligned : backing.phys.start % PageSize.size4K.bytes = 0

namespace VtdContextTableBacking

def new (phys virt : AddrRange) : Except Error VtdContextTableBacking :=
  match accepted : DescriptorTableBacking.newAligned phys virt CONTEXT_ENTRY_COUNT
    PageSize.size4K.bytes with
  | .error error => .error error
  | .ok backing =>
      have checked := DescriptorTableBacking.newAligned_eq_ok accepted
      .ok ⟨backing, checked.2.2.1, checked.1 ▸ checked.2.2.2⟩

def entryVaddr (table : VtdContextTableBacking) (index : UInt8) : Except Error Nat :=
  table.backing.entryVaddr index.toNat

def sample : VtdContextTableBacking :=
  ⟨.page 16 0x2000 descriptorBytes_power (by decide) (by decide) (by decide), rfl, rfl⟩

def clientEntryVaddr (table : VtdContextTableBacking) (client : PciDevice) : Except Error Nat :=
  table.entryVaddr (vtdContextEntryIndex client)

end VtdContextTableBacking

structure VtdRootEntry where
  low : UInt64
  high : UInt64
  deriving DecidableEq, Repr

namespace VtdRootEntry

def disabled : VtdRootEntry := ⟨0, 0⟩

def fromContextTable (table : VtdContextTableBacking) : Except Error VtdRootEntry :=
  let root := table.backing.phys.start
  if root % PageSize.size4K.bytes ≠ 0 then .error .invalidAddress
  else .ok ⟨UInt64.ofNat root &&& TABLE_ADDR_MASK ||| ROOT_ENTRY_PRESENT, 0⟩

def present (entry : VtdRootEntry) : Bool := entry.low &&& ROOT_ENTRY_PRESENT ≠ 0

def contextTableRoot (entry : VtdRootEntry) : Option UInt64 :=
  if entry.present then some (entry.low &&& TABLE_ADDR_MASK) else none

end VtdRootEntry

structure VtdContextEntry where
  low : UInt64
  high : UInt64
  deriving DecidableEq, Repr

def vtdAgawBits : VtdSecondLevelAddressWidth → UInt64
  | .bits39 => 1
  | .bits48 => 2
  | .bits57 => 3

namespace VtdContextEntry

def disabled : VtdContextEntry := ⟨0, 0⟩

def fromDomain (domain : VtdDomain) : Except Error VtdContextEntry :=
  if domain.root.toNat % PageSize.size4K.bytes ≠ 0 then .error .invalidAddress
  else .ok ⟨domain.root &&& TABLE_ADDR_MASK ||| CONTEXT_PRESENT |||
      CONTEXT_TRANSLATION_TYPE_MULTI_LEVEL <<< CONTEXT_TRANSLATION_TYPE_SHIFT,
    vtdAgawBits domain.width ||| domain.id.id.toUInt64 <<< CONTEXT_DOMAIN_ID_SHIFT⟩

def passThrough : VtdContextEntry :=
  ⟨CONTEXT_PRESENT ||| CONTEXT_TRANSLATION_TYPE_PASS_THROUGH <<< CONTEXT_TRANSLATION_TYPE_SHIFT, 0⟩

def fromBinding (binding : Binding PciDevice VtdDomain) (cap : VtdExtendedCapability) :
    Except Error VtdContextEntry :=
  if binding.selector ≠ .default then .error .featureUnavailable
  else
    match binding.target with
    | .abort => .ok disabled
    | .passThrough => if cap.passThrough then .ok passThrough else .error .featureUnavailable
    | .domain domain => fromDomain domain

def present (entry : VtdContextEntry) : Bool := entry.low &&& CONTEXT_PRESENT ≠ 0

def translationType (entry : VtdContextEntry) : UInt8 :=
  (entry.low >>> CONTEXT_TRANSLATION_TYPE_SHIFT &&& 0x7).toUInt8

def domainId (entry : VtdContextEntry) : UInt16 :=
  (entry.high >>> CONTEXT_DOMAIN_ID_SHIFT &&& 0xffff).toUInt16

def addressWidthBits (entry : VtdContextEntry) : UInt8 :=
  match (entry.high &&& CONTEXT_ADDRESS_WIDTH_MASK).toUInt8 with
  | 1 => 39
  | 2 => 48
  | 3 => 57
  | _ => 30

def pageTableRoot (entry : VtdContextEntry) : Option UInt64 :=
  if entry.present ∧ entry.translationType = CONTEXT_TRANSLATION_TYPE_MULTI_LEVEL.toUInt8 then
    some (entry.low &&& TABLE_ADDR_MASK)
  else none

end VtdContextEntry

structure VtdInterruptEntry where
  index : UInt16
  deriving DecidableEq, Repr

structure VtdInterruptRemapTableBacking where
  backing : DescriptorTableBacking INTERRUPT_REMAP_ENTRY_BYTES
  countPower : backing.entryCount.isPowerOfTwo
  several : INTERRUPT_REMAP_MIN_ENTRIES ≤ backing.entryCount
  fits : backing.entryCount ≤ INTERRUPT_REMAP_MAX_ENTRIES

namespace VtdInterruptRemapTableBacking

def new (phys virt : AddrRange) (entryCount : Nat) : Except Error VtdInterruptRemapTableBacking :=
  if shape : (INTERRUPT_REMAP_MIN_ENTRIES ≤ entryCount ∧ entryCount ≤ INTERRUPT_REMAP_MAX_ENTRIES) ∧
      entryCount.isPowerOfTwo then
    match accepted : DescriptorTableBacking.newAligned phys virt entryCount
      PageSize.size4K.bytes with
    | .error error => .error error
    | .ok backing =>
        have count := (DescriptorTableBacking.newAligned_eq_ok accepted).2.2.1
        .ok ⟨backing, count ▸ shape.2, count ▸ shape.1.1, count ▸ shape.1.2⟩
  else .error .invalidRange

def sample : VtdInterruptRemapTableBacking :=
  ⟨.page 16 0x3000 descriptorBytes_power (by decide) (by decide) (by decide), ⟨8, rfl⟩, by decide,
    by decide⟩

def entryVaddr (table : VtdInterruptRemapTableBacking) (entry : VtdInterruptEntry) :
    Except Error Nat :=
  table.backing.entryVaddr entry.index.toNat

end VtdInterruptRemapTableBacking

structure X86InterruptVector where
  vector : UInt8
  external : 32 ≤ vector
  deriving DecidableEq

inductive X86MsiDeliveryMode
  | fixed
  | lowestPriority
  | smi
  | nmi
  | init
  | extInt
  deriving DecidableEq, Repr

def X86MsiDeliveryMode.code : X86MsiDeliveryMode → UInt64
  | fixed => 0b000
  | lowestPriority => 0b001
  | smi => 0b010
  | nmi => 0b100
  | init => 0b101
  | extInt => 0b111

inductive X86MsiTriggerMode
  | edge
  | level
  deriving DecidableEq, Repr

structure VtdInterruptRemapTarget where
  destination : UInt32
  vector : X86InterruptVector
  deliveryMode : X86MsiDeliveryMode
  triggerMode : X86MsiTriggerMode
  destinationModeLogical : Bool
  redirectionHint : Bool
  deriving DecidableEq

def IRTE_PRESENT : UInt64 := 1
def IRTE_DESTINATION_MODE_LOGICAL : UInt64 := (1 : UInt64) <<< 2
def IRTE_REDIRECTION_HINT : UInt64 := (1 : UInt64) <<< 3
def IRTE_TRIGGER_MODE_LEVEL : UInt64 := (1 : UInt64) <<< 4
def IRTE_DELIVERY_MODE_SHIFT : UInt64 := 5
def IRTE_VECTOR_SHIFT : UInt64 := 16
def IRTE_DESTINATION_SHIFT : UInt64 := 32
def IRTE_SOURCE_ID_SHIFT : UInt64 := 0
def IRTE_SOURCE_ID_QUALIFIER_SHIFT : UInt64 := 16
def IRTE_SOURCE_VALIDATION_TYPE_SHIFT : UInt64 := 18
def IRTE_SOURCE_VALIDATION_VERIFY_SOURCE_ID : UInt64 := 1
def IRTE_SOURCE_QUALIFIER_ALL_BITS : UInt64 := 0

def sourceValidationHigh (sourceId : UInt16) : UInt64 :=
  sourceId.toUInt64 <<< IRTE_SOURCE_ID_SHIFT |||
    IRTE_SOURCE_QUALIFIER_ALL_BITS <<< IRTE_SOURCE_ID_QUALIFIER_SHIFT |||
    IRTE_SOURCE_VALIDATION_VERIFY_SOURCE_ID <<< IRTE_SOURCE_VALIDATION_TYPE_SHIFT

structure VtdInterruptRemapEntry where
  low : UInt64
  high : UInt64
  deriving DecidableEq, Repr

namespace VtdInterruptRemapEntry

def disabled : VtdInterruptRemapEntry := ⟨0, 0⟩

def fromTarget (source : PciDevice) (target : VtdInterruptRemapTarget) : VtdInterruptRemapEntry :=
  let low := IRTE_PRESENT ||| target.deliveryMode.code <<< IRTE_DELIVERY_MODE_SHIFT |||
    target.vector.vector.toUInt64 <<< IRTE_VECTOR_SHIFT |||
    target.destination.toUInt64 <<< IRTE_DESTINATION_SHIFT
  let low := if target.destinationModeLogical then low ||| IRTE_DESTINATION_MODE_LOGICAL else low
  let low := if target.redirectionHint then low ||| IRTE_REDIRECTION_HINT else low
  let low := if target.triggerMode = .level then low ||| IRTE_TRIGGER_MODE_LEVEL else low
  ⟨low, sourceValidationHigh source.bdf.raw⟩

def present (entry : VtdInterruptRemapEntry) : Bool := entry.low &&& IRTE_PRESENT ≠ 0

end VtdInterruptRemapEntry

end Iommu
