import Iommu.Vtd.InterruptMessages
import Iommu.Vtd.TornEntries

/-!
Interrupt messages and remapping entries as the platform reads them: a delivery has one meaning,
whether a device sends it plainly or through the entry that was built from it.
-/

namespace Iommu

open MachineWord

def MSI_ADDRESS_BASE : UInt64 := 0xfee00000
def MSI_DESTINATION_SHIFT : UInt64 := 12
def MSI_REDIRECTION_HINT : UInt64 := (1 : UInt64) <<< 3
def MSI_DESTINATION_MODE_LOGICAL : UInt64 := (1 : UInt64) <<< 2
def MSI_DELIVERY_MODE_SHIFT : UInt32 := 8
def MSI_LEVEL_ASSERT : UInt32 := (1 : UInt32) <<< 14
def MSI_TRIGGER_LEVEL : UInt32 := (1 : UInt32) <<< 15

inductive X86MsiDestination
  | physical (id : UInt8)
  | logical (id : UInt8)
  deriving DecidableEq, Repr

namespace X86MsiDestination

def id : X86MsiDestination → UInt8
  | physical id => id
  | logical id => id

def isLogical : X86MsiDestination → Bool
  | physical _ => false
  | logical _ => true

end X86MsiDestination

inductive X86MsiLevel
  | deassert
  | assert
  deriving DecidableEq, Repr

structure X86MsiDelivery where
  destination : X86MsiDestination
  vector : X86InterruptVector
  deliveryMode : X86MsiDeliveryMode
  triggerMode : X86MsiTriggerMode
  level : X86MsiLevel
  redirectionHint : Bool
  deriving DecidableEq

namespace X86MsiDelivery

def new (destination : X86MsiDestination) (vector : X86InterruptVector)
    (deliveryMode : X86MsiDeliveryMode) : X86MsiDelivery :=
  ⟨destination, vector, deliveryMode, .edge, .assert, false⟩

def message (delivery : X86MsiDelivery) : MsiMessage :=
  let address := MSI_ADDRESS_BASE ||| delivery.destination.id.toUInt64 <<< MSI_DESTINATION_SHIFT
  let address := if delivery.destination.isLogical then address ||| MSI_DESTINATION_MODE_LOGICAL else address
  let address := if delivery.redirectionHint then address ||| MSI_REDIRECTION_HINT else address
  let data := delivery.vector.vector.toUInt32 |||
    delivery.deliveryMode.code.toUInt32 <<< MSI_DELIVERY_MODE_SHIFT
  let data := if delivery.level = .assert then data ||| MSI_LEVEL_ASSERT else data
  let data := if delivery.triggerMode = .level then data ||| MSI_TRIGGER_LEVEL else data
  ⟨address, data⟩

end X86MsiDelivery

def VtdInterruptRemapTarget.fromX86Delivery (delivery : X86MsiDelivery) : VtdInterruptRemapTarget :=
  ⟨delivery.destination.id.toUInt32, delivery.vector, delivery.deliveryMode, delivery.triggerMode,
    delivery.destination.isLogical, delivery.redirectionHint⟩

def VtdInterruptRemapEntry.fromX86Delivery (source : PciDevice) (delivery : X86MsiDelivery) :
    VtdInterruptRemapEntry :=
  fromTarget source (.fromX86Delivery delivery)

/-- What an interrupt asks of the processors. The level bit of a message is not part of it: a
remapping entry has no place for that bit. -/
structure InterruptRequest where
  destination : Nat
  logical : Bool
  redirectionHint : Bool
  mode : Nat
  vector : Nat
  levelTriggered : Bool
  deriving DecidableEq, Repr

/-- How a unit remaps: in extended mode, or in legacy mode, where it may let messages of the plain
format through. -/
inductive RemapMode
  | extended
  | legacy (compatible : Bool)
  deriving DecidableEq, Repr

namespace RemapMode

def passesPlain : RemapMode → Bool
  | extended => false
  | legacy compatible => compatible

/-- The destination that is read from the upper half of an entry's low word: all of it, or in legacy
mode only the second byte. -/
def destination : RemapMode → Nat → Nat
  | extended, field => field
  | legacy _, field => field / 2 ^ 8 % 2 ^ 8

end RemapMode

/-- What is left of a request whose destination goes through an entry. -/
def InterruptRequest.through (mode : RemapMode) (request : InterruptRequest) : InterruptRequest :=
  { request with destination := mode.destination request.destination }

def VtdInterruptRemapTarget.request (target : VtdInterruptRemapTarget) : InterruptRequest :=
  ⟨target.destination.toNat, target.destinationModeLogical, target.redirectionHint,
    target.deliveryMode.code.toNat, target.vector.vector.toNat, target.triggerMode = .level⟩

namespace MsiMessage

/-- A message in the remapped format names an entry instead of a destination. -/
def remappable (message : MsiMessage) : Bool := message.address.toNat / 2 ^ 4 % 2 = 1

/-- A message in the plain format as the local interrupt controllers read it. -/
def request (message : MsiMessage) : InterruptRequest where
  destination := message.address.toNat / 2 ^ 12 % 2 ^ 8
  logical := message.address.toNat / 2 ^ 2 % 2 = 1
  redirectionHint := message.address.toNat / 2 ^ 3 % 2 = 1
  mode := message.data.toNat / 2 ^ 8 % 2 ^ 3
  vector := message.data.toNat % 2 ^ 8
  levelTriggered := message.data.toNat / 2 ^ 15 % 2 = 1

end MsiMessage

namespace VtdInterruptRemapEntry

def request (mode : RemapMode) (entry : VtdInterruptRemapEntry) : InterruptRequest where
  destination := mode.destination (entry.low.toNat / 2 ^ 32)
  logical := entry.low.toNat / 2 ^ 2 % 2 = 1
  redirectionHint := entry.low.toNat / 2 ^ 3 % 2 = 1
  mode := entry.low.toNat / 2 ^ 5 % 2 ^ 3
  vector := entry.low.toNat / 2 ^ 16 % 2 ^ 8
  levelTriggered := entry.low.toNat / 2 ^ 4 % 2 = 1

/-- The bits of the function number that a source qualifier leaves out of the comparison. -/
def ignoredBits (qualifier : Nat) : UInt16 :=
  match qualifier with
  | 0 => 0b000
  | 1 => 0b100
  | 2 => 0b110
  | _ => 0b111

/-- Whether the entry lets a requester use it: any one, the one it names under its qualifier, or one
on a bus between the two it names. -/
def admits (entry : VtdInterruptRemapEntry) (requester : UInt16) : Bool :=
  let source := entry.high.toUInt16
  match entry.high.toNat / 2 ^ 18 % 2 ^ 2 with
  | 0 => true
  | 1 =>
      let ignored := ignoredBits (entry.high.toNat / 2 ^ 16 % 2 ^ 2)
      requester ||| ignored = source ||| ignored
  | 2 => source >>> 8 ≤ requester >>> 8 ∧ requester >>> 8 ≤ source &&& 0xff
  | _ => false

end VtdInterruptRemapEntry

def remapped (mode : RemapMode) (lookup : UInt16 → Option VtdInterruptRemapEntry) (requester : UInt16)
    (message : MsiMessage) : Option InterruptRequest :=
  if message.remappable = true then
    if message.interruptIndex < 2 ^ 16 then
      (lookup (UInt16.ofNat message.interruptIndex)).bind fun entry =>
        if entry.admits requester then some (entry.request mode) else none
    else none
  else if mode.passesPlain = true then some message.request
  else none

section Plain

theorem bit_of_field {choice : Bool} {field : Nat} (holds : field % 2 ^ 1 = choice.toNat) :
    decide (field % 2 = 1) = choice := by
  cases choice <;> simp_all

end Plain

section Remapped

theorem fromTarget_request (mode : RemapMode) (source : PciDevice) (target : VtdInterruptRemapTarget) :
    (VtdInterruptRemapEntry.fromTarget source target).request mode = target.request.through mode := by
  have logical := Bool.toNat_le target.destinationModeLogical
  have hint := Bool.toNat_le target.redirectionHint
  have level := Bool.toNat_le (decide (target.triggerMode = .level))
  have code := code_lt target.deliveryMode
  have vector := target.vector.vector.toNat_lt
  have destination := target.destination.toNat_lt
  rw [VtdInterruptRemapEntry.request, VtdInterruptRemapTarget.request, InterruptRequest.through,
    InterruptRequest.mk.injEq, fromTarget_low_toNat, remapFlags_toNat]
  dsimp only
  refine ⟨congrArg mode.destination ?_, bit_of_field ?_, bit_of_field ?_, ?_, ?_, bit_of_field ?_⟩
  all_goals omega

/-- In legacy mode nothing is left of the destination of a plain message: the entry has it in the
first byte, and the second is read. -/
theorem message_through_legacy (delivery : X86MsiDelivery) (compatible : Bool) :
    delivery.message.request.through (.legacy compatible) =
      { delivery.message.request with destination := 0 } := by
  have small : delivery.message.request.destination < 2 ^ 8 := Nat.mod_lt _ (by decide)
  have lost : delivery.message.request.destination / 2 ^ 8 % 2 ^ 8 = 0 := by omega
  rw [InterruptRequest.through, RemapMode.destination, lost]

theorem fromTarget_admits (source : PciDevice) (target : VtdInterruptRemapTarget)
    (requester : UInt16) :
    (VtdInterruptRemapEntry.fromTarget source target).admits requester =
      decide (requester = source.bdf.raw) := by
  have bounded := source.bdf.raw.toNat_lt
  have high : (VtdInterruptRemapEntry.fromTarget source target).high.toNat =
      source.bdf.raw.toNat + 2 ^ 18 := sourceValidationHigh_toNat source.bdf.raw
  have validation : (VtdInterruptRemapEntry.fromTarget source target).high.toNat / 2 ^ 18 % 2 ^ 2 = 1 := by
    omega
  have qualifier : (VtdInterruptRemapEntry.fromTarget source target).high.toNat / 2 ^ 16 % 2 ^ 2 = 0 := by
    omega
  have named : (VtdInterruptRemapEntry.fromTarget source target).high.toUInt16 = source.bdf.raw := by
    apply UInt16.toNat_inj.mp
    rw [UInt64.toNat_toUInt16, high]
    omega
  simp only [VtdInterruptRemapEntry.admits, validation, qualifier, named,
    VtdInterruptRemapEntry.ignoredBits, UInt16.or_zero]

end Remapped

end Iommu
