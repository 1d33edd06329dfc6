import Iommu.Vtd.RangePlan
import Iommu.Vtd.Registers
import Iommu.Vtd.Tables

/-!
One remapping unit: the tables it routes requesters through, its invalidation
queue, and the controllers that attach domains to it. The queue and the registers
live in the world an operation runs in; the rest of the unit is its own record.
-/

namespace Iommu

open MachineWord Memory

def IOTLB_RANGE_DOMAIN_INVALIDATION_THRESHOLD : Nat := 32

def REMAPPED_MSI_INDEX_HIGH_BIT : UInt64 := (1 : UInt64) <<< 2
def REMAPPED_MSI_SUBHANDLE_VALID : UInt64 := (1 : UInt64) <<< 3
def REMAPPED_MSI_INTERRUPT_FORMAT : UInt64 := (1 : UInt64) <<< 4
def REMAPPED_MSI_INDEX_SHIFT : UInt64 := 5
def REMAPPED_MSI_INDEX_LOW_MASK : UInt16 := 0x7fff

structure MsiMessage where
  address : UInt64
  data : UInt32
  deriving DecidableEq, Repr

def remappedMsiMessage (entry : VtdInterruptEntry) (subhandle : UInt16) : MsiMessage where
  address := (0xfee00000 : UInt64) ||| REMAPPED_MSI_SUBHANDLE_VALID ||| REMAPPED_MSI_INTERRUPT_FORMAT |||
    (entry.index.toUInt64 >>> 15 &&& 0x1) * REMAPPED_MSI_INDEX_HIGH_BIT |||
    (entry.index &&& REMAPPED_MSI_INDEX_LOW_MASK).toUInt64 <<< REMAPPED_MSI_INDEX_SHIFT
  data := subhandle.toUInt32

structure VtdRemappedMsi where
  entry : VtdInterruptEntry
  subhandle : UInt16
  message : MsiMessage
  deriving DecidableEq, Repr

def VtdRemappedMsi.new (entry : VtdInterruptEntry) (subhandle : UInt16) : VtdRemappedMsi :=
  ⟨entry, subhandle, remappedMsiMessage entry subhandle⟩

def VtdRegisterWindow.composeInterruptRemap {QN : Nat} {Registers : Type} (mmu : Translation)
    (window : VtdRegisterWindow Registers) (table : VtdInterruptRemapTableBacking)
    (entry : VtdInterruptEntry) (subhandle : UInt16) (remap : VtdInterruptRemapEntry) :
    Effect (QueueWorld QN Registers) Error VtdRemappedMsi := do
  writeInterruptRemapEntry mmu table entry remap
  window.submitQueuedInvalidation mmu (.interruptEntryCache entry)
  pure (.new entry subhandle)

def vtdIotlbGranuleAddressMask : PageSize → Option Nat
  | .size4K => some 0
  | .size2M => some 9
  | .size1G => some 18
  | .other _ => none

structure VtdUnit (Registers : Type) where
  info : VtdInfo
  registers : VtdRegisterWindow Registers
  rootTable : VtdRootTableBacking
  contextTables : UInt8 → Option VtdContextTableBacking
  interruptRemapTable : Option VtdInterruptRemapTableBacking

inductive Invalidate
  | global
  | addressSpace
  | leaf (iova : UInt64) (granule : PageSize)
  | device (client : PciDevice)
  | deviceLeaf (client : PciDevice) (iova : UInt64) (granule : PageSize)
  deriving DecidableEq, Repr

structure InvalidateOutcome where
  scope : InvalidateScope
  queued : Bool
  deriving DecidableEq, Repr

namespace VtdUnit

variable {QN : Nat} {Registers : Type}

def new (info : VtdInfo) (registers : VtdRegisterWindow Registers)
    (rootTable : VtdRootTableBacking) : VtdUnit Registers :=
  ⟨info, registers, rootTable, fun _ => none, none⟩

def through {Other : Type} (unit : VtdUnit Registers) (registers : VtdRegisterWindow Other) :
    VtdUnit Other :=
  ⟨unit.info, registers, unit.rootTable, unit.contextTables, unit.interruptRemapTable⟩

def installInterruptRemapTable (unit : VtdUnit Registers) (table : VtdInterruptRemapTableBacking) :
    VtdUnit Registers :=
  { unit with interruptRemapTable := some table }

def installContextTable (mmu : Translation) (unit : VtdUnit Registers) (bus : UInt8)
    (table : VtdContextTableBacking) :
    Effect (QueueWorld QN Registers) Error (VtdUnit Registers) := do
  let entry ← .ofExcept (VtdRootEntry.fromContextTable table)
  writeRootEntry mmu unit.rootTable bus entry
  pure { unit with contextTables := Function.update unit.contextTables bus (some table) }

def contextTable (unit : VtdUnit Registers) (bus : UInt8) : Option VtdContextTableBacking :=
  unit.contextTables bus

def onRegisters {Value : Type} (effect : Effect Registers Error Value) :
    Effect (QueueWorld QN Registers) Error Value :=
  .within (fun world => world.env) (fun world env => { world with env }) effect

def installQueuedInvalidation (unit : VtdUnit Registers) (backing : CommandQueueBacking) :
    Effect (QueueWorld QN Registers) Error Unit := do
  let _ ← .ofExcept (VtdRegisterWindow.queuedInvalidationTableAddress backing)
  let initialised ← .get fun world => world.queue.init backing
  let queue ← .ofExcept initialised
  .modify fun world => { world with queue }
  onRegisters (unit.registers.setQueuedInvalidationTable backing)
  onRegisters (unit.registers.setQueuedInvalidationEnabled true)

def validateClient (unit : VtdUnit Registers) (client : PciDevice) : Except Error Unit :=
  if unit.info.segment.any (· ≠ client.segment) then .error .invalidClient else .ok ()

def contextTableForClient (unit : VtdUnit Registers) (client : PciDevice) :
    Except Error VtdContextTableBacking :=
  match unit.contextTable client.bus with
  | none => .error .controllerUnavailable
  | some table => .ok table

def submitQueuedInvalidation (mmu : Translation) (unit : VtdUnit Registers)
    (descriptor : VtdQueuedInvalidationDescriptor) : Effect (QueueWorld QN Registers) Error Unit :=
  submitWithTail mmu unit.registers unit.registers.writeInvalidateQueueTailShared descriptor

def invalidateContextDevice (mmu : Translation) (unit : VtdUnit Registers) (client : PciDevice) :
    Effect (QueueWorld QN Registers) Error Unit :=
  unit.submitQueuedInvalidation mmu (.contextDevice client)

def invalidateIotlbDomain (mmu : Translation) (unit : VtdUnit Registers) (domain : VtdIoDomain) :
    Effect (QueueWorld QN Registers) Error Unit :=
  unit.submitQueuedInvalidation mmu (.iotlbDomain domain unit.info.cap)

def invalidateIotlbGlobal (mmu : Translation) (unit : VtdUnit Registers) :
    Effect (QueueWorld QN Registers) Error Unit :=
  unit.submitQueuedInvalidation mmu (.iotlbGlobal unit.info.cap)

def invalidateIotlbPage (mmu : Translation) (unit : VtdUnit Registers) (domain : VtdIoDomain)
    (iova : UInt64) (granule : PageSize) :
    Effect (QueueWorld QN Registers) Error InvalidateScope :=
  match VtdQueuedInvalidationDescriptor.iotlbPage domain iova granule unit.info.cap with
  | .ok descriptor => do
      unit.submitQueuedInvalidation mmu descriptor
      pure .leaf
  | .error .featureUnavailable => do
      unit.invalidateIotlbDomain mmu domain
      pure .domain
  | .error error => .fail error

def blockIova (block : VtdIotlbRangeBlock) : Except Error UInt64 :=
  match checkedShl block.page 12 with
  | none => .error .addressOverflow
  | some address => .ok (UInt64.ofNat address)

/-- The submitting loop, with a bound on its rounds. -/
def submitBlocks (mmu : Translation) (unit : VtdUnit Registers) (domain : VtdIoDomain) :
    Nat → VtdIotlbRangePlan → Effect (QueueWorld QN Registers) Error Unit
  | 0, _ => pure ()
  | rounds + 1, cursor =>
      match cursor.nextBlock with
      | none => pure ()
      | some (block, next) => do
          let iova ← .ofExcept (blockIova block)
          let descriptor ← .ofExcept (VtdQueuedInvalidationDescriptor.iotlbPageWithAddressMask
            domain iova block.addressMask unit.info.cap)
          unit.submitQueuedInvalidation mmu descriptor
          submitBlocks mmu unit domain rounds next

def invalidateIotlbRange (mmu : Translation) (unit : VtdUnit Registers) (domain : VtdIoDomain)
    (start : UInt64) (pageSize : PageSize) (countPages : Nat) :
    Effect (QueueWorld QN Registers) Error InvalidateScope :=
  if countPages = 0 then pure .leaf
  else
    let cap := unit.info.cap
    match vtdIotlbGranuleAddressMask pageSize with
    | none => do
        unit.invalidateIotlbDomain mmu domain
        pure .domain
    | some minMask =>
        let maxMask := min (min cap.maxAddressMaskValue IVA_AM_MASK) 63
        match checkedShl 1 minMask with
        | none => .fail .addressOverflow
        | some pageSpan =>
            let startPage := ((start &&& PAGE_ADDR_MASK) >>> 12).toNat
            if !cap.pageSelectiveInvalidation ∨ maxMask < minMask ∨
                startPage &&& (pageSpan - 1) ≠ 0 then do
              unit.invalidateIotlbDomain mmu domain
              pure .domain
            else
              match checkedMul countPages pageSpan with
              | none => .fail .addressOverflow
              | some totalPages => do
                  let plan ← .ofExcept (VtdIotlbRangePlan.new startPage totalPages minMask maxMask)
                  if IOTLB_RANGE_DOMAIN_INVALIDATION_THRESHOLD < plan.descriptorCount then do
                    unit.invalidateIotlbDomain mmu domain
                    pure .domain
                  else do
                    unit.submitBlocks mmu domain plan.remainingPages plan
                    pure .leaf

/-- A binding to another domain than the controller's own. -/
def foreignDomain (activeDomain : VtdDomain) : BindingTarget VtdDomain → Bool
  | .domain domain => domain ≠ activeDomain
  | .abort => false
  | .passThrough => false

def bindContext (mmu : Translation) (unit : VtdUnit Registers) (activeDomain : VtdDomain)
    (binding : Binding PciDevice VtdDomain) : Effect (QueueWorld QN Registers) Error Unit :=
  if binding.selector ≠ .default then .fail .featureUnavailable
  else do
    .ofExcept (unit.validateClient binding.client)
    if foreignDomain activeDomain binding.target then .fail .invalidAddressSpace
    else do
      let table ← .ofExcept (unit.contextTableForClient binding.client)
      let entry ← .ofExcept (VtdContextEntry.fromBinding binding unit.info.ecap)
      writeContextEntry mmu table binding.client entry
      unit.invalidateContextDevice mmu binding.client
      unit.invalidateIotlbDomain mmu activeDomain.id

def unbindContext (mmu : Translation) (unit : VtdUnit Registers) (domain : VtdDomain)
    (client : PciDevice) (selector : BindingSelector) :
    Effect (QueueWorld QN Registers) Error Unit :=
  if selector ≠ .default then .fail .featureUnavailable
  else do
    .ofExcept (unit.validateClient client)
    let table ← .ofExcept (unit.contextTableForClient client)
    writeContextEntry mmu table client .disabled
    unit.invalidateContextDevice mmu client
    unit.invalidateIotlbDomain mmu domain.id

def sample : VtdUnit UInt64 :=
  .new ⟨some 0, ⟨0x0009008c002f0400⟩, ⟨0⟩⟩ .prompt .sample

def sampleWorld : QueueWorld 2 UInt64 := ⟨.ready descriptorRing, fun _ => 0, 0, []⟩

theorem sampleWorld_mapped : sampleWorld.RingMapped id := by
  intro backing active
  obtain rfl := Option.some.inj active
  exact fun _ _ => rfl

end VtdUnit

/-- The facade of one domain; the unit it borrows is passed to its operations. -/
structure VtdDomainController where
  domain : VtdDomain
  deriving DecidableEq, Repr

namespace VtdDomainController

variable {QN : Nat} {Registers : Type}

def bind (mmu : Translation) (controller : VtdDomainController) (unit : VtdUnit Registers)
    (binding : Binding PciDevice VtdDomain) : Effect (QueueWorld QN Registers) Error Unit :=
  unit.bindContext mmu controller.domain binding

def unbind (mmu : Translation) (controller : VtdDomainController) (unit : VtdUnit Registers)
    (client : PciDevice) (selector : BindingSelector) :
    Effect (QueueWorld QN Registers) Error Unit :=
  unit.unbindContext mmu controller.domain client selector

def invalidate (mmu : Translation) (controller : VtdDomainController) (unit : VtdUnit Registers) :
    Invalidate → Effect (QueueWorld QN Registers) Error InvalidateOutcome
  | .global => do
      unit.invalidateIotlbGlobal mmu
      pure ⟨.global, true⟩
  | .addressSpace => do
      unit.invalidateIotlbDomain mmu controller.domain.id
      pure ⟨.domain, true⟩
  | .leaf iova granule => do
      let scope ← unit.invalidateIotlbPage mmu controller.domain.id iova granule
      pure ⟨scope, true⟩
  | .device _ => .fail .featureUnavailable
  | .deviceLeaf _ _ _ => .fail .featureUnavailable

end VtdDomainController

end Iommu
