import Iommu.Vtd.Unit

/-!
Fault polling: one observation a call, decoded from the fault status register or
from the fault record it points at, and cleared by writing ones.
-/

namespace Iommu

open MachineWord

def FSTS_PFO : UInt32 := (1 : UInt32) <<< 0
def FSTS_PPF : UInt32 := (1 : UInt32) <<< 1
def FSTS_AFO : UInt32 := (1 : UInt32) <<< 2
def FSTS_APF : UInt32 := (1 : UInt32) <<< 3
def FSTS_IQE : UInt32 := (1 : UInt32) <<< 4
def FSTS_ICE : UInt32 := (1 : UInt32) <<< 5
def FSTS_ITE : UInt32 := (1 : UInt32) <<< 6
def FSTS_PRO : UInt32 := (1 : UInt32) <<< 7
def FSTS_FRI_SHIFT : UInt32 := 8
def FSTS_FRI_MASK : UInt32 := 0xff

def FRCD_ENTRY_STRIDE : Nat := 16
def FRCD_LOW_OFFSET : Nat := 0
def FRCD_HIGH_OFFSET : Nat := 8
def FRCDL_FAULT_INFO_MASK : UInt64 := ~~~0xfff
def FRCDH_FAULT : UInt64 := (1 : UInt64) <<< 63
def FRCDH_TYPE_1 : UInt64 := (1 : UInt64) <<< 62
def FRCDH_REASON_SHIFT : UInt64 := 32
def FRCDH_REASON_MASK : UInt64 := 0xff
def FRCDH_PRIVILEGE : UInt64 := (1 : UInt64) <<< 31
def FRCDH_EXECUTE : UInt64 := (1 : UInt64) <<< 30
def FRCDH_TYPE_2 : UInt64 := (1 : UInt64) <<< 28
def FRCDH_SOURCE_ID_MASK : UInt64 := 0xffff

inductive VtdFaultReason
  | primary (raw : UInt8)
  | primaryFaultOverflow
  | advancedFaultOverflow
  | advancedPendingFault
  | invalidationQueueError
  | invalidationCompletionError
  | invalidationTimeout
  | pageRequestOverflow
  deriving DecidableEq, Repr

structure DmaAccess where
  read : Bool
  write : Bool
  execute : Bool
  user : Bool
  deriving DecidableEq, Repr

def DmaAccess.empty : DmaAccess := ⟨false, false, false, false⟩

structure VtdFault where
  reason : VtdFaultReason
  sourceId : Option UInt16
  client : Option PciDevice
  iova : Option UInt64
  access : DmaAccess
  recordIndex : Option UInt16
  overflow : Bool
  pending : Bool
  deriving DecidableEq, Repr

def statusReason (status : UInt32) : Option VtdFaultReason :=
  if status &&& FSTS_PFO ≠ 0 then some .primaryFaultOverflow
  else if status &&& FSTS_AFO ≠ 0 then some .advancedFaultOverflow
  else if status &&& FSTS_APF ≠ 0 then some .advancedPendingFault
  else if status &&& FSTS_IQE ≠ 0 then some .invalidationQueueError
  else if status &&& FSTS_ICE ≠ 0 then some .invalidationCompletionError
  else if status &&& FSTS_ITE ≠ 0 then some .invalidationTimeout
  else if status &&& FSTS_PRO ≠ 0 then some .pageRequestOverflow
  else none

def decodeFaultStatus (status : UInt32) : Option VtdFault :=
  (statusReason status).map fun reason => {
    reason
    sourceId := none
    client := none
    iova := none
    access := .empty
    recordIndex := none
    overflow := reason = .primaryFaultOverflow ∨ reason = .advancedFaultOverflow
    pending := status &&& FSTS_PPF ≠ 0
  }

def primaryAccess (high : UInt64) : DmaAccess :=
  let execute := high &&& FRCDH_EXECUTE ≠ 0
  let read := high &&& (FRCDH_TYPE_1 ||| FRCDH_TYPE_2) ≠ 0 ∨ execute
  { read, execute, write := ¬read, user := high &&& FRCDH_PRIVILEGE = 0 }

def decodePrimaryFault (segment index : UInt16) (low high : UInt64) : VtdFault :=
  let sourceId := (high &&& FRCDH_SOURCE_ID_MASK).toUInt16
  { reason := .primary (high >>> FRCDH_REASON_SHIFT &&& FRCDH_REASON_MASK).toUInt8
    sourceId := some sourceId
    client := some (.fromSegmentBdf segment ⟨sourceId⟩)
    iova := some (low &&& FRCDL_FAULT_INFO_MASK)
    access := primaryAccess high
    recordIndex := some index
    overflow := false
    pending := true }

def checkedOffset (base offset : Nat) : Except Error Nat :=
  match checkedAdd base offset with
  | none => .error .addressOverflow
  | some sum => .ok sum

def faultRecordIndex (status : UInt32) : UInt16 :=
  (status >>> FSTS_FRI_SHIFT &&& FSTS_FRI_MASK).toUInt16

/-- The status bits a poll clears, whichever of them it reports. -/
def FSTS_CLEARED : UInt32 :=
  FSTS_PFO ||| FSTS_AFO ||| FSTS_APF ||| FSTS_IQE ||| FSTS_ICE ||| FSTS_ITE ||| FSTS_PRO

namespace VtdUnit

variable {Registers : Type}

def clearFaultStatus (unit : VtdUnit Registers) (status : UInt32) : Effect Registers Error Unit :=
  let bits := status &&& FSTS_CLEARED
  if bits ≠ 0 then .ignore (unit.registers.write32 REG_FSTS bits) else pure ()

def pollPrimaryFault (unit : VtdUnit Registers) (status : UInt32) :
    Effect Registers Error (Option VtdFault) :=
  let index := faultRecordIndex status
  if unit.info.cap.faultRecordCount ≤ index.toNat then .fail .controllerUnavailable
  else do
    let record ← .ofExcept (checkedOffset unit.info.cap.faultRecordRegisterOffset
      (index.toNat * FRCD_ENTRY_STRIDE))
    let lowOffset ← .ofExcept (checkedOffset record FRCD_LOW_OFFSET)
    let low ← unit.registers.read64 lowOffset
    let highOffset ← .ofExcept (checkedOffset record FRCD_HIGH_OFFSET)
    let high ← unit.registers.read64 highOffset
    if high &&& FRCDH_FAULT = 0 then .fail .controllerUnavailable
    else do
      unit.registers.write64 (record + FRCD_HIGH_OFFSET) high
      pure (some (decodePrimaryFault (unit.info.segment.getD 0) index low high))

def pollFault (unit : VtdUnit Registers) : Effect Registers Error (Option VtdFault) := do
  let status ← unit.registers.faultStatus
  if status &&& FSTS_PPF ≠ 0 then unit.pollPrimaryFault status
  else
    match decodeFaultStatus status with
    | some fault => do
        unit.clearFaultStatus status
        pure (some fault)
    | none => pure none

end VtdUnit

end Iommu
