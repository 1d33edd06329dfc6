import Iommu.Dmar.ScopeEntries

/-!
The layout of a DMAR table as VT-d specifies it, and what a parse of a table laid out so is to
report: every structure in turn, and the device scopes behind its fixed part.
-/

namespace Iommu

open MachineWord

structure VtdScope where
  kind : UInt8
  flags : UInt8
  enumerationId : UInt8
  startBus : UInt8
  path : List DmarDeviceScopePathEntry
  short : 6 + 2 * path.length < 256

namespace VtdScope

def pathBytes (scope : VtdScope) : List UInt8 :=
  scope.path.flatMap fun entry => [entry.device, entry.function]

def bytes (scope : VtdScope) : List UInt8 :=
  [scope.kind, .ofNat (6 + 2 * scope.path.length), scope.flags, 0, scope.enumerationId,
    scope.startBus] ++ scope.pathBytes

/-- The device at the end of a way of one step; buses behind a bridge are not known. -/
def requester (scope : VtdScope) : Option BdfRange :=
  match scope.path with
  | [entry] => (Bdf.new scope.startBus entry.device entry.function).toOption.map .single
  | _ => none

def reported (scope : VtdScope) : DmarDeviceScope where
  kind := .fromRaw scope.kind
  flags := scope.flags
  enumerationId := scope.enumerationId
  startBus := scope.startBus
  path := ⟨scope.pathBytes⟩
  requester := scope.requester

end VtdScope

abbrev RegisterBase := { base : UInt64 // base.toNat + VTD_REGISTER_WINDOW_SIZE < limit }

def RegisterBase.window (base : RegisterBase) : AddrRange :=
  .fromStartSize base.1.toNat VTD_REGISTER_WINDOW_SIZE base.2

structure ReservedMemory where
  base : UInt64
  last : UInt64
  ordered : base.toNat ≤ last.toNat
  mapped : last.toNat + 1 < limit

def ReservedMemory.range (memory : ReservedMemory) : AddrRange :=
  ⟨memory.base.toNat, memory.last.toNat + 1, Nat.le_succ_of_le memory.ordered, memory.mapped⟩

/-- A structure as it is meant; the kinds up to 6 are the ones with a meaning. -/
inductive VtdStructure
  | drhd (flags size : UInt8) (segment : UInt16) (base : RegisterBase) (scopes : List VtdScope)
  | rmrr (segment : UInt16) (memory : ReservedMemory) (scopes : List VtdScope)
  | atsr (flags : UInt8) (segment : UInt16) (scopes : List VtdScope)
  | rhsa (base : RegisterBase) (proximityDomain : UInt32)
  | andd (acpiDeviceNumber : UInt8) (objectName : List UInt8)
  | satc (flags : UInt8) (segment : UInt16) (scopes : List VtdScope)
  | sidp (segment : UInt16) (scopes : List VtdScope)
  | other (kind : { kind : UInt16 // 6 < kind.toNat }) (body : List UInt8)

namespace VtdStructure

def kind : VtdStructure → UInt16
  | drhd .. => DMAR_DRHD
  | rmrr .. => DMAR_RMRR
  | atsr .. => DMAR_ATSR
  | rhsa .. => DMAR_RHSA
  | andd .. => DMAR_ANDD
  | satc .. => DMAR_SATC
  | sidp .. => DMAR_SIDP
  | other kind _ => kind.1

def fixed : VtdStructure → List UInt8
  | drhd flags size segment base _ =>
      [flags, size] ++ Memory.toBytesLE 2 segment.toNat ++ Memory.toBytesLE 8 base.1.toNat
  | rmrr segment memory _ =>
      [0, 0] ++ Memory.toBytesLE 2 segment.toNat ++ Memory.toBytesLE 8 memory.base.toNat ++
        Memory.toBytesLE 8 memory.last.toNat
  | atsr flags segment _ => [flags, 0] ++ Memory.toBytesLE 2 segment.toNat
  | rhsa base proximityDomain =>
      [0, 0, 0, 0] ++ Memory.toBytesLE 8 base.1.toNat ++ Memory.toBytesLE 4 proximityDomain.toNat
  | andd acpiDeviceNumber _ => [0, 0, 0, acpiDeviceNumber]
  | satc flags segment _ => [flags, 0] ++ Memory.toBytesLE 2 segment.toNat
  | sidp segment _ => [0, 0] ++ Memory.toBytesLE 2 segment.toNat
  | other _ _ => []

def scopes : VtdStructure → List VtdScope
  | drhd _ _ _ _ scopes => scopes
  | rmrr _ _ scopes => scopes
  | atsr _ _ scopes => scopes
  | rhsa _ _ => []
  | andd _ _ => []
  | satc _ _ scopes => scopes
  | sidp _ scopes => scopes
  | other _ _ => []

def behind : VtdStructure → List UInt8
  | andd _ objectName => objectName
  | other _ body => body
  | found => found.scopes.flatMap VtdScope.bytes

def length (found : VtdStructure) : Nat := 4 + found.fixed.length + found.behind.length

def bytes (found : VtdStructure) : List UInt8 :=
  Memory.toBytesLE 2 found.kind.toNat ++ Memory.toBytesLE 2 found.length ++ found.fixed ++ found.behind

def reported (found : VtdStructure) (offset : Nat) : DmarStructure :=
  match found with
  | drhd flags _ segment base scopes => .drhd {
      flags, segment
      registers := base.window
      includeAll := flags &&& 0x01 ≠ 0
      hasDeviceScopes := scopes ≠ []
      structureOffset := offset
      length := found.length
    }
  | rmrr segment memory scopes => .rmrr {
      segment
      memory := memory.range
      hasDeviceScopes := scopes ≠ []
      structureOffset := offset
      length := found.length
    }
  | atsr flags segment scopes => .atsr {
      flags, segment
      includeAll := flags &&& 0x01 ≠ 0
      hasDeviceScopes := scopes ≠ []
      structureOffset := offset
      length := found.length
    }
  | rhsa base proximityDomain => .rhsa { registers := base.window, proximityDomain }
  | andd acpiDeviceNumber objectName => .andd { acpiDeviceNumber, objectName }
  | satc flags segment scopes => .satc {
      flags, segment
      atcRequired := flags &&& 0x01 ≠ 0
      hasDeviceScopes := scopes ≠ []
      structureOffset := offset
      length := found.length
    }
  | sidp segment scopes => .sidp {
      segment
      hasDeviceScopes := scopes ≠ []
      structureOffset := offset
      length := found.length
    }
  | other kind _ => .unknown { kind := kind.1, offset, length := found.length }

def placed : Nat → List VtdStructure → List (Nat × VtdStructure)
  | _, [] => []
  | offset, found :: rest => (offset, found) :: placed (offset + found.length) rest

end VtdStructure

/-- A table: what its header has behind the length, and the structures. -/
structure VtdTable where
  header : List UInt8
  structures : List VtdStructure
  whole : header.length = 40
  fits : ∀ found ∈ structures, found.length < 2 ^ 16
  short : 48 + (structures.flatMap VtdStructure.bytes).length < 2 ^ 32

def VtdTable.bytes (image : VtdTable) : List UInt8 :=
  DMAR.signature ++ Memory.toBytesLE 4 (48 + (image.structures.flatMap VtdStructure.bytes).length) ++
    image.header ++ image.structures.flatMap VtdStructure.bytes

/-- The structures of the table parse to what they are meant to be, one for one, and so do the scopes
of each. -/
structure DmarTable.RoundTrips (table : DmarTable) (meant : List VtdStructure) : Prop where
  structures : table.structures = .ok
    ((VtdStructure.placed DMAR_STRUCTURES_OFFSET meant).map fun placed =>
      .ok (placed.2.reported placed.1))
  scopes : ∀ placed ∈ VtdStructure.placed DMAR_STRUCTURES_OFFSET meant,
    ∀ region, (placed.2.reported placed.1).scopeRegion = some region →
      table.deviceScopes region.1 region.2.1 region.2.2 =
        (placed.2.scopes.map VtdScope.reported, .ok ())

end Iommu
