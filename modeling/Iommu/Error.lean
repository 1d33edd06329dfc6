import Mathlib.Algebra.Group.Nat.Defs
import Mathlib.Tactic.Common

/-! The shared failure modes of the crate. -/

namespace Iommu

inductive PagingError
  | notAligned
  | invalidMappingShape
  | other (code : Nat)
  deriving DecidableEq, Repr

inductive Error
  | unsupported
  | controllerUnavailable
  | invalidController
  | invalidAddressSpace
  | invalidClient
  | invalidBinding
  | invalidAddress
  | invalidRange
  | invalidGranule
  | invalidWidth
  | alreadyMapped
  | notMapped
  | featureUnavailable
  | addressOverflow
  | pageTable (error : PagingError)
  deriving DecidableEq, Repr

inductive VtdError
  | unsupportedAddressWidth
  | unsupportedGranule
  | pageSelectiveInvalidationUnavailable
  | invalidDomainId
  | invalidSourceId
  | registerTransitionTimeout
  deriving DecidableEq, Repr

def VtdError.toError : VtdError → Error
  | .unsupportedAddressWidth => .invalidWidth
  | .unsupportedGranule => .invalidGranule
  | .pageSelectiveInvalidationUnavailable => .featureUnavailable
  | .invalidDomainId => .invalidAddressSpace
  | .invalidSourceId => .invalidClient
  | .registerTransitionTimeout => .controllerUnavailable

end Iommu
