import Iommu.Library.Spans
import Mathlib.Algebra.Group.Nat.Defs

/-!
PCI requester identities and ranges of them. Ranges carry the bounds their
constructors check, so a reversed or oversized range cannot be built.
-/

namespace Iommu

structure Bdf where
  raw : UInt16
  deriving DecidableEq, Repr

inductive PciDeviceError
  | deviceOutOfRange
  | functionOutOfRange
  deriving DecidableEq, Repr

namespace Bdf

def new (bus device function : UInt8) : Except PciDeviceError Bdf :=
  if device ≥ 32 then .error .deviceOutOfRange
  else if function ≥ 8 then .error .functionOutOfRange
  else .ok ⟨bus.toUInt16 <<< 8 ||| device.toUInt16 <<< 3 ||| function.toUInt16⟩

def asU32 (bdf : Bdf) : Nat := bdf.raw.toNat

def bus (bdf : Bdf) : UInt8 := (bdf.raw >>> 8).toUInt8

def device (bdf : Bdf) : UInt8 := (bdf.raw >>> 3 &&& 0x1f).toUInt8

def function (bdf : Bdf) : UInt8 := (bdf.raw &&& 0x07).toUInt8

theorem asU32_lt (bdf : Bdf) : bdf.asU32 < 0x10000 := bdf.raw.toNat_lt

end Bdf

structure PciDevice where
  raw : UInt32
  deriving DecidableEq, Repr

namespace PciDevice

def fromSegmentBdf (segment : UInt16) (bdf : Bdf) : PciDevice :=
  ⟨segment.toUInt32 <<< 16 ||| bdf.raw.toUInt32⟩

def new (segment : UInt16) (bus device function : UInt8) : Except PciDeviceError PciDevice :=
  (Bdf.new bus device function).map (fromSegmentBdf segment)

def bdf (device : PciDevice) : Bdf := ⟨(device.raw &&& 0xffff).toUInt16⟩

def segment (device : PciDevice) : UInt16 := (device.raw >>> 16).toUInt16

def bus (device : PciDevice) : UInt8 := (device.raw >>> 8 &&& 0xff).toUInt8

def device (requester : PciDevice) : UInt8 := (requester.raw >>> 3 &&& 0x1f).toUInt8

def function (device : PciDevice) : UInt8 := (device.raw &&& 0x07).toUInt8

theorem fromSegmentBdf_toNat (segment : UInt16) (bdf : Bdf) :
    (fromSegmentBdf segment bdf).raw.toNat = segment.toNat * 2 ^ 16 + bdf.raw.toNat := by
  have high := segment.toNat_lt
  have low := bdf.raw.toNat_lt
  have shifted : (segment.toUInt32 <<< 16).toNat = 2 ^ 16 * segment.toNat := by
    simp only [UInt32.toNat_shiftLeft, UInt16.toNat_toUInt32, UInt32.reduceToNat, Nat.reduceMod,
      Nat.shiftLeft_eq]
    omega
  rw [fromSegmentBdf, UInt32.toNat_or, shifted, UInt16.toNat_toUInt32,
    ← Nat.two_pow_add_eq_or_of_lt low, Nat.mul_comm]

theorem segment_toNat (device : PciDevice) : device.segment.toNat = device.raw.toNat / 2 ^ 16 := by
  have bounded := device.raw.toNat_lt
  simp only [segment, UInt32.toNat_toUInt16, UInt32.toNat_shiftRight, Nat.shiftRight_eq_div_pow,
    UInt32.reduceToNat, Nat.reduceMod]
  omega

theorem segment_fromSegmentBdf (segment : UInt16) (bdf : Bdf) :
    (fromSegmentBdf segment bdf).segment = segment := by
  have low := bdf.raw.toNat_lt
  rw [← UInt16.toNat_inj, segment_toNat, fromSegmentBdf_toNat]
  omega

theorem bdf_fromSegmentBdf (segment : UInt16) (bdf : Bdf) :
    (fromSegmentBdf segment bdf).bdf = bdf := by
  have low := bdf.raw.toNat_lt
  have field : ((fromSegmentBdf segment bdf).raw &&& 0xffff).toNat = bdf.raw.toNat := by
    rw [UInt32.toNat_and, fromSegmentBdf_toNat]
    exact (Nat.and_two_pow_sub_one_eq_mod _ 16).trans (by omega)
  cases bdf with
  | mk raw =>
    rw [PciDevice.bdf, Bdf.mk.injEq, ← UInt16.toNat_inj, UInt32.toNat_toUInt16, field]
    exact Nat.mod_eq_of_lt low

theorem bus_toNat (device : PciDevice) : device.bus.toNat = device.raw.toNat / 2 ^ 8 % 2 ^ 8 := by
  have byte : (device.raw >>> 8 &&& 0xff).toNat = device.raw.toNat / 2 ^ 8 % 2 ^ 8 := by
    rw [UInt32.toNat_and, UInt32.toNat_shiftRight, Nat.shiftRight_eq_div_pow]
    exact Nat.and_two_pow_sub_one_eq_mod _ 8
  rw [bus, UInt32.toNat_toUInt8, byte]
  omega

theorem device_toNat (requester : PciDevice) :
    requester.device.toNat = requester.raw.toNat / 2 ^ 3 % 2 ^ 5 := by
  have field : (requester.raw >>> 3 &&& 0x1f).toNat = requester.raw.toNat / 2 ^ 3 % 2 ^ 5 := by
    rw [UInt32.toNat_and, UInt32.toNat_shiftRight, Nat.shiftRight_eq_div_pow]
    exact Nat.and_two_pow_sub_one_eq_mod _ 5
  rw [device, UInt32.toNat_toUInt8, field]
  omega

theorem function_toNat (requester : PciDevice) :
    requester.function.toNat = requester.raw.toNat % 2 ^ 3 := by
  have field : (requester.raw &&& 0x07).toNat = requester.raw.toNat % 2 ^ 3 := by
    rw [UInt32.toNat_and]
    exact Nat.and_two_pow_sub_one_eq_mod _ 3
  rw [function, UInt32.toNat_toUInt8, field]
  omega

end PciDevice

inductive BdfRangeError
  | reversed
  | outOfRange
  deriving DecidableEq, Repr

structure BdfRange where
  start : Bdf
  endExclusive : Nat
  ordered : start.asU32 ≤ endExclusive
  bounded : endExclusive ≤ 0x10000
  deriving DecidableEq

namespace BdfRange

def EMPTY : BdfRange := ⟨⟨0⟩, 0, by decide, by decide⟩

def single (bdf : Bdf) : BdfRange := ⟨bdf, bdf.asU32 + 1, Nat.le_succ _, bdf.asU32_lt⟩

def inclusive (start last : Bdf) : Except BdfRangeError BdfRange :=
  if reversed : last.raw < start.raw then .error .reversed
  else .ok ⟨start, last.asU32 + 1, Nat.le_succ_of_le (Nat.le_of_not_lt reversed), last.asU32_lt⟩

def isEmpty (range : BdfRange) : Bool := range.endExclusive = range.start.asU32

def contains (range : BdfRange) (bdf : Bdf) : Bool :=
  range.start.asU32 ≤ bdf.asU32 ∧ bdf.asU32 < range.endExclusive

def fromBounds (start endExclusive : Nat) : Except BdfRangeError BdfRange :=
  if inside : start ≤ 0xffff ∧ endExclusive ≤ 0x10000 then
    if ordered : start ≤ endExclusive then
      .ok ⟨⟨UInt16.ofNat start⟩, endExclusive, by
        rw [Bdf.asU32, UInt16.toNat_ofNat_of_lt' (Nat.lt_succ_of_le inside.1)]
        exact ordered, inside.2⟩
    else .error .reversed
  else .error .outOfRange

def span (range : BdfRange) : Span Nat := ⟨range.start.asU32, range.endExclusive⟩

theorem span_injective {first second : BdfRange} (same : first.span = second.span) :
    first = second := by
  obtain ⟨⟨firstRaw⟩, firstEnd, _, _⟩ := first
  obtain ⟨⟨secondRaw⟩, secondEnd, _, _⟩ := second
  simp only [span, Bdf.asU32, Span.mk.injEq, UInt16.toNat_inj] at same
  obtain ⟨rfl, rfl⟩ := same
  rfl

theorem span_proper {range : BdfRange} (filled : range.isEmpty = false) : range.span.Proper := by
  have ordered := range.ordered
  simp only [isEmpty, decide_eq_false_iff_not] at filled
  simp only [Span.Proper, span]
  omega

theorem contains_iff (range : BdfRange) (bdf : Bdf) :
    range.contains bdf = true ↔ range.span.Contains bdf.asU32 := by
  simp [contains, span, Span.Contains]

theorem single_contains (held bdf : Bdf) : (single held).contains bdf = true ↔ bdf = held := by
  cases held with
  | mk heldRaw =>
    cases bdf with
    | mk raw =>
      rw [contains_iff, Bdf.mk.injEq, ← UInt16.toNat_inj]
      simp only [Span.Contains, span, single, Bdf.asU32]
      omega

theorem inclusive_of_le {start last : Bdf} (ordered : start.asU32 ≤ last.asU32) :
    ∃ range, inclusive start last = .ok range ∧ range.isEmpty = false ∧
      ∀ bdf, range.contains bdf = true ↔ start.asU32 ≤ bdf.asU32 ∧ bdf.asU32 ≤ last.asU32 := by
  refine ⟨_, dif_neg (Nat.not_lt_of_le ordered), ?_, fun bdf => ?_⟩
  · simp only [isEmpty, decide_eq_false_iff_not]
    omega
  · rw [contains_iff]
    simp only [Span.Contains, span, Nat.lt_succ_iff]

theorem inclusive_span {start last : Bdf} {range : BdfRange} (built : inclusive start last = .ok range) :
    range.span = ⟨start.asU32, last.asU32 + 1⟩ := by
  rw [inclusive] at built
  split at built
  · cases built
  · cases built
    rfl

theorem fromBounds_of_bounds {start endExclusive : Nat} (first : start ≤ 0xffff)
    (last : endExclusive ≤ 0x10000) (ordered : start ≤ endExclusive) :
    ∃ range, fromBounds start endExclusive = .ok range ∧ range.span = ⟨start, endExclusive⟩ := by
  rw [fromBounds, dif_pos ⟨first, last⟩, dif_pos ordered]
  refine ⟨_, rfl, ?_⟩
  simp only [span, Bdf.asU32, Span.mk.injEq, and_true]
  exact UInt16.toNat_ofNat_of_lt' (Nat.lt_succ_of_le first)

end BdfRange

end Iommu
