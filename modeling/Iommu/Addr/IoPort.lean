import Iommu.Addr
import Mathlib.Order.Interval.Finset.Nat

/-!
Ports of the 16-bit I/O space and ranges of them. The end of a range is exclusive, so that a range
ends at the last port only when its end is not a port any more.
-/

namespace Iommu

structure IoPort where
  raw : UInt16
  deriving DecidableEq

def IoPort.checkedAdd (port : IoPort) (offset : UInt16) : Option IoPort :=
  if port.raw.toNat + offset.toNat < 2 ^ 16 then some ⟨port.raw + offset⟩ else none

structure IoPortRange where
  start : IoPort
  endPort : IoPort
  deriving DecidableEq

namespace IoPortRange

def new (start endPort : IoPort) : IoPortRange := ⟨start, endPort⟩

def fromStartSize (start : IoPort) (size : UInt16) : Option IoPortRange := do
  let endPort ← start.checkedAdd size
  pure ⟨start, endPort⟩

/-- The subtraction panics when it is built with checks for overflow, and wraps without them. -/
def size (overflowChecks : Bool) (range : IoPortRange) : Parse Empty UInt16 :=
  if range.endPort.raw < range.start.raw ∧ overflowChecks = true then .error .panicked
  else .ok (range.endPort.raw - range.start.raw)

def isEmpty (range : IoPortRange) : Bool := range.endPort.raw ≤ range.start.raw

def contains (range : IoPortRange) (port : IoPort) : Bool :=
  range.start.raw ≤ port.raw ∧ port.raw < range.endPort.raw

def ports (range : IoPortRange) : Finset Nat :=
  (Finset.range (2 ^ 16)).filter fun raw => range.contains ⟨.ofNat raw⟩

/-- The size is how many ports there are, and zero for an empty range only. -/
def CountsPorts (overflowChecks : Bool) (range : IoPortRange) : Prop :=
  ∃ count, range.size overflowChecks = .ok count ∧ count.toNat = range.ports.card ∧
    (count = 0 ↔ range.isEmpty = true)

variable {start endPort : IoPort} {amount : UInt16} {range : IoPortRange}

theorem ports_eq (range : IoPortRange) :
    range.ports = Finset.Ico range.start.raw.toNat range.endPort.raw.toNat := by
  ext raw
  have last := range.endPort.raw.toNat_lt
  simp only [ports, contains, Finset.mem_filter, Finset.mem_range, Finset.mem_Ico,
    decide_eq_true_eq, UInt16.le_iff_toNat_le, UInt16.lt_iff_toNat_lt]
  constructor
  · rintro ⟨below, inside⟩
    rwa [UInt16.toNat_ofNat_of_lt' below] at inside
  · intro inside
    have below : raw < 2 ^ 16 := by omega
    rw [UInt16.toNat_ofNat_of_lt' below]
    exact ⟨below, inside⟩

theorem card_ports (range : IoPortRange) :
    range.ports.card = range.endPort.raw.toNat - range.start.raw.toNat := by
  rw [ports_eq, Nat.card_Ico]

theorem isEmpty_iff : range.isEmpty = true ↔ range.endPort.raw.toNat ≤ range.start.raw.toNat := by
  rw [isEmpty, decide_eq_true_eq, UInt16.le_iff_toNat_le]

theorem countsPorts_of_le (overflowChecks : Bool) (ordered : range.start.raw ≤ range.endPort.raw) :
    range.CountsPorts overflowChecks := by
  have counted : (range.endPort.raw - range.start.raw).toNat =
      range.endPort.raw.toNat - range.start.raw.toNat := UInt16.toNat_sub_of_le _ _ ordered
  have before := UInt16.le_iff_toNat_le.mp ordered
  refine ⟨range.endPort.raw - range.start.raw, ?_, ?_, ?_⟩
  · rw [size, if_neg]
    rintro ⟨reversed, _⟩
    exact absurd (UInt16.lt_iff_toNat_lt.mp reversed) (Nat.not_lt.mpr before)
  · rw [counted, card_ports]
  · rw [← UInt16.toNat_inj, counted, isEmpty_iff, UInt16.toNat_zero, Nat.sub_eq_zero_iff_le]

theorem not_countsPorts_of_lt (overflowChecks : Bool)
    (reversed : range.endPort.raw < range.start.raw) : ¬range.CountsPorts overflowChecks := by
  rintro ⟨count, counted, _, zero⟩
  have behind := UInt16.lt_iff_toNat_lt.mp reversed
  have bounded := range.start.raw.toNat_lt
  have empty := zero.mpr (isEmpty_iff.mpr (Nat.le_of_lt behind))
  rw [size] at counted
  split at counted
  · cases counted
  · obtain rfl := Except.ok.inj counted
    rw [← UInt16.toNat_inj, UInt16.toNat_sub] at empty
    simp at empty
    omega

theorem countsPorts_iff (overflowChecks : Bool) (start endPort : IoPort) :
    (new start endPort).CountsPorts overflowChecks ↔ start.raw ≤ endPort.raw := by
  by_cases ordered : start.raw ≤ endPort.raw
  · exact iff_of_true (countsPorts_of_le overflowChecks ordered) ordered
  · exact iff_of_false (not_countsPorts_of_lt overflowChecks (UInt16.not_le.mp ordered)) ordered

theorem fromStartSize_eq_some (built : fromStartSize start amount = some range) :
    range.start = start ∧ range.endPort.raw.toNat = start.raw.toNat + amount.toNat := by
  obtain ⟨endPort, added, same⟩ := Option.bind_eq_some_iff.mp built
  obtain rfl := Option.some.inj same
  rw [IoPort.checkedAdd] at added
  split at added
  · next fits =>
    obtain rfl := Option.some.inj added
    refine ⟨rfl, ?_⟩
    rw [UInt16.toNat_add]
    exact Nat.mod_eq_of_lt fits
  · cases added

theorem fromStartSize_isSome (start : IoPort) (amount : UInt16) :
    (fromStartSize start amount).isSome = true ↔ start.raw.toNat + amount.toNat < 2 ^ 16 := by
  rw [fromStartSize, IoPort.checkedAdd]
  split
  · next fits => exact iff_of_true rfl fits
  · next overflows => exact iff_of_false Bool.false_ne_true overflows

end IoPortRange

/-- A range of two ports counts its ports unless they are reversed, a range of a size always does, and one
is built of a size exactly when the ports are all there, unless the last of them is the last port. -/
theorem port_range_counts_iff (overflowChecks : Bool) (start endPort : IoPort) (amount : UInt16) :
    ((IoPortRange.new start endPort).CountsPorts overflowChecks ↔ start.raw ≤ endPort.raw) ∧
    (∀ range, IoPortRange.fromStartSize start amount = some range →
      range.CountsPorts overflowChecks) ∧
    (((IoPortRange.fromStartSize start amount).isSome = true ↔
        start.raw.toNat + amount.toNat ≤ 0x10000) ↔
      start.raw.toNat + amount.toNat ≠ 0x10000) := by
  refine ⟨IoPortRange.countsPorts_iff overflowChecks start endPort, ?_, ?_⟩
  · intro range built
    obtain ⟨rfl, last⟩ := IoPortRange.fromStartSize_eq_some built
    apply IoPortRange.countsPorts_of_le
    rw [UInt16.le_iff_toNat_le, last]
    exact Nat.le_add_right _ _
  · rw [IoPortRange.fromStartSize_isSome]
    omega

/-- A reversed range has no size, and there is no range of the last port alone. -/
theorem port_range_miscounts :
    (¬∀ (overflowChecks : Bool) (start endPort : IoPort),
      (IoPortRange.new start endPort).CountsPorts overflowChecks) ∧
    ¬∀ (start : IoPort) (amount : UInt16),
      (IoPortRange.fromStartSize start amount).isSome = true ↔
        start.raw.toNat + amount.toNat ≤ 0x10000 := by
  constructor
  · intro counts
    exact IoPortRange.not_countsPorts_of_lt true (by decide) (counts true ⟨1⟩ ⟨0⟩)
  · intro builds
    exact absurd ((builds ⟨0xffff⟩ 1).mpr (by decide)) (by decide)

end Iommu
