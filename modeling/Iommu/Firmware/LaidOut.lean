import Iommu.Firmware.Table

/-!
Tables whose bytes are known: what the bounds-checked reads give of fields that have been laid out.
-/

namespace Iommu

open MachineWord

theorem word16_bytes (word : UInt16) :
    UInt16.ofNat (Memory.ofBytesLE (Memory.toBytesLE 2 word.toNat)) = word := by
  have small : word.toNat < 256 ^ 2 := word.toNat_lt
  rw [Memory.ofBytesLE_toBytesLE_of_lt small, UInt16.ofNat_toNat]

namespace FirmwareTable

variable {format : TableFormat} {table : FirmwareTable format} {base displacement : Nat}
  {part : List UInt8}

theorem within_of_window {count : Nat} {field : List UInt8}
    (laid : window part displacement count = field) (size : field.length = count)
    (some : 0 < count) : displacement + count ≤ part.length := by
  rw [← laid, window, List.length_take, List.length_drop] at size
  omega

section Laid

variable (holds : HoldsAt table.sdt base part)

include holds

theorem readU8_laid {byte : UInt8} (laid : window part displacement 1 = [byte]) :
    table.readU8 base displacement = .ok byte := by
  rw [readU8_held holds (within_of_window laid rfl (by decide)), laid, Memory.byte_bytes]

theorem readU16_laid {word : UInt16}
    (laid : window part displacement 2 = Memory.toBytesLE 2 word.toNat) :
    table.readU16 base displacement = .ok word := by
  rw [readU16_held holds (within_of_window laid (Memory.toBytesLE_length _ _) (by decide)), laid,
    word16_bytes]

theorem readU32_laid {word : UInt32}
    (laid : window part displacement 4 = Memory.toBytesLE 4 word.toNat) :
    table.readU32 base displacement = .ok word := by
  rw [readU32_held holds (within_of_window laid (Memory.toBytesLE_length _ _) (by decide)), laid,
    Memory.word32_bytes]

theorem readU64_laid {word : UInt64}
    (laid : window part displacement 8 = Memory.toBytesLE 8 word.toNat) :
    table.readU64 base displacement = .ok word := by
  rw [readU64_held holds (within_of_window laid (Memory.toBytesLE_length _ _) (by decide)), laid,
    Memory.word64_bytes]

end Laid

theorem sdt_laidOut {validate : SdtValidation} {rest : List UInt8} {total : Nat}
    (signature : format.signature.length = 4) (short : total < 2 ^ 32)
    (whole : (format.signature ++ Memory.toBytesLE 4 total ++ rest).length = total)
    (accepted : parse validate (format.signature ++ Memory.toBytesLE 4 total ++ rest) = .ok table) :
    table.sdt = format.signature ++ Memory.toBytesLE 4 total ++ rest := by
  have self := HoldsAt.self (format.signature ++ Memory.toBytesLE 4 total ++ rest)
  have headed := self.split.1.split.2
  rw [Nat.zero_add, signature] at headed
  have declared := headed.fieldLE_eq (Nat.le_of_eq (Nat.zero_add 4) : 0 + 4 ≤ 4)
  have sized : fieldLE (format.signature ++ Memory.toBytesLE 4 total ++ rest) 4 4 = total := by
    have small : total < 256 ^ 4 := short
    exact declared.trans (Memory.ofBytesLE_toBytesLE_of_lt small)
  have same := self.same
  rw [whole] at same
  rw [(parse_ok accepted).1, sized, same]

end FirmwareTable

end Iommu

