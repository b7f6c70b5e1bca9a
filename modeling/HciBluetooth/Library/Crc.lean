import Mathlib

/-!
# Reflected CRC-8

The checksum bit by bit, and that a table of the 256 bytes computes it.
-/

namespace Crc

def shiftBit (polynomial crc : UInt8) : UInt8 :=
  if crc &&& 1 = 1 then (crc >>> 1) ^^^ polynomial else crc >>> 1

def shiftByte (polynomial crc : UInt8) : UInt8 :=
  (shiftBit polynomial)^[8] crc

def crc8 (polynomial initial : UInt8) (data : List UInt8) : UInt8 :=
  data.foldl (fun crc byte => shiftByte polynomial (crc ^^^ byte)) initial

def tableCrc (table : UInt8 → UInt8) (initial : UInt8) (data : List UInt8) :
    UInt8 :=
  data.foldl (fun crc byte => table (crc ^^^ byte)) initial

theorem tableCrc_eq_crc8 {table : UInt8 → UInt8} {polynomial : UInt8}
    (h : ∀ byte, table byte = shiftByte polynomial byte) (initial : UInt8)
    (data : List UInt8) :
    tableCrc table initial data = crc8 polynomial initial data := by
  simp only [tableCrc, crc8, h]

end Crc
