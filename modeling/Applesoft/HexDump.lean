import Applesoft.Text

/-!
# Hexadecimal dumps

Rows of sixteen bytes: the address, the bytes in hexadecimal, and the bytes as characters, once as
they are and once without their high bits.
-/
namespace Applesoft.HexDump

def rowSize : Nat := 16

def plain (b : UInt8) : Char :=
  if 32 ≤ b.toNat && b.toNat < 127 then Char.ofNat b.toNat else '.'

/-- The character of a byte whose high bit is set, with a point for all others. -/
def negative (b : UInt8) : Char :=
  if 160 ≤ b.toNat && b.toNat < 255 then Char.ofNat (b.toNat - 128) else '.'

def row (address : Nat) (bytes : List UInt8) : Text :=
  let missing := rowSize - bytes.length
  Text.ofHex 4 address ++ " : ".toList ++
    bytes.flatMap (fun b => Text.ofHex 2 b.toNat ++ [' ']) ++ List.replicate (3 * missing) ' ' ++
    "|+| ".toList ++ bytes.map plain ++ ' ' :: List.replicate missing ' ' ++
    "|-| ".toList ++ bytes.map negative ++ ['\n']

/-- The dump of bytes that start at an address; even without bytes it has a row. -/
def dump (address : Nat) (bytes : List UInt8) : Text :=
  if bytes.length ≤ rowSize then row address bytes
  else row address (bytes.take rowSize) ++ dump (address + rowSize) (bytes.drop rowSize)
termination_by bytes.length
decreasing_by
  simp only [List.length_drop, rowSize] at *
  omega

end Applesoft.HexDump
