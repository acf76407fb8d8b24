import Applesoft.Text
import Applesoft.Unicode.Blank

/-!
# Integers in arguments

Decimal, or hexadecimal after `0x`, `0X` or `$`, with blanks around it and one `+` before the digits
allowed.
-/
namespace Applesoft.IntegerText

-- Powers of natural numbers are those of `Nat`, also where another library has its own.
attribute [local instance(high)] instPowNat

inductive Fault
  | empty | invalidDigit | overflow
  deriving DecidableEq, Repr

def Fault.message : Fault → Text
  | .empty => "cannot parse integer from empty string".toList
  | .invalidDigit => "invalid digit found in string".toList
  | .overflow => "number too large to fit in target type".toList

def digit? (base : Nat) (c : Char) : Option Nat :=
  let value? : Option Nat :=
    if c.isDigit then some (c.toNat - '0'.toNat)
    else if c.isAlpha then some (c.toLower.toNat - 'a'.toNat + 10)
    else none
  value?.filter (· < base)

/-- Reads digits from the left; the first bad digit or the first value beyond 64 bits decides. -/
def readDigits (base : Nat) (value : Nat) : Text → Except Fault Nat
  | [] => .ok value
  | c :: rest =>
    match digit? base c with
    | none => .error .invalidDigit
    | some d =>
      if value * base + d < 2 ^ (64 : Nat) then readDigits base (value * base + d) rest
      else .error .overflow

def readUnsigned (base : Nat) (t : Text) : Except Fault Nat :=
  match t with
  | [] => .error .empty
  | ['+'] => .error .invalidDigit
  | '+' :: rest => readDigits base 0 rest
  | t => readDigits base 0 t

def trim (t : Text) : Text :=
  ((t.dropWhile Unicode.isBlank).reverse.dropWhile Unicode.isBlank).reverse

def base (t : Text) : Nat × Text :=
  match t with
  | '0' :: 'x' :: rest | '0' :: 'X' :: rest | '$' :: rest => (16, rest)
  | t => (10, t)

def read (t : Text) : Except Fault Nat :=
  let (base, digits) := base (trim t)
  readUnsigned base digits

end Applesoft.IntegerText
