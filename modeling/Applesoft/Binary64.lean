/-!
# Double-precision numbers

A number is kept as its sign and its rank among the non-negative doubles in increasing order, so
that equal numbers are equal values and all arithmetic is exact arithmetic on `Nat` followed by one
rounding. Magnitudes are counted in units of the least positive double, `2 ^ -1074`.
-/
namespace Applesoft

-- Powers of natural numbers are those of `Nat`, also where another library has its own.
attribute [local instance(high)] instPowNat

/-- A sign and the rank of a magnitude: the finite ones, infinity, and after it what is no number. -/
structure Binary64 where
  negative : Bool
  rank : Fin (2 ^ (63 : Nat))
  deriving DecidableEq, Repr

def roundHalfEven (num den : Nat) : Nat :=
  let q := num / den
  let r := num % den
  if 2 * r < den || (2 * r == den && q % 2 == 0) then q else q + 1

namespace Binary64

def infinityRank : Nat := 2047 * 2 ^ (52 : Nat)

def unitsPerOne : Nat := 2 ^ (1074 : Nat)

/-- The magnitude of a rank, in units: in each binade `2 ^ 52` ranks are evenly spaced. -/
def unitsOfRank (rank : Nat) : Nat :=
  if rank < 2 ^ (52 : Nat) then rank
  else (2 ^ (52 : Nat) + rank % 2 ^ (52 : Nat)) * 2 ^ (rank / 2 ^ (52 : Nat) - 1)

/-- The rank of the double nearest to `num / den` units; a tie goes to the even rank, and what lies
beyond the finite doubles to infinity. -/
def nearestRank (num den : Nat) : Nat :=
  let spacing := (num / den).log2 - 52
  min infinityRank (spacing * 2 ^ (52 : Nat) + roundHalfEven num (den * 2 ^ spacing))

theorem nearestRank_lt (num den : Nat) : nearestRank num den < 2 ^ (63 : Nat) := by
  have h : infinityRank < 2 ^ (63 : Nat) := by decide
  exact Nat.lt_of_le_of_lt (Nat.min_le_left _ _) h

def ofUnits (negative : Bool) (num den : Nat) : Binary64 :=
  ⟨negative, ⟨nearestRank num den, nearestRank_lt num den⟩⟩

def ofRatio (num den : Nat) : Binary64 :=
  ofUnits false (num * unitsPerOne) den

def ofNat (n : Nat) : Binary64 :=
  ofRatio n 1

def zero : Binary64 := ⟨false, ⟨0, by decide⟩⟩

def infinity : Binary64 := ⟨false, ⟨infinityRank, by decide⟩⟩

def notANumber : Binary64 := ⟨false, ⟨infinityRank + 2 ^ (51 : Nat), by decide⟩⟩

def ofBits (bits : Nat) : Binary64 :=
  ⟨bits / 2 ^ (63 : Nat) % 2 == 1, ⟨bits % 2 ^ (63 : Nat), Nat.mod_lt _ (by decide)⟩⟩

def isFinite (x : Binary64) : Bool := x.rank.val < infinityRank

def isInfinite (x : Binary64) : Bool := x.rank.val == infinityRank

def isNaN (x : Binary64) : Bool := infinityRank < x.rank.val

def units (x : Binary64) : Nat := unitsOfRank x.rank.val

def signedUnits (x : Binary64) : Int :=
  if x.negative then -(x.units : Int) else x.units

def neg (x : Binary64) : Binary64 := ⟨!x.negative, x.rank⟩

def wholePart (x : Binary64) : Nat := x.units / unitsPerOne

def isWhole (x : Binary64) : Bool := x.isFinite && x.units % unitsPerOne == 0

def toInt? (x : Binary64) : Option Int :=
  if x.isWhole then some (if x.negative then -(x.wholePart : Int) else x.wholePart) else none

/-- Towards zero, and to the nearest of 0 and 65535 where 16 bits do not hold the result; what is
no number becomes 0. -/
def toWord (x : Binary64) : UInt16 :=
  if x.isNaN || x.negative then 0 else UInt16.ofNat (min 65535 x.wholePart)

def add (x y : Binary64) : Binary64 :=
  if x.isNaN || y.isNaN then notANumber
  else if x.isInfinite then
    if y.isInfinite && x.negative != y.negative then notANumber else x
  else if y.isInfinite then y
  else
    let sum := x.signedUnits + y.signedUnits
    if sum = 0 then ⟨x.negative && y.negative, ⟨0, by decide⟩⟩
    else ofUnits (sum < 0) sum.natAbs 1

end Binary64

end Applesoft
