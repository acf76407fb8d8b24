import Applesoft.Binary64
import Applesoft.Text

/-!
# Decimal text of numbers

A number is written with the fewest digits that read back as it, never with an exponent. Of two
such decimals the nearer is taken, and the upper one if they are equally near.
-/
namespace Applesoft

-- Powers of natural numbers are those of `Nat`, also where another library has its own.
attribute [local instance(high)] instPowNat

namespace Decimal

def ofDigits (digits : Text) : Nat :=
  digits.foldl (fun n c => 10 * n + (c.toNat - '0'.toNat)) 0

def positional (digits : Nat) (exponent : Int) : Text :=
  let ds := Text.ofNat digits
  if 0 ≤ exponent then ds ++ List.replicate exponent.toNat '0'
  else
    let places := exponent.natAbs
    let padded := List.replicate (places + 1 - ds.length) '0' ++ ds
    padded.take (padded.length - places) ++ '.' :: padded.drop (padded.length - places)

end Decimal

namespace Binary64

def ofDecimal (whole fraction : Text) : Binary64 :=
  ofRatio (Decimal.ofDigits (whole ++ fraction)) (10 ^ fraction.length)

def rankOfDecimal (digits : Nat) (exponent : Int) : Nat :=
  if 0 ≤ exponent then nearestRank (digits * 10 ^ exponent.toNat * unitsPerOne) 1
  else nearestRank (digits * unitsPerOne) (10 ^ exponent.natAbs)

/-- Of the two neighbours of a magnitude on the grid of multiples of `10 ^ exponent`, the one that
reads back as its rank, the nearer if both do. -/
def onGrid? (rank : Nat) (exponent : Int) : Option Nat :=
  let num := if 0 ≤ exponent then unitsOfRank rank else unitsOfRank rank * 10 ^ exponent.natAbs
  let den := if 0 ≤ exponent then unitsPerOne * 10 ^ exponent.toNat else unitsPerOne
  let below := num / den
  let hitsBelow := rankOfDecimal below exponent == rank
  let hitsAbove := rankOfDecimal (below + 1) exponent == rank
  if hitsBelow && hitsAbove then
    if 2 * (num % den) < den then some below else some (below + 1)
  else if hitsBelow then some below
  else if hitsAbove then some (below + 1)
  else none

/-- The coarsest grid from `10 ^ exponent` down that has a decimal for the rank; after `fuel` grids
the exact decimal of the magnitude. -/
def shortestFrom (rank : Nat) : Nat → Int → Nat × Int
  | 0, _ => (unitsOfRank rank * 5 ^ (1074 : Nat), -1074)
  | fuel + 1, exponent =>
    match onGrid? rank exponent with
    | some digits => (digits, exponent)
    | none => shortestFrom rank fuel (exponent - 1)

/-- Digits and exponent of the shortest decimal for a finite rank. No decimal has more than 17
digits to spare, and the least double has its first digit in the 324th place. -/
def shortest (rank : Nat) : Nat × Int :=
  let whole := unitsOfRank rank / unitsPerOne
  shortestFrom rank 345 (if whole = 0 then 0 else (Text.ofNat whole).length)

def plainText (x : Binary64) : Text :=
  if x.isNaN then "NaN".toList
  else
    let sign := if x.negative then ['-'] else []
    if x.isInfinite then sign ++ "inf".toList
    else if x.rank.val = 0 then sign ++ ['0']
    else
      let (digits, exponent) := shortest x.rank.val
      sign ++ Decimal.positional digits exponent

/-- The number as it is typed in a listing: a whole number below `10 ^ 15` without a sign of zero. -/
def listingText (x : Binary64) : Text :=
  if x.isWhole && x.wholePart < 10 ^ (15 : Nat) then
    (if x.negative && x.wholePart != 0 then ['-'] else []) ++ Text.ofNat x.wholePart
  else x.plainText

def exponent? : Text → Option Int
  | [] => some 0
  | mark :: rest =>
    let (negative, digits) : Bool × Text :=
      match rest with
      | '-' :: r => (true, r)
      | '+' :: r => (false, r)
      | r => (false, r)
    if mark.toLower = 'e' && !digits.isEmpty && digits.all Char.isDigit then
      some (if negative then -(Decimal.ofDigits digits : Int) else Decimal.ofDigits digits)
    else none

/-- The double nearest to `digits * 10 ^ exponent`; far beyond the range the power is not formed. -/
def ofScientific (digits : Text) (exponent : Int) : Binary64 :=
  let n := Decimal.ofDigits digits
  if n = 0 then zero
  else if 310 < exponent then infinity
  else if exponent + digits.length < -330 then zero
  else if 0 ≤ exponent then ofRatio (n * 10 ^ exponent.toNat) 1
  else ofRatio n (10 ^ exponent.natAbs)

def ofUnsigned? (t : Text) : Option Binary64 :=
  let whole := t.takeWhile Char.isDigit
  let rest := t.dropWhile Char.isDigit
  let (fraction, rest) : Text × Text :=
    match rest with
    | '.' :: r => (r.takeWhile Char.isDigit, r.dropWhile Char.isDigit)
    | r => ([], r)
  if (whole ++ fraction).isEmpty then none
  else (exponent? rest).map fun e => ofScientific (whole ++ fraction) (e - fraction.length)

/-- A signed decimal with an optional exponent, or the name of an infinity or of no number. -/
def ofText? (t : Text) : Option Binary64 :=
  let magnitude? (r : Text) : Option Binary64 :=
    let name := String.ofList (r.map Char.toLower)
    if name = "inf" || name = "infinity" then some infinity
    else if name = "nan" then some notANumber
    else ofUnsigned? r
  match t with
  | '-' :: r => (magnitude? r).map neg
  | '+' :: r => magnitude? r
  | r => magnitude? r

end Binary64

end Applesoft
