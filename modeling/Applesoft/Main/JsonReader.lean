import Applesoft.Binary64
import Applesoft.Json

/-!
# JSON texts

A strict reader: no comments, no trailing commas, at most 127 brackets open at once, and no number
beyond the range of doubles. Of several values for a key the last one is kept.
-/
namespace Applesoft.Json

-- Powers of natural numbers are those of `Nat`, also where another library has its own.
attribute [local instance(high)] instPowNat

def putField (key : Text) (value : Json) : List (Text × Json) → List (Text × Json)
  | [] => [(key, value)]
  | (k, v) :: rest =>
    if key = k then (key, value) :: rest
    else if key < k then (key, value) :: (k, v) :: rest
    else (k, v) :: putField key value rest

def ofFields (fields : List (Text × Json)) : Json :=
  .object (fields.foldl (fun kept field => putField field.1 field.2 kept) [])

def isSpace (c : Char) : Bool :=
  c = ' ' || c = '\t' || c = '\n' || c = '\r'

def skipSpace (s : Text) : Text :=
  s.dropWhile isSpace

def hexDigit? (c : Char) : Option Nat :=
  if c.isDigit then some (c.toNat - '0'.toNat)
  else if 'a' ≤ c.toLower ∧ c.toLower ≤ 'f' then some (c.toLower.toNat - 'a'.toNat + 10)
  else none

def readUnit : Text → Option (Nat × Text)
  | a :: b :: c :: d :: rest => do
    let a ← hexDigit? a
    let b ← hexDigit? b
    let c ← hexDigit? c
    let d ← hexDigit? d
    some (((a * 16 + b) * 16 + c) * 16 + d, rest)
  | _ => none

/-- The character after a `u` escape; two units make a character only as a surrogate pair. -/
def readUnicode (s : Text) : Option (Char × Text) := do
  let (unit, rest) ← readUnit s
  if 0xD800 ≤ unit ∧ unit < 0xDC00 then
    match rest with
    | '\\' :: 'u' :: rest =>
      let (low, rest) ← readUnit rest
      if 0xDC00 ≤ low ∧ low < 0xE000 then
        some (Char.ofNat (0x10000 + (unit - 0xD800) * 0x400 + (low - 0xDC00)), rest)
      else none
    | _ => none
  else if 0xDC00 ≤ unit ∧ unit < 0xE000 then none
  else some (Char.ofNat unit, rest)

def readEscape : Text → Option (Char × Text)
  | '"' :: rest => some ('"', rest)
  | '\\' :: rest => some ('\\', rest)
  | '/' :: rest => some ('/', rest)
  | 'b' :: rest => some ('\x08', rest)
  | 'f' :: rest => some ('\x0c', rest)
  | 'n' :: rest => some ('\n', rest)
  | 'r' :: rest => some ('\r', rest)
  | 't' :: rest => some ('\t', rest)
  | 'u' :: rest => readUnicode rest
  | _ => none

def readString : Nat → Text → Option (Text × Text)
  | 0, _ => none
  | fuel + 1, s =>
    match s with
    | [] => none
    | '"' :: rest => some ([], rest)
    | '\\' :: rest => do
      let (c, rest) ← readEscape rest
      let (t, rest) ← readString fuel rest
      some (c :: t, rest)
    | c :: rest =>
      if c.toNat < 32 then none
      else (readString fuel rest).map fun (t, rest) => (c :: t, rest)

/-- Takes decimal digits into a significand as long as it fits in 64 bits; leaves the others. -/
def fitDigits (significand : Nat) : Text → Nat × Text
  | [] => (significand, [])
  | c :: rest =>
    let n := significand * 10 + (c.toNat - '0'.toNat)
    if n < 2 ^ (64 : Nat) then fitDigits n rest else (significand, c :: rest)

/-- Whether a significand, first rounded to a double, times a power of ten, rounded likewise, is a
finite double. -/
def inRange (significand : Nat) (exponent : Int) : Bool :=
  if significand = 0 ∨ exponent < 0 then true
  else if exponent > 308 then false
  else
    let product :=
      (Binary64.ofNat significand).units * (Binary64.ofNat (10 ^ exponent.toNat)).units
    Binary64.nearestRank product Binary64.unitsPerOne < Binary64.infinityRank

def readDigits (s : Text) : Option (Text × Text) :=
  let digits := s.takeWhile Char.isDigit
  if digits.isEmpty then none else some (digits, s.dropWhile Char.isDigit)

def readFraction : Text → Option (Text × Text)
  | '.' :: rest => readDigits rest
  | rest => some ([], rest)

def readExponent : Text → Option (Option Int × Text)
  | mark :: rest =>
    if mark = 'e' ∨ mark = 'E' then
      let (negative, digits) : Bool × Text :=
        match rest with
        | '-' :: r => (true, r)
        | '+' :: r => (false, r)
        | r => (false, r)
      (readDigits digits).map fun (digits, rest) =>
        let n := digits.foldl (fun n c => 10 * n + (c.toNat - '0'.toNat)) 0
        (some (if negative then -(n : Int) else n), rest)
    else some (none, mark :: rest)
  | [] => some (none, [])

def readWhole : Text → Option (Text × Text)
  | '0' :: rest =>
    match rest with
    | c :: _ => if c.isDigit then none else some (['0'], rest)
    | [] => some (['0'], [])
  | rest => readDigits rest

def readNumber (s : Text) : Option (Json × Text) := do
  let (negative, unsigned) : Bool × Text :=
    match s with
    | '-' :: r => (true, r)
    | r => (false, r)
  let (whole, rest) ← readWhole unsigned
  let (fraction, rest') ← readFraction rest
  let (exponent, rest'') ← readExponent rest'
  let (n, beyond) := fitDigits 0 whole
  let (significand, unused) := fitDigits n fraction
  let scale : Int := beyond.length - (fraction.length - unused.length : Nat) + exponent.getD 0
  if negative = false ∧ beyond = [] ∧ fraction = [] ∧ exponent = none then
    some (.natural n, rest)
  else if inRange significand scale then
    some (.number (s.take (s.length - rest''.length)), rest'')
  else none

mutual

def readValue : Nat → Nat → Text → Option (Json × Text)
  | 0, _, _ => none
  | fuel + 1, room, s =>
    match skipSpace s with
    | 'n' :: 'u' :: 'l' :: 'l' :: rest => some (.null, rest)
    | 't' :: 'r' :: 'u' :: 'e' :: rest => some (.bool true, rest)
    | 'f' :: 'a' :: 'l' :: 's' :: 'e' :: rest => some (.bool false, rest)
    | '"' :: rest => (readString (rest.length + 1) rest).map fun (t, rest) => (.string t, rest)
    | '[' :: rest =>
      if room = 0 then none
      else
        match skipSpace rest with
        | ']' :: rest => some (.array [], rest)
        | rest => (readItems fuel (room - 1) rest).map fun (items, rest) => (.array items, rest)
    | '{' :: rest =>
      if room = 0 then none
      else
        match skipSpace rest with
        | '}' :: rest => some (.object [], rest)
        | rest => (readFields fuel (room - 1) rest).map fun (fields, rest) => (ofFields fields, rest)
    | rest => readNumber rest

def readItems : Nat → Nat → Text → Option (List Json × Text)
  | 0, _, _ => none
  | fuel + 1, room, s =>
    match readValue fuel room s with
    | none => none
    | some (item, rest) =>
      match skipSpace rest with
      | ',' :: rest => (readItems fuel room rest).map fun (items, rest) => (item :: items, rest)
      | ']' :: rest => some ([item], rest)
      | _ => none

def readFields : Nat → Nat → Text → Option (List (Text × Json) × Text)
  | 0, _, _ => none
  | fuel + 1, room, s =>
    match skipSpace s with
    | '"' :: rest =>
      match readString (rest.length + 1) rest with
      | none => none
      | some (key, rest) =>
        match skipSpace rest with
        | ':' :: rest =>
          match readValue fuel room rest with
          | none => none
          | some (value, rest) =>
            match skipSpace rest with
            | ',' :: rest =>
              (readFields fuel room rest).map fun (fields, rest) => ((key, value) :: fields, rest)
            | '}' :: rest => some ([(key, value)], rest)
            | _ => none
        | _ => none
    | _ => none

end

def maxDepth : Nat := 127

def parse? (s : Text) : Option Json :=
  match readValue (2 * s.length + 2) maxDepth s with
  | some (value, rest) => if (skipSpace rest).isEmpty then some value else none
  | none => none

/-- The reader that does not tell where a text goes wrong. -/
def read : Reader := fun text =>
  match parse? text with
  | some value => .ok value
  | none => .error ⟨"not a JSON text".toList, "Error(\"not a JSON text\")".toList⟩

end Applesoft.Json
