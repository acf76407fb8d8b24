import Applesoft.Unicode.Cased
import Applesoft.Unicode.CaseIgnorable
import Applesoft.Unicode.Extending
import Applesoft.Unicode.LowerCase
import Applesoft.Unicode.Unprintable
import Applesoft.Unicode.UpperCase

/-!
# Text and its letter case

Case is mapped as Unicode lays down for whole texts: one character may become several, and a
capital sigma at the end of a word has its own lower-case form.
-/
namespace Applesoft

abbrev Text := List Char

namespace Text

def toUpper (t : Text) : Text :=
  t.flatMap Unicode.upperCase

def startsCased (t : Text) : Bool :=
  match t.dropWhile Unicode.isCaseIgnorable with
  | c :: _ => Unicode.isCased c
  | [] => false

/-- Lower case of the text after `before`, which is read backwards. -/
def toLowerAfter (before : Text) : Text → Text
  | [] => []
  | c :: rest =>
    let lower :=
      if c = 'Σ' then
        if startsCased before && !startsCased rest then ['ς'] else ['σ']
      else Unicode.lowerCase c
    lower ++ toLowerAfter (c :: before) rest

def toLower (t : Text) : Text :=
  toLowerAfter [] t

def ofHex (width n : Nat) : Text :=
  let digits := (Nat.toDigits 16 n).map Char.toUpper
  List.replicate (width - digits.length) '0' ++ digits

def ofNat (n : Nat) : Text :=
  Nat.toDigits 10 n

/-- The lines of a text. A line ends with a line feed, before which a carriage return may stand; the
last one may lack its end. -/
def lines (t : Text) : List Text :=
  match (t.splitOn '\n').reverse with
  | [] => []
  | last :: ended =>
    ended.reverse.map (fun l => if l.getLast? = some '\r' then l.dropLast else l) ++
      if last.isEmpty then [] else [last]

end Text

inductive LetterCase
  | upper | lower
  deriving DecidableEq, Repr

def LetterCase.apply : LetterCase → Text → Text
  | .upper, t => t.toUpper
  | .lower, t => t.toLower

/-- How a character is shown in a message: escaped if it is a quote, a backslash, or has no
visible form of its own. -/
def visibleForm (c : Char) : Text :=
  if c = '\x00' then ['\\', '0']
  else if c = '\t' then ['\\', 't']
  else if c = '\r' then ['\\', 'r']
  else if c = '\n' then ['\\', 'n']
  else if c = '\\' || c = '"' || c = '\'' then ['\\', c]
  else if Unicode.isExtending c || Unicode.isUnprintable c then
    "\\u\x7b".toList ++ Nat.toDigits 16 c.toNat ++ "\x7d".toList
  else [c]

end Applesoft
