import Applesoft.Unicode.Alphabetic

/-!
# Classes of source characters
-/
namespace Applesoft

/-- What a character can start. `word` takes in the sigils `$` and `%` and the alias `?`. -/
inductive CharClass
  | blank | lineEnd | quote | numeric | word | punctuation | escape | other
  deriving DecidableEq, Repr

namespace CharClass

def isPunctuation (c : Char) : Bool :=
  ['(', ')', ',', ':', '#', ';', '&', '=', '<', '>', '*', '+', '-', '/', '^'].contains c

def ofChar (c : Char) : CharClass :=
  if c = '\n' || c = '\r' then .lineEnd
  else if c ≤ ' ' then .blank
  else if c = '"' then .quote
  else if c.isDigit || c = '.' then .numeric
  else if c = '$' || c = '%' || c = '?' then .word
  else if isPunctuation c then .punctuation
  else if c = '\\' then .escape
  else if Unicode.isAlphabetic c then .word
  else .other

theorem of_ofChar_numeric {c : Char} (h : ofChar c = .numeric) : c.isDigit = true ∨ c = '.' := by
  simp only [ofChar] at h
  repeat' split at h
  all_goals simp_all

end CharClass

/-- Whether a word goes on with `c`: letters, digits and sigils, but neither `?` nor a point. -/
def inWord (c : Char) : Bool :=
  match CharClass.ofChar c with
  | .word => c != '?'
  | .numeric => c != '.'
  | _ => false

end Applesoft
