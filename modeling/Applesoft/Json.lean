import Applesoft.Text

/-!
# JSON values

Objects keep their keys in order, each with one value. How a text is read as a value is left to a reader.
-/
namespace Applesoft

inductive Json
  | null
  | bool (b : Bool)
  /-- A whole number below `2 ^ 64`, written without sign, point and exponent. -/
  | natural (n : Nat)
  /-- Any other number, as written. -/
  | number (text : Text)
  | string (text : Text)
  | array (items : List Json)
  | object (fields : List (Text × Json))
  deriving Repr

namespace Json

structure Refusal where
  message : Text
  debug : Text
  deriving DecidableEq, Repr

abbrev Reader := Text → Except Refusal Json

end Json

end Applesoft
