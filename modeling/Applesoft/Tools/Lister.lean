import Applesoft.Listing
import Applesoft.Traversal
import Applesoft.Error

/-!
# The lister

Writes a listing in one pass. A lister can be used again; the letter case that it is given holds until
it is given another.
-/
namespace Applesoft

structure Lister where
  text : Text
  /-- The token before, on the same line. -/
  before : Option TokenKind
  letters : LetterCase
  deriving DecidableEq, Repr

namespace Lister

def new : Lister := ⟨[], none, .upper⟩

def write (text : Text) (x : Lister) : Lister :=
  { x with text := x.text ++ text }

def writeMark (c : Char) (x : Lister) : Lister :=
  { x.write [c] with before := none }

def onToken : Look Lister Error Token := fun t x =>
  let blank : Text := if x.before.any (·.needsBlank t.kind) then [' '] else []
  ({ x.write (blank ++ t.kind.listed x.letters) with before := some t.kind }, none)

def onStatement : Look Lister Error Statement := Look.each onToken

def onLine : Look Lister Error Line := fun l x =>
  let x := { x.write (Text.ofNat l.number.toNat) with before := none }
  match Look.firstThen (fun s x => onStatement s (x.write [' ']))
      (fun s x => onStatement s (x.writeMark ':')) l.statements x with
  | (x, none) => (x.write ['\n'], none)
  | (x, some e) => (x, some e)

def pass : Visitor Lister Error where
  onToken := onToken
  onStatement := onStatement
  onLine := onLine

def list (x : Lister) (p : Program) : Except Error Text × Lister :=
  match pass.visit p { x with text := [] } with
  | (x, none) => (.ok x.text, x)
  | (x, some e) => (.error e, x)

end Lister

end Applesoft
