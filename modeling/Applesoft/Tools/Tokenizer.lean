import Applesoft.MemoryImage
import Applesoft.Outline
import Applesoft.Traversal

/-!
# The tokenizer

Makes a memory image in one pass: a record grows token by token and goes into the image at the end of
its line. A tokenizer can be used again. What a run has left in it, also one that ended in the middle
of a line, stays until the next run.
-/
namespace Applesoft

open MemoryImage

structure Tokenizer where
  /-- The records that are finished. -/
  image : List UInt8
  /-- The record under way, from its line number on. -/
  record : List UInt8
  /-- Where the record under way will lie. -/
  address : UInt16
  previous : Option UInt16
  /-- The source line that has been reached. -/
  sourceLine : Nat
  deriving DecidableEq, Repr

namespace Tokenizer

def new : Tokenizer := ⟨[], [], 2049, none, 0⟩

def store (bytes : List UInt8) (t : Tokenizer) : Tokenizer :=
  { t with record := t.record ++ bytes }

def storeText (line : Nat) : Look Tokenizer Error Text := fun text t =>
  let t := t.store ((text.takeWhile (·.toNat < 128)).map fun c => UInt8.ofNat c.toNat)
  match text.dropWhile (·.toNat < 128) with
  | [] => (t, none)
  | c :: _ => (t, some (.notAscii line c))

def onToken : Look Tokenizer Error Token := fun token t =>
  match token.kind with
  | .lineEnd => (t, none)
  | .number value => storeText token.line value.listingText t
  | .keyword k => (t.store [k.code], none)
  | .identifier name => storeText token.line name.toUpper t
  | .quoted text =>
    match storeText token.line text (t.store [quoteByte]) with
    | (t, none) => (t.store [quoteByte], none)
    | (t, some e) => (t, some e)
  | .directive name => (t, some (.unsupportedDirective token.line name))
  | .comment text =>
    storeText token.line text
      (t.store (Keyword.rem.code :: if text.isEmpty then [] else [spaceByte]))
  | .punct c => storeText token.line [c] t

def reach (s : Statement) (t : Tokenizer) : Tokenizer :=
  { t with sourceLine := sourceLineAt t.sourceLine s }

def onStatement : Look Tokenizer Error Statement := fun s t =>
  Look.each onToken s (t.reach s)

def finishRecord (next : Nat) (t : Tokenizer) : Tokenizer :=
  { t with
    image := t.image ++ word next ++ t.record ++ [0]
    record := []
    address := UInt16.ofNat next }

def onLine : Look Tokenizer Error Line := fun l t =>
  let t := t.reach (l.statements.headD [])
  match t.previous.filter (l.number ≤ ·) with
  | some p => (t, some (.notAscending t.sourceLine l.number p))
  | none =>
    let t := { t with previous := some l.number, record := word l.number.toNat }
    match Look.firstThen onStatement (fun s t => onStatement s (t.store [colonByte])) l.statements t with
    | (t, some e) => (t, some e)
    | (t, none) =>
      let next := t.address.toNat + t.record.length + 3
      if next < memorySize then (t.finishRecord next, none)
      else (t, some (.lineBeyondMemory t.sourceLine))

def pass : Visitor Tokenizer Error where
  onToken := onToken
  onStatement := onStatement
  onLine := onLine

def finish : Tokenizer × Option Error → Except Error (List UInt8) × Tokenizer
  | (t, some e) => (.error e, t)
  | (t, none) =>
    if t.address.toNat + 2 ≤ memorySize then
      let t := { t with image := t.image ++ [0, 0] }
      (.ok t.image, t)
    else (.error (.endBeyondMemory t.sourceLine t.address.toNat), t)

def tokenize (t : Tokenizer) (p : Program) (address : UInt16) :
    Except Error (List UInt8) × Tokenizer :=
  finish (pass.visit p { t with image := [], address := address, previous := none })

def tokenizeText (t : Tokenizer) (source : Text) (address : UInt16) :
    Except Error (List UInt8) × Tokenizer :=
  match Program.parse 0 source with
  | .ok p => t.tokenize p address
  | .error e => (.error e, t)

end Tokenizer

end Applesoft
