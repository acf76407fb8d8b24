import Applesoft.Listing
import Applesoft.Outline
import Applesoft.Traversal

/-!
# Renumbering

Lines whose numbers lie in a range get numbers in equal steps, and the references to them follow. A
reference is a number after `GOTO`, `GOSUB`, `THEN`, `RUN`, `LIST` or `DEL`, or after another one
with a comma or a minus between them.
-/
namespace Applesoft

-- Powers of natural numbers are those of `Nat`, also where another library has its own.
attribute [local instance(high)] instPowNat

def Keyword.takesReferences : Keyword → Bool
  | .goto | .gosub | .thenDo | .run | .list | .del => true
  | _ => false

/-- The lines from `lowest` up to but not including `bound` are numbered `first`, `first + step`,
and so on. -/
structure Renumbering where
  lowest : Nat
  bound : Nat
  first : Nat
  step : Nat
  deriving DecidableEq, Repr

namespace Renumbering

def maxCount : Nat := 2 ^ (64 : Nat) - 1

def covers (r : Renumbering) (number : UInt16) : Bool :=
  r.lowest ≤ number.toNat && number.toNat < r.bound

/-- The old and new numbers of the lines that change, where `next` is the next number to give and
`previous` the new number of the line before. -/
def movesFrom (r : Renumbering) (next : Nat) (previous : Option Nat) :
    List UInt16 → Except Error (List (UInt16 × UInt16))
  | [] => .ok []
  | old :: rest =>
    let new := if r.covers old then next else old.toNat
    let next := if r.covers old then min maxCount (next + r.step) else next
    if largestLineNumber < new then .error (.numberOutOfRange old.toNat new)
    else
      match previous.filter (new ≤ ·) with
      | some p => .error (.numberOutOfOrder old.toNat new p)
      | none =>
        match r.movesFrom next (some new) rest with
        | .error e => .error e
        | .ok moves => .ok (if new = old.toNat then moves else (old, UInt16.ofNat new) :: moves)

def moves (r : Renumbering) (numbers : List UInt16) : Except Error (List (UInt16 × UInt16)) :=
  r.movesFrom r.first none numbers

/-- The new number for an old one. Of several lines with one number the last decides. -/
def target (moves : List (UInt16 × UInt16)) (number : UInt16) : Option UInt16 :=
  moves.reverse.lookup number

/-- What the tokens of a statement have led up to: nothing, a reference, or a comma or minus after
a reference. -/
inductive Awaiting
  | nothing | reference | separator
  deriving DecidableEq, Repr

/-- The number that replaces a reference. It is looked up by its 16-bit form and replaced only if it
is whole. -/
def relabelNumber (move : UInt16 → Option UInt16) (value : Binary64) : Binary64 :=
  match move value.toWord with
  | some new => if value.isWhole then .ofNat new.toNat else value
  | none => value

def relabelToken (move : UInt16 → Option UInt16) (awaiting : Awaiting) (t : Token) :
    Token × Awaiting :=
  match t.kind, awaiting with
  | .keyword k, awaiting =>
    if k.takesReferences then (t, .reference)
    else if k = .minus ∧ awaiting = .separator then (t, .reference)
    else (t, .nothing)
  | .number value, .reference => ({ t with kind := .number (relabelNumber move value) }, .separator)
  | .punct ',', .separator => (t, .reference)
  | _, _ => (t, .nothing)

def relabelTokens (move : UInt16 → Option UInt16) (awaiting : Awaiting) : List Token → List Token
  | [] => []
  | t :: rest =>
    let (t', after) := relabelToken move awaiting t
    t' :: relabelTokens move after rest

def relabelStatement (move : UInt16 → Option UInt16) (s : Statement) : Statement :=
  relabelTokens move .nothing s

def relabelLine (move : UInt16 → Option UInt16) (l : Line) : Line :=
  { l with
    number := (move l.number).getD l.number
    statements := l.statements.map (relabelStatement move) }

/-- The pass that carries out moves. Its state is what the tokens so far have led up to; a statement
begins with nothing, whatever the one before it has left. -/
def relabeller (move : UInt16 → Option UInt16) : Editor Awaiting Error :=
  let onToken : Edit Awaiting Error Token := fun t awaiting =>
    let (t', after) := relabelToken move awaiting t
    ⟨t', after, none⟩
  let onStatement : Edit Awaiting Error Statement := fun s _ => Edit.tokens onToken s .nothing
  let onLine : Edit Awaiting Error Line := fun l =>
    Edit.statements onStatement { l with number := (move l.number).getD l.number }
  { onToken := onToken, onStatement := onStatement, onLine := onLine }

def changedReference (before after : Token) : Option LogEntry :=
  match before.kind, after.kind with
  | .number old, .number new =>
    if old = new then none
    else
      some (.debug ("reference ".toList ++ old.plainText ++ " -> ".toList ++ new.listingText ++
        " on source line ".toList ++ Text.ofNat before.line))
  | _, _ => none

end Renumbering

namespace Program

def relabel (move : UInt16 → Option UInt16) (p : Program) : Program :=
  { p with lines := p.lines.map (Renumbering.relabelLine move) }

/-- Renumbers a program in place, or refuses if the new numbers would be too large or out of order:
what becomes of the program, and the fault. `awaiting` is what an earlier pass has left. -/
def renumberInPlace (r : Renumbering) (awaiting : Renumbering.Awaiting) (p : Program) :
    Edited Renumbering.Awaiting Error Program :=
  match r.moves p.numbers with
  | .error e => ⟨p, awaiting, some e⟩
  | .ok moves => (Renumbering.relabeller (Renumbering.target moves)).edit p awaiting

def renumber (r : Renumbering) (p : Program) : Except Error Program :=
  let edited := p.renumberInPlace r .nothing
  match edited.fault with
  | none => .ok edited.value
  | some e => .error e

def renumberText (r : Renumbering) (source : Text) : Except Error Text :=
  match parse 0 source with
  | .error e => .error e
  | .ok p => (p.renumber r).map (listing .upper)

def renumberLog (r : Renumbering) (p : Program) : List LogEntry :=
  match r.moves p.numbers with
  | .error e => e.log
  | .ok moves =>
    let after := p.relabel (Renumbering.target moves)
    let count := (moves.map Prod.fst).eraseDups.length
    .debug ("renumbering ".toList ++ Text.ofNat count ++ " lines".toList) ::
      ((p.lines.flatMap Line.tokens).zip (after.lines.flatMap Line.tokens)).filterMap fun
        | (t, t') => Renumbering.changedReference t t'

end Program

end Applesoft
