import Applesoft.Renumbering
import Applesoft.Tools.Lister

/-!
# The renumberer

Works out the moves of a renumbering and carries them out in one pass. A renumberer can be used again;
it keeps the moves of its last renumbering, also of one that was refused halfway.
-/
namespace Applesoft

open Renumbering

structure Renumberer where
  /-- The old and new numbers of the lines that change. -/
  moves : List (UInt16 × UInt16)
  awaiting : Awaiting
  deriving DecidableEq, Repr

namespace Renumberer

def new : Renumberer := ⟨[], .nothing⟩

def plan (r : Renumbering) (next : Nat) (previous : Option Nat) :
    Look Renumberer Error (List UInt16)
  | [], x => (x, none)
  | old :: rest, x =>
    let new := if r.covers old then next else old.toNat
    let next := if r.covers old then min maxCount (next + r.step) else next
    if largestLineNumber < new then (x, some (.numberOutOfRange old.toNat new))
    else
      match previous.filter (new ≤ ·) with
      | some p => (x, some (.numberOutOfOrder old.toNat new p))
      | none =>
        plan r next (some new) rest
          (if new = old.toNat then x else { x with moves := x.moves ++ [(old, UInt16.ofNat new)] })

def onToken : Edit Renumberer Error Token := fun t x =>
  let (t', after) := relabelToken (target x.moves) x.awaiting t
  ⟨t', { x with awaiting := after }, none⟩

def onStatement : Edit Renumberer Error Statement := fun s x =>
  Edit.tokens onToken s { x with awaiting := .nothing }

def onLine : Edit Renumberer Error Line := fun l x =>
  Edit.statements onStatement { l with number := (target x.moves l.number).getD l.number } x

def pass : Editor Renumberer Error where
  onToken := onToken
  onStatement := onStatement
  onLine := onLine

def renumber (x : Renumberer) (r : Renumbering) (p : Program) : Edited Renumberer Error Program :=
  match plan r r.first none p.numbers { x with moves := [] } with
  | (x, some e) => ⟨p, x, some e⟩
  | (x, none) => pass.edit p x

def renumberText (x : Renumberer) (r : Renumbering) (source : Text) :
    Except Error Text × Renumberer :=
  match Program.parse 0 source with
  | .error e => (.error e, x)
  | .ok p =>
    let edited := x.renumber r p
    match edited.fault with
    | some e => (.error e, edited.state)
    | none => ((Lister.new.list edited.value).1, edited.state)

end Renumberer

end Applesoft
