import Applesoft.Outline
import Applesoft.Tools
import Applesoft.Traversal

/-!
# Sessions

Work on several programs by name. A session keeps what outlasts one operation: the programs, and the
tools with what their last runs have left in them.
-/
namespace Applesoft

structure Session where
  slots : List (String × Program)
  /-- The id of the next program to be made. -/
  nextId : Nat
  tools : Tools
  deriving Repr

namespace Session

def initial : Session := ⟨[], 0, .new⟩

/-- What can be done in a session; a line is named by its place, counted from 0. -/
inductive Operation
  | new
  | parse (source : Text)
  | reparse
  | clone (target : String)
  | appendLine (number : UInt16)
  | appendStatement (line : Nat) (tokens : List Token)
  | setNumber (line : Nat) (number : UInt16)
  | swap (line other : Nat)
  | exchange (line : Nat) (slot : String) (other : Nat)
  /-- Asks for the line after a line, or after a copy of it, in the program of a slot. -/
  | lineAfter (line : Nat) (holder : String) (detached : Bool)
  | isOwner (line : Nat) (holder : String)
  | chain
  | find (number : UInt16)
  | dump
  | list (letters : Option LetterCase)
  | layOut (address : UInt16)
  | layOutText (source : Text) (address : UInt16)
  | renumber (r : Renumbering)
  | renumberText (source : Text) (r : Renumbering)
  | record (stop : Option Level) (failAt : Option Nat)
  | collectTokens
  /-- Passes with nothing of their own at any level. -/
  | passIdly
  | addToNumbers (amount : Binary64) (failAt : Option Nat)
  | shiftLines (amount : UInt16)
  | reverse
  deriving DecidableEq, Repr

inductive Answer
  | done
  | numbers (ns : List UInt16)
  | numbersOfTwo (ns others : List UInt16)
  | counts (first second : Nat)
  | number (n : Option UInt16)
  | truth (b : Bool)
  /-- The place of a line and how many statements it has. -/
  | found (place : Option (Nat × Nat))
  | lines (ls : List Line)
  | text (t : Text)
  | image (bytes : List UInt8)
  | renumbered (fault : Option Error) (numbers : List UInt16)
  | events (fault : Option Error) (shown : List Text)
  /-- What the two idle passes came to. -/
  | faults (looking changing : Option Error)
  | edited (fault : Option Error) (count : Option Nat) (ls : List Line)
  deriving DecidableEq, Repr

inductive Refusal
  | noSuchSlot
  | noSuchLine
  | failed (e : Error)
  deriving DecidableEq, Repr

abbrev Outcome := Except Refusal Answer × Session

def answer (s : Session) (a : Answer) : Outcome := (.ok a, s)

def refuse (s : Session) (r : Refusal) : Outcome := (.error r, s)

def withProgram (s : Session) (slot : String) (go : Program → Outcome) : Outcome :=
  match s.slots.lookup slot with
  | some p => go p
  | none => s.refuse .noSuchSlot

def withLine (s : Session) (p : Program) (place : Nat) (go : Line → Outcome) : Outcome :=
  match p.lines[place]? with
  | some l => go l
  | none => s.refuse .noSuchLine

def withResult {α : Type} (s : Session) (result : Except Error α) (go : α → Outcome) : Outcome :=
  match result with
  | .ok a => go a
  | .error e => s.refuse (.failed e)

def put (s : Session) (slot : String) (p : Program) : Session :=
  { s with slots := (slot, p) :: s.slots.filter (·.1 != slot) }

def putNew (s : Session) (slot : String) (p : Program) : Session :=
  { s.put slot p with nextId := s.nextId + 1 }

def useTools (s : Session) (slot : String) (c : Tools.Call) : Outcome :=
  let (reply, tools) := s.tools.call c
  let s := { s with tools := tools }
  match reply with
  | .done => s.answer .done
  | .image result => s.withResult result fun bytes => s.answer (.image bytes)
  | .text result => s.withResult result fun text => s.answer (.text text)
  | .renumbered p fault => (s.put slot p).answer (.renumbered fault p.numbers)

def finishEdit {σ : Type} (s : Session) (slot : String) (count : σ → Option Nat)
    (e : Edited σ Error Program) : Outcome :=
  (s.put slot e.value).answer (.edited e.fault (count e.state) e.value.lines)

/-- The number of the line after a line, asked in the program of slot `holder`. Only the line itself
is found there, not a copy, and only by the program that made it. -/
def numberAfter (slot : String) (p : Program) (line : Nat) (holder : String) (detached : Bool) :
    Option UInt16 :=
  if detached || slot != holder then none
  else ((p.next? line).bind (p.lines[·]?)).map Line.number

def step (s : Session) (slot : String) : Operation → Outcome
  | .new => (s.putNew slot (.empty s.nextId)).answer .done
  | .parse source =>
    s.withResult (Program.parse s.nextId source) fun p =>
      (s.putNew slot p).answer (.numbers p.numbers)
  | .reparse =>
    s.withProgram slot fun p =>
      let (listing, lister) := s.tools.lister.list p
      let s := { s with tools.lister := lister }
      s.withResult (listing.bind (Program.parse s.nextId)) fun p' =>
        (s.putNew slot p').answer (.lines p'.lines)
  | .clone target => s.withProgram slot fun p => (s.put target p).answer .done
  | .appendLine number =>
    s.withProgram slot fun p =>
      let p' := p.appendLine number
      (s.put slot p').answer (.counts number.toNat p'.lines.length)
  | .appendStatement line tokens =>
    s.withProgram slot fun p =>
      s.withLine p line fun l =>
        let l' := l.appendStatement tokens
        (s.put slot (p.setLine line l')).answer (.counts tokens.length l'.statements.length)
  | .setNumber line number =>
    s.withProgram slot fun p =>
      s.withLine p line fun l =>
        let p' := p.setLine line { l with number := number }
        (s.put slot p').answer (.numbers p'.numbers)
  | .swap line other =>
    s.withProgram slot fun p =>
      s.withLine p line fun l =>
        s.withLine p other fun m =>
          let p' := (p.setLine line m).setLine other l
          (s.put slot p').answer (.numbers p'.numbers)
  | .exchange line slot' other =>
    s.withProgram slot fun p =>
      s.withProgram slot' fun q =>
        s.withLine p line fun l =>
          s.withLine q other fun m =>
            if slot = slot' then
              let p' := (p.setLine line m).setLine other l
              (s.put slot p').answer (.numbersOfTwo p'.numbers p'.numbers)
            else
              let p' := p.setLine line m
              let q' := q.setLine other l
              ((s.put slot p').put slot' q').answer (.numbersOfTwo p'.numbers q'.numbers)
  | .lineAfter line holder detached =>
    s.withProgram slot fun p =>
      s.withLine p line fun _ =>
        s.withProgram holder fun _ =>
          s.answer (.number (numberAfter slot p line holder detached))
  | .isOwner line holder =>
    s.withProgram slot fun p =>
      s.withLine p line fun l =>
        s.withProgram holder fun q => s.answer (.truth (l.owner == q.id))
  | .chain =>
    s.withProgram slot fun p =>
      s.answer (.numbers (p.chain.filterMap fun place => p.lines[place]?.map Line.number))
  | .find number =>
    s.withProgram slot fun p =>
      s.answer (.found ((p.find? number).bind fun place =>
        p.lines[place]?.map fun l => (place, l.statements.length)))
  | .dump => s.withProgram slot fun p => s.answer (.lines p.lines)
  | .list letters =>
    let s := (letters.map fun letters => (s.useTools slot (.setLetters letters)).2).getD s
    s.withProgram slot fun p => s.useTools slot (.list p)
  | .layOut address => s.withProgram slot fun p => s.useTools slot (.tokenize p address)
  | .layOutText source address => s.useTools slot (.tokenizeText source address)
  | .renumber r => s.withProgram slot fun p => s.useTools slot (.renumber r p)
  | .renumberText source r => s.useTools slot (.renumberText r source)
  | .record stop failAt =>
    s.withProgram slot fun p =>
      let (nodes, fault) := (Traversal.recorder stop failAt).visit p []
      s.answer (.events fault (nodes.map Node.display))
  | .collectTokens =>
    s.withProgram slot fun p =>
      let (tokens, fault) := Traversal.tokenCollector.visit p []
      s.answer (.events fault (tokens.map Token.display))
  | .passIdly =>
    s.withProgram slot fun p =>
      let idle : Visitor Unit Error := {}
      let idleEditor : Editor Unit Error := {}
      let edited := idleEditor.edit p ()
      (s.put slot edited.value).answer (.faults (idle.visit p ()).2 edited.fault)
  | .addToNumbers amount failAt =>
    s.withProgram slot fun p =>
      s.finishEdit slot (fun _ => none) ((Traversal.adder amount failAt).edit p 0)
  | .shiftLines amount =>
    s.withProgram slot fun p =>
      s.finishEdit slot (fun _ => none) ((Traversal.shifter amount).edit p ())
  | .reverse =>
    s.withProgram slot fun p => s.finishEdit slot some (Traversal.reverser.edit p 0)

def run (s : Session) : List (String × Operation) → List (Except Refusal Answer) × Session
  | [] => ([], s)
  | (slot, op) :: rest =>
    let (answer, s') := s.step slot op
    let (answers, last) := s'.run rest
    (answer :: answers, last)

end Session

end Applesoft
