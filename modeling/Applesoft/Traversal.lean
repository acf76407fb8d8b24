import Applesoft.Program
import Applesoft.Error

/-!
# Passes over a program

A pass says what it does at each of the four levels of a program: the program, its lines, their
statements and their tokens, always in storage order. A level left out goes down to the next one; a
level that does not go down ends the descent there. A fault ends the pass at once and leaves
everything as it was at that moment.
-/
namespace Applesoft

inductive Level
  | program | line | statement | token
  deriving DecidableEq, Repr

/-- One step of a pass that looks: the state after it, and a fault if one has ended the pass. -/
abbrev Look (σ ε α : Type) := α → σ → σ × Option ε

def Look.each {σ ε α : Type} (f : Look σ ε α) : Look σ ε (List α)
  | [], s => (s, none)
  | a :: rest, s =>
    match f a s with
    | (s, some e) => (s, some e)
    | (s, none) => each f rest s

def Look.firstThen {σ ε α : Type} (first others : Look σ ε α) : Look σ ε (List α)
  | [], s => (s, none)
  | a :: rest, s =>
    match first a s with
    | (s, some e) => (s, some e)
    | (s, none) => each others rest s

structure Visitor (σ ε : Type) where
  onToken : Look σ ε Token := fun _ s => (s, none)
  onStatement : Look σ ε Statement := Look.each onToken
  onLine : Look σ ε Line := fun l => Look.each onStatement l.statements
  onProgram : Look σ ε Program := fun p => Look.each onLine p.lines

def Visitor.visit {σ ε : Type} (v : Visitor σ ε) (p : Program) (state : σ) : σ × Option ε :=
  v.onProgram p state

/-- What a step that changes things leaves: the thing, the state of the pass, and a fault if one
has ended the pass. -/
structure Edited (σ ε α : Type) where
  value : α
  state : σ
  fault : Option ε

def Edited.map {σ ε α β : Type} (f : α → β) (e : Edited σ ε α) : Edited σ ε β :=
  ⟨f e.value, e.state, e.fault⟩

abbrev Edit (σ ε α : Type) := α → σ → Edited σ ε α

def Edit.each {σ ε α : Type} (f : Edit σ ε α) : Edit σ ε (List α)
  | [], s => ⟨[], s, none⟩
  | a :: rest, s =>
    let head := f a s
    match head.fault with
    | some e => ⟨head.value :: rest, head.state, some e⟩
    | none =>
      let tail := each f rest head.state
      ⟨head.value :: tail.value, tail.state, tail.fault⟩

def Edit.tokens {σ ε : Type} (f : Edit σ ε Token) : Edit σ ε Statement :=
  Edit.each f

def Edit.statements {σ ε : Type} (f : Edit σ ε Statement) : Edit σ ε Line := fun l s =>
  (Edit.each f l.statements s).map fun statements => { l with statements := statements }

def Edit.lines {σ ε : Type} (f : Edit σ ε Line) : Edit σ ε Program := fun p s =>
  (Edit.each f p.lines s).map fun lines => { p with lines := lines }

structure Editor (σ ε : Type) where
  onToken : Edit σ ε Token := fun t s => ⟨t, s, none⟩
  onStatement : Edit σ ε Statement := Edit.tokens onToken
  onLine : Edit σ ε Line := Edit.statements onStatement
  onProgram : Edit σ ε Program := Edit.lines onLine

def Editor.edit {σ ε : Type} (v : Editor σ ε) (p : Program) (state : σ) : Edited σ ε Program :=
  v.onProgram p state

inductive Node
  | program (p : Program)
  | line (l : Line)
  | statement (s : Statement)
  | token (t : Token)
  deriving DecidableEq, Repr

namespace Node

def level : Node → Level
  | .program _ => .program
  | .line _ => .line
  | .statement _ => .statement
  | .token _ => .token

def display : Node → Text
  | .program _ => "P".toList
  | .line l => "L ".toList ++ Text.ofNat l.number.toNat
  | .statement s => "S ".toList ++ Text.ofNat s.length
  | .token t => "T ".toList ++ t.display

end Node

namespace Traversal

/-- Writes down a node, fails if it is the one numbered `failAt`, counted from 1, and otherwise
goes down unless the node is of the level `stop`. -/
def enter (stop : Option Level) (failAt : Option Nat) (n : Node)
    (descend : List Node → List Node × Option Error) (seen : List Node) :
    List Node × Option Error :=
  let seen := seen ++ [n]
  if failAt = some seen.length then (seen, some .visitorStopped)
  else if stop = some n.level then (seen, none)
  else descend seen

def recorder (stop : Option Level) (failAt : Option Nat) : Visitor (List Node) Error :=
  let enter := enter stop failAt
  let onToken : Look (List Node) Error Token := fun t =>
    enter (.token t) fun seen => (seen, none)
  let onStatement : Look (List Node) Error Statement := fun s =>
    enter (.statement s) (Look.each onToken s)
  let onLine : Look (List Node) Error Line := fun l =>
    enter (.line l) (Look.each onStatement l.statements)
  let onProgram : Look (List Node) Error Program := fun p =>
    enter (.program p) (Look.each onLine p.lines)
  ⟨onToken, onStatement, onLine, onProgram⟩

def enterToEdit {α : Type} (stop : Option Level) (failAt : Option Nat) (node : α → Node)
    (descend : Edit (List Node) Error α) : Edit (List Node) Error α := fun a seen =>
  let seen := seen ++ [node a]
  if failAt = some seen.length then ⟨a, seen, some .visitorStopped⟩
  else if stop = some (node a).level then ⟨a, seen, none⟩
  else descend a seen

def editingRecorder (stop : Option Level) (failAt : Option Nat) : Editor (List Node) Error :=
  let onToken := enterToEdit stop failAt .token fun t seen => ⟨t, seen, none⟩
  let onStatement := enterToEdit stop failAt .statement (Edit.tokens onToken)
  let onLine := enterToEdit stop failAt .line (Edit.statements onStatement)
  let onProgram := enterToEdit stop failAt .program (Edit.lines onLine)
  ⟨onToken, onStatement, onLine, onProgram⟩

def tokenCollector : Visitor (List Token) Error where
  onToken t seen := (seen ++ [t], none)

def adder (amount : Binary64) (failAt : Option Nat) : Editor Nat Error where
  onToken t seen :=
    if failAt = some (seen + 1) then ⟨t, seen + 1, some .visitorStopped⟩
    else
      match t.kind with
      | .number value => ⟨{ t with kind := .number (value.add amount) }, seen + 1, none⟩
      | _ => ⟨t, seen + 1, none⟩

def shifter (amount : UInt16) : Editor Unit Error where
  onLine l s := ⟨{ l with number := l.number + amount }, s, none⟩

def reverser : Editor Nat Error where
  onStatement s count :=
    Edit.tokens (fun t n => ⟨t, n + 1, none⟩) s.reverse count

end Traversal

end Applesoft
