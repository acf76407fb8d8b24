import Applesoft.Token

/-!
# Programs

A program is a list of lines in storage order. Each line carries the number by which the program
that made it is known, also after it has been moved into another program.
-/
namespace Applesoft

abbrev Statement := List Token

structure Line where
  number : UInt16
  statements : List Statement
  /-- The id of the program that made the line. -/
  owner : Nat
  deriving DecidableEq, Repr

/-- Copies of a program share its id. -/
structure Program where
  id : Nat
  lines : List Line
  deriving DecidableEq, Repr

namespace Line

def tokens (l : Line) : List Token :=
  l.statements.flatten

def appendStatement (l : Line) (s : Statement) : Line :=
  { l with statements := l.statements ++ [s] }

end Line

namespace Program

def empty (id : Nat) : Program := ⟨id, []⟩

def numbers (p : Program) : List UInt16 :=
  p.lines.map Line.number

def appendLine (p : Program) (number : UInt16) : Program :=
  { p with lines := p.lines ++ [⟨number, [], p.id⟩] }

def find? (p : Program) (number : UInt16) : Option Nat :=
  p.lines.findIdx? (·.number == number)

def setLine (p : Program) (place : Nat) (l : Line) : Program :=
  { p with lines := p.lines.set place l }

/-- The place after that of a line of `p`, if the line is one that `p` made and is not the last. -/
def next? (p : Program) (place : Nat) : Option Nat :=
  match p.lines[place]? with
  | some l => if l.owner = p.id && place + 1 < p.lines.length then some (place + 1) else none
  | none => none

def chainFrom (p : Program) (place : Nat) : List Nat :=
  place :: match _h : p.next? place with
    | some after => chainFrom p after
    | none => []
termination_by p.lines.length - place
decreasing_by
  unfold next? at _h
  split at _h
  · simp only [Bool.and_eq_true, decide_eq_true_eq, Option.ite_none_right_eq_some,
      Option.some.injEq] at _h
    omega
  · simp at _h

def chain (p : Program) : List Nat :=
  if p.lines.isEmpty then [] else p.chainFrom 0

end Program

end Applesoft
