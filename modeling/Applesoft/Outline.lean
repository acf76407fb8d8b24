import Applesoft.Lexing
import Applesoft.Program

/-!
# From tokens to a program

A program line is the tokens between two line ends: its number, and then statements with colons
between them. A line with nothing after its number has no statement.
-/
namespace Applesoft

def largestLineNumber : Nat := 63999

def Token.asLineNumber (t : Token) : Except Error UInt16 :=
  match t.kind with
  | .number value =>
    match value.toInt? with
    | some n =>
      if 0 ≤ n ∧ n ≤ largestLineNumber then .ok (UInt16.ofNat n.toNat)
      else .error (.badLineNumber t.line value)
    | none => .error (.badLineNumber t.line value)
  | _ => .error (.missingLineNumber t.line)

namespace Program

/-- The statements between the colons of a line; there is always one more than colons. -/
def splitStatements : List Token → List Statement
  | [] => [[]]
  | t :: rest =>
    if t.kind = .punct ':' then [] :: splitStatements rest
    else
      match splitStatements rest with
      | s :: ss => (t :: s) :: ss
      | [] => [[t]]

def lineStatements (body : List Token) : List Statement :=
  if body.isEmpty then [] else splitStatements body

/-- The lines that the tokens make up, owned by program `id`. -/
def linesOf (id : Nat) : List Token → Except Error (List Line)
  | [] => .ok []
  | t :: rest =>
    if t.isLineEnd then linesOf id rest
    else
      match t.asLineNumber with
      | .error e => .error e
      | .ok number =>
        match linesOf id (rest.dropWhile (!·.isLineEnd)) with
        | .error e => .error e
        | .ok more =>
          .ok (⟨number, lineStatements (rest.takeWhile (!·.isLineEnd)), id⟩ :: more)
termination_by ts => ts.length
decreasing_by
  · simp
  · exact Nat.lt_succ_of_le (List.dropWhile_sublist _).length_le

def ofTokens (id : Nat) (tokens : List Token) : Except Error Program :=
  (linesOf id tokens).map fun lines => ⟨id, lines⟩

/-- The program in a source text. A fault in any token comes before one in any line number. -/
def parse (id : Nat) (source : Text) : Except Error Program :=
  match lex source with
  | .error e => .error e
  | .ok tokens => ofTokens id tokens

def lineStarts (atStart : Bool) : List Token → List Token
  | [] => []
  | t :: rest =>
    if t.isLineEnd then lineStarts true rest
    else if atStart then t :: lineStarts false rest
    else lineStarts false rest

def outlineLog (tokens : List Token) : List LogEntry :=
  ((lineStarts true tokens).map fun t => (t.line, t.asLineNumber.toOption)).takeWhile (·.2.isSome)
    |>.map fun
      | (line, number) =>
        .debug ("line ".toList ++ Text.ofNat (number.getD 0).toNat ++ " from source line ".toList ++
          Text.ofNat line)

def parseLog (source : Text) : List LogEntry :=
  match lex source with
  | .error _ => []
  | .ok tokens => outlineLog tokens

end Program

end Applesoft
