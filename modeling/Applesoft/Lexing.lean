import Applesoft.Error
import Applesoft.Token

/-!
# From source text to tokens

`readToken` reads one token off a text and leaves a shorter text, whether it succeeds or not, so
that reading can go on after an error. A line end after a backslash joins two source lines.
-/
namespace Applesoft

/-- What one attempt to read a token comes to, with the text after it and that text's line. -/
inductive Reading
  | token (t : Token) (rest : Text) (line : Nat)
  | fault (e : Error) (rest : Text) (line : Nat)
  | done (line : Nat)
  deriving DecidableEq, Repr

def Reading.Shortens (n : Nat) : Reading → Prop
  | .token _ rest _ | .fault _ rest _ => rest.length < n
  | .done _ => True

theorem Reading.Shortens.mono {m n : Nat} {r : Reading} (h : r.Shortens m) (le : m ≤ n) :
    r.Shortens n := by
  cases r with
  | done => trivial
  | token | fault => exact Nat.lt_of_lt_of_le h le

namespace Lexing

/-- The text of a comment after `REM`: to the end of the line, without one space before it and one
carriage return after it. -/
def commentBody (s : Text) : Text × Text :=
  let body := match s with
    | ' ' :: r => r
    | r => r
  let text := body.takeWhile (· != '\n')
  let text := if text.getLast? = some '\r' then text.dropLast else text
  (text, body.dropWhile (· != '\n'))

def readKeyword (line : Nat) (k : Keyword) (rest : Text) : Reading :=
  match k.mark? with
  | none => .token ⟨line, .keyword (if k = .question then .print else k)⟩ rest line
  | some mark =>
    match Lexeme.cut rest with
    | none => .fault (.missingMark line k mark) [] line
    | some (x, r) =>
      if x = .mark mark then .token ⟨line, .keyword k⟩ r line
      else .fault (.missingMark line k mark) r (line + x.lines)

def readIdentifier (line : Nat) (name rest : Text) : Reading :=
  match Lexeme.cut rest with
  | some (.mark '(', r) => .token ⟨line, .identifier (name ++ ['('])⟩ r line
  | _ => .token ⟨line, .identifier name⟩ rest line

def readWord (line : Nat) (word rest : Text) : Reading :=
  match Keyword.ofWord? word with
  | some .rem =>
    let (text, r) := commentBody rest
    .token ⟨line, .comment text⟩ r line
  | some k => readKeyword line k rest
  | none =>
    if word.head? = some '$' then .token ⟨line, .directive word⟩ rest line
    else readIdentifier line word rest

def readPunctuation (line : Nat) (c : Char) (rest : Text) : Reading :=
  match Keyword.ofWord? [c] with
  | some k => .token ⟨line, .keyword k⟩ rest line
  | none => .token ⟨line, .punct c⟩ rest line

def readToken (line : Nat) (s : Text) : Reading :=
  match h : Lexeme.cut s with
  | none => .done line
  | some (.lineEnd, r) => .token ⟨line, .lineEnd⟩ r (line + 1)
  | some (.number value, r) => .token ⟨line, .number value⟩ r line
  | some (.quoted text, r) => .token ⟨line, .quoted text⟩ r line
  | some (.word word, r) => readWord line word r
  | some (.mark c, r) =>
    match CharClass.ofChar c with
    | .escape =>
      match h' : Lexeme.cut r with
      | some (.lineEnd, r') => readToken (line + 1) r'
      | some (x, r') => .fault (.unexpectedLexeme line x) r' line
      | none => .fault (.openContinuation line) [] line
    | .punctuation => readPunctuation line c r
    | _ => .fault (.unexpectedLexeme line (.mark c)) r line
termination_by s.length
decreasing_by exact Nat.lt_trans (Lexeme.length_cut h') (Lexeme.length_cut h)

theorem length_commentBody (s : Text) : (commentBody s).2.length ≤ s.length := by
  have h (t : Text) := Lexeme.length_dropWhile_le (· != '\n') t
  simp only [commentBody]
  split
  · next r =>
    have := h r
    simp only [List.length_cons]
    omega
  · exact h s

theorem readKeyword_shortens (line : Nat) (k : Keyword) (s : Text) :
    (readKeyword line k s).Shortens (s.length + 1) := by
  unfold readKeyword
  split
  · exact Nat.lt_succ_self _
  · split
    · exact Nat.succ_pos _
    · next x r h =>
      have := Lexeme.length_cut h
      split <;> exact Nat.lt_succ_of_lt this

theorem readIdentifier_shortens (line : Nat) (name s : Text) :
    (readIdentifier line name s).Shortens (s.length + 1) := by
  unfold readIdentifier
  split
  · next r h => exact Nat.lt_succ_of_lt (Lexeme.length_cut h)
  · exact Nat.lt_succ_self _

theorem readWord_shortens (line : Nat) (word s : Text) :
    (readWord line word s).Shortens (s.length + 1) := by
  unfold readWord
  split
  · exact Nat.lt_succ_of_le (length_commentBody s)
  · exact readKeyword_shortens _ _ _
  · split
    · exact Nat.lt_succ_self _
    · exact readIdentifier_shortens _ _ _

theorem readPunctuation_shortens (line : Nat) (c : Char) (s : Text) :
    (readPunctuation line c s).Shortens (s.length + 1) := by
  unfold readPunctuation
  split <;> exact Nat.lt_succ_self _

/-- Neither a token nor a fault is read without using up some of the text. -/
theorem readToken_shortens (line : Nat) (s : Text) : (readToken line s).Shortens s.length := by
  fun_induction readToken line s with
  | case1 => trivial
  | case2 | case3 | case4 | case10 => exact Lexeme.length_cut (by assumption)
  | case5 line s word r h => exact (readWord_shortens _ _ _).mono (Lexeme.length_cut h)
  | case6 line s c r h _ r' h' ih =>
    exact ih.mono (Nat.le_of_lt (Nat.lt_trans (Lexeme.length_cut h') (Lexeme.length_cut h)))
  | case7 line s c r h _ x r' _ h' =>
    exact Nat.lt_trans (Lexeme.length_cut h') (Lexeme.length_cut h)
  | case8 line s c r h => exact Nat.lt_of_le_of_lt (Nat.zero_le _) (Lexeme.length_cut h)
  | case9 line s c r h => exact (readPunctuation_shortens _ _ _).mono (Lexeme.length_cut h)

structure Lexed where
  tokens : List Token
  fault : Option Error
  deriving DecidableEq, Repr

def Lexed.result (l : Lexed) : Except Error (List Token) :=
  match l.fault with
  | none => .ok l.tokens
  | some e => .error e

def lexFrom (line : Nat) (s : Text) : Lexed :=
  match _h : readToken line s with
  | .done _ => ⟨[], none⟩
  | .fault e _ _ => ⟨[], some e⟩
  | .token t r l =>
    let more := lexFrom l r
    ⟨t :: more.tokens, more.fault⟩
termination_by s.length
decreasing_by
  have := readToken_shortens line s
  rwa [_h] at this

end Lexing

def lex (source : Text) : Except Error (List Token) :=
  (Lexing.lexFrom 1 source).result

end Applesoft
