import Applesoft.Proofs.FollowingText
import Applesoft.Proofs.Pieces

/-!
# Reading line by line

Where a text starts is told by its lines only: further down the same tokens or the same error are read,
that many lines further down. Nothing is carried over a line feed, so a text that is read to its end
and the text after a line feed are read independently.
-/
namespace Applesoft

namespace Token

def down (n : Nat) (t : Token) : Token := { t with line := t.line + n }

end Token

namespace Error

def down (n : Nat) : Error → Error
  | .unexpectedLexeme line found => .unexpectedLexeme (line + n) found
  | .openContinuation line => .openContinuation (line + n)
  | .missingMark line keyword mark => .missingMark (line + n) keyword mark
  | .missingLineNumber line => .missingLineNumber (line + n)
  | .badLineNumber line value => .badLineNumber (line + n) value
  | .notAscending line number previous => .notAscending (line + n) number previous
  | .unsupportedDirective line name => .unsupportedDirective (line + n) name
  | .notAscii line c => .notAscii (line + n) c
  | .lineBeyondMemory line => .lineBeyondMemory (line + n)
  | .endBeyondMemory line address => .endBeyondMemory (line + n) address
  | .undecodable => .undecodable
  | .numberOutOfRange old new => .numberOutOfRange old new
  | .numberOutOfOrder old new previous => .numberOutOfOrder old new previous
  | .visitorStopped => .visitorStopped

end Error

def Reading.down (n : Nat) : Reading → Reading
  | .token t r l => .token (t.down n) r (l + n)
  | .fault e r l => .fault (e.down n) r (l + n)
  | .done l => .done (l + n)

namespace Lexing

open Lexeme

variable {line l : Nat} {s u r v : Text} {ts : List Token}

section Down

variable (n : Nat)

theorem readKeyword_down (k : Keyword) (s : Text) :
    readKeyword (line + n) k s = (readKeyword line k s).down n := by
  unfold readKeyword
  cases k.mark? with
  | none => rfl
  | some mark =>
    cases cut s with
    | none => rfl
    | some p =>
      obtain ⟨x, r⟩ := p
      by_cases hx : x = .mark mark
      · simp only [if_pos hx]
        rfl
      · simp only [if_neg hx, Reading.down, Error.down, Nat.add_right_comm]

theorem readIdentifier_down (name s : Text) :
    readIdentifier (line + n) name s = (readIdentifier line name s).down n := by
  unfold readIdentifier
  split <;> rfl

theorem readWord_down (word s : Text) :
    readWord (line + n) word s = (readWord line word s).down n := by
  unfold readWord
  split
  · rfl
  · exact readKeyword_down n _ s
  · split
    · rfl
    · exact readIdentifier_down n word s

theorem readPunctuation_down (c : Char) (s : Text) :
    readPunctuation (line + n) c s = (readPunctuation line c s).down n := by
  unfold readPunctuation
  split <;> rfl

/-- Reading does not depend on the line but for the lines it tells. -/
theorem readToken_down (line : Nat) (s : Text) :
    readToken (line + n) s = (readToken line s).down n := by
  fun_induction readToken line s with
  | case1 line s hcut | case3 line s _ r hcut | case4 line s _ r hcut =>
    rw [readToken_eq, hcut]
    rfl
  | case2 line s r hcut =>
    rw [readToken_eq, hcut, readLexeme, Nat.add_right_comm]
    rfl
  | case5 line s word r hcut =>
    rw [readToken_word hcut, readWord_down]
  | case6 line s c r hcut hc r' hend ih =>
    rw [readToken_eq (line + n), hcut]
    simp only [readLexeme, hc, hend]
    rw [Nat.add_right_comm, ih]
  | case7 line s c r hcut hc x r' hno hend =>
    rw [readToken_eq, hcut]
    simp only [readLexeme, hc, hend]
    rfl
  | case8 line s c r hcut hc hend =>
    rw [readToken_eq, hcut]
    simp only [readLexeme, hc, hend]
    rfl
  | case9 line s c r hcut hc =>
    rw [readToken_eq, hcut]
    simp only [readLexeme, hc]
    exact readPunctuation_down n c r
  | case10 line s c r hcut hno hno' =>
    rw [readToken_eq, hcut]
    simp only [readLexeme]
    rfl

def Lexed.down (x : Lexed) : Lexed := ⟨x.tokens.map (Token.down n), x.fault.map (Error.down n)⟩

theorem lexFrom_down (line : Nat) (s : Text) :
    lexFrom (line + n) s = (lexFrom line s).down n := by
  fun_induction lexFrom line s with
  | case1 line s l hread =>
    have hdown := readToken_down n line s
    rw [hread] at hdown
    rw [lexFrom_done hdown]
    rfl
  | case2 line s e r l hread =>
    have hdown := readToken_down n line s
    rw [hread] at hdown
    rw [lexFrom_fault hdown]
    rfl
  | case3 line s t r l hread more ih =>
    have hdown := readToken_down n line s
    rw [hread] at hdown
    rw [lexFrom_token hdown, ih]
    rfl

/-- Text that starts `n` lines after the first. -/
theorem lexFrom_succ (s : Text) : lexFrom (n + 1) s = (lexFrom 1 s).down n := by
  rw [Nat.add_comm, lexFrom_down]

end Down

/-- The line that is reached is told by the line feeds that are passed. -/
theorem Reads.count_lineFeed (h : Reads line s ts l r) (hreturn : '\r' ∉ s) :
    l + r.count '\n' = line + s.count '\n' := by
  induction h with
  | nil => rfl
  | @cons line l l' s s' r t ts hread _ ih =>
    have hspelled := readToken_spelled line hreturn
    rw [hread] at hspelled
    obtain ⟨gap, piece, _, rfl, _, htline, hl⟩ := hspelled
    have hrest : '\r' ∉ s' := fun hmem => hreturn (by simp [hmem])
    have htail := ih hrest
    rw [List.count_append, List.count_append]
    omega

theorem separates_lineFeed (hreturn : '\r' ∉ u) : Separates '\n' u :=
  ⟨by decide, by decide, fun _ => hreturn, .inl rfl⟩

theorem Reads.append_lineFeed (h : Reads line u ts l r) (hreturn : '\r' ∉ u) (v : Text) :
    Reads line (u ++ '\n' :: v) ts l (r ++ '\n' :: v) :=
  h.append_of_ne (separates_lineFeed hreturn) fun r' hcut => by simp [cut_lineFeed] at hcut

/-- A text that is read to its end is read up to blanks and broken lines. -/
theorem exists_reads_gap {u : Text} {tu : List Token} (hreturn : '\r' ∉ u) (h : lex u = .ok tu) :
    ∃ l gap, Reads 1 u tu l gap ∧ Gap gap ∧ l + gap.count '\n' = u.count '\n' + 1 := by
  obtain ⟨l, gap, l', hreads, hdone⟩ := exists_reads_of_ok (lex_eq_ok_iff.1 h)
  have hrest : '\r' ∉ gap := fun hmem => hreturn (hreads.suffix.subset hmem)
  have hspelled := readToken_spelled l hrest
  rw [hdone] at hspelled
  have hcount := hreads.count_lineFeed hreturn
  exact ⟨l, gap, hreads, hspelled.1, by omega⟩

end Lexing

open Lexing in
/-- The tokens before a line feed, its line end, and the tokens after it that many lines further down:
where the text before it is read to its end, the text after it is read as if it stood alone. -/
theorem lex_append_line {u : Text} {tu : List Token} (hreturn : '\r' ∉ u) (h : lex u = .ok tu)
    (v : Text) :
    lex (u ++ '\n' :: v) =
      match lex v with
      | .ok tv => .ok (tu ++ ⟨u.count '\n' + 1, .lineEnd⟩ ::
          tv.map (Token.down (u.count '\n' + 1)))
      | .error e => .error (e.down (u.count '\n' + 1)) := by
  obtain ⟨l, gap, hreads, hgap, hline⟩ := exists_reads_gap hreturn h
  have hend : readToken l (gap ++ '\n' :: v) =
      .token ⟨u.count '\n' + 1, .lineEnd⟩ v (u.count '\n' + 1 + 1) := by
    rw [readToken_gap hgap, hline, readToken_lineFeed]
  have hlex : lexFrom 1 (u ++ '\n' :: v) =
      ((lexFrom 1 v).down (u.count '\n' + 1)).after (tu ++ [⟨u.count '\n' + 1, .lineEnd⟩]) := by
    rw [(hreads.append_lineFeed hreturn v).lexFrom_eq, lexFrom_token hend, ← Lexed.after_append,
      lexFrom_succ]
  rw [lex, hlex, lex]
  obtain ⟨tv, _ | e⟩ := lexFrom 1 v <;> simp [Lexed.result, Lexed.after, Lexed.down]

theorem lex_append_line_fault :
    let u := "10 pr # 1\\ \n:A (?\"HI\nRem x".toList
    let v := "\nB = A(1)\nPR 1".toList
    let tu := [⟨1, .number (.ofNat 10)⟩, ⟨1, .keyword .prSlot⟩, ⟨1, .number (.ofNat 1)⟩,
      ⟨2, .punct ':'⟩, ⟨2, .identifier ['A', '(']⟩, ⟨2, .keyword .print⟩, ⟨2, .quoted ['H', 'I']⟩,
      ⟨2, .lineEnd⟩, ⟨3, .comment ['x']⟩]
    '\r' ∉ u ∧ lex u = .ok tu ∧
      lex (u ++ '\n' :: v) = match lex v with
        | .ok tv => .ok (tu ++ ⟨u.count '\n' + 1, .lineEnd⟩ ::
            tv.map (Token.down (u.count '\n' + 1)))
        | .error e => .error (e.down (u.count '\n' + 1)) := by
  intro u v tu
  have hreturn : '\r' ∉ u := by decide
  have h : lex u = .ok tu := by decide +kernel
  exact ⟨hreturn, h, lex_append_line hreturn h v⟩

end Applesoft
