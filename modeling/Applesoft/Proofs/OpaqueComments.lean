import Applesoft.Proofs.ListedTokens
import Applesoft.Proofs.SourceLines

/-!
# Comments are not read as code

Where a colon can be read as a token of its own after a text, a comment can follow it. Then the comment is
the text up to the line feed, whatever it looks like, and the lines after it are read as if they stood
alone.
-/
namespace Applesoft

namespace Lexeme

variable {u r : Text} {x : Lexeme}

theorem cut_append_colon_of_ne (hnot : ∀ text, x ≠ .quoted text) (hcut : cut u = some (x, r))
    (v : Text) : cut (u ++ ':' :: v) = some (x, r ++ ':' :: v) :=
  cut_append_of_break (by decide) (by decide) (fun h => absurd h (by decide)) (.inr hnot) hcut v

/-- A colon is not part of the lexeme before it, except in a string that is still open. -/
theorem cut_append_colon (hcut : cut u = some (x, r)) :
    (∀ v, cut (u ++ ':' :: v) = some (x, r ++ ':' :: v)) ∨
      ∃ text, cut (u ++ [':']) = some (.quoted text, []) := by
  by_cases hquoted : ∃ text, x = .quoted text
  · obtain ⟨text, rfl⟩ := hquoted
    obtain ⟨blanks, piece, rfl, hblanks, hspelling⟩ := cut_spelling hcut
    cases hspelling with
    | quoted htext =>
      refine .inl fun v => ?_
      simpa [cut_blanks_append hblanks] using cut_quoted (r := r ++ ':' :: v) htext
    | unclosed htext hend =>
      cases r with
      | nil =>
        have hcolon : ∀ c ∈ text ++ [':'], inQuotes c = true :=
          List.forall_mem_append.2 ⟨htext, by decide⟩
        refine .inr ⟨text ++ [':'], ?_⟩
        simpa [cut_blanks_append hblanks] using cut_unclosed (r := []) hcolon (by simp)
      | cons c r =>
        refine .inl fun v => ?_
        simpa [cut_blanks_append hblanks] using cut_unclosed (r := c :: (r ++ ':' :: v)) htext hend
  · exact .inl (cut_append_colon_of_ne (not_exists.1 hquoted) hcut)

/-- A colon does not make a text begin with a parenthesis. -/
theorem cut_append_colon_ne (hcut : ∀ r, cut u ≠ some (.mark '(', r)) (v : Text) :
    ∀ r, cut (u ++ ':' :: v) ≠ some (.mark '(', r) := by
  intro r' hparen
  cases hfirst : cut u with
  | none =>
    rw [cut_append_none hfirst, cut_mark (by decide)] at hparen
    simp at hparen
  | some p =>
    obtain ⟨x, r⟩ := p
    by_cases hquoted : ∃ text, x = .quoted text
    · -- whatever follows an opening quote, a string is cut off
      obtain ⟨text, rfl⟩ := hquoted
      obtain ⟨blanks, piece, rfl, hblanks, hspelling⟩ := cut_spelling hfirst
      rw [List.append_assoc, cut_blanks_append hblanks] at hparen
      cases hspelling with
      | quoted | unclosed => exact cut_ne_mark (by decide) (by decide) r' hparen
    · rw [cut_append_colon_of_ne (not_exists.1 hquoted) hfirst] at hparen
      cases hparen
      exact hcut r hfirst

end Lexeme

open Lexeme

namespace Lexing

variable {line l : Nat} {u r v : Text} {t : Token} {ts : List Token}

/-- What `f` reads off the text is read off it before a colon as well, unless the rest of the text would
take in a colon at its end. -/
def ColonSplits (f : Text → Reading) (u : Text) : Prop :=
  ∀ t r l, f u = .token t r l →
    (∀ v, f (u ++ ':' :: v) = .token t (r ++ ':' :: v) l) ∨ ∃ t' l', f (u ++ [':']) = .token t' [] l'

theorem commentBody_append_of_mem (h : '\n' ∈ u) (v : Text) :
    commentBody (u ++ v) = ((commentBody u).1, (commentBody u).2 ++ v) := by
  obtain ⟨before, after, rfl⟩ := List.append_of_mem h
  rw [List.append_assoc, List.cons_append, commentBody_append, commentBody_append, List.append_assoc,
    List.cons_append]

theorem commentBody_snd_of_not_mem (h : '\n' ∉ u) : (commentBody u).2 = [] := by
  obtain ⟨space, body, -, rfl, hbody⟩ := exists_commentBody u
  rw [hbody, List.dropWhile_eq_nil_iff]
  intro c hc
  rw [bne_iff_ne]
  rintro rfl
  exact h (List.mem_append_right space hc)

theorem ColonSplits.of_eq {f g : Text → Reading} (h : ColonSplits g r) (heq : f u = g r)
    (hcolon : ∀ v, f (u ++ ':' :: v) = g (r ++ ':' :: v)) : ColonSplits f u := by
  intro t r' l hread
  rw [heq] at hread
  refine (h t r' l hread).imp (fun hv v => (hcolon v).trans (hv v)) ?_
  rintro ⟨t', l', htaken⟩
  exact ⟨t', l', (hcolon []).trans htaken⟩

theorem ColonSplits.of_fault {f : Text → Reading} {e : Error} (h : f u = .fault e r l) :
    ColonSplits f u := by
  intro t r' l' hread
  rw [h] at hread
  cases hread

theorem colonSplits_token (t : Token) (l : Nat) (u : Text) : ColonSplits (.token t · l) u := by
  rintro _ _ _ ⟨⟩
  exact .inl fun _ => rfl

/-- A colon goes into a comment on the last line. -/
theorem colonSplits_comment (u : Text) :
    ColonSplits (fun s => .token ⟨line, .comment (commentBody s).1⟩ (commentBody s).2 line) u := by
  rintro _ _ _ ⟨⟩
  by_cases hfeed : '\n' ∈ u
  · refine .inl fun v => ?_
    simp only [commentBody_append_of_mem hfeed]
  · have hend : '\n' ∉ u ++ [':'] := by simp [hfeed]
    refine .inr ⟨⟨line, .comment (commentBody (u ++ [':'])).1⟩, line, ?_⟩
    simp only [commentBody_snd_of_not_mem hend]

theorem readKeyword_colonSplits (k : Keyword) (u : Text) : ColonSplits (readKeyword line k) u := by
  intro t r l hread
  refine .inl fun v => ?_
  cases hmark : k.mark? with
  | none =>
    rw [readKeyword_of_mark_eq_none hmark] at hread
    cases hread
    exact readKeyword_of_mark_eq_none hmark
  | some mark =>
    by_cases hcut : ∃ r', cut u = some (.mark mark, r')
    · obtain ⟨r', hcut⟩ := hcut
      rw [readKeyword_of_mark hmark hcut] at hread
      cases hread
      exact readKeyword_of_mark hmark (cut_append_colon_of_ne (by simp) hcut v)
    · obtain ⟨r', l', hfault⟩ := @readKeyword_of_ne line _ _ _ hmark (not_exists.1 hcut)
      rw [hfault] at hread
      cases hread

theorem readIdentifier_colonSplits (name u : Text) : ColonSplits (readIdentifier line name) u := by
  intro t r l hread
  refine .inl fun v => ?_
  by_cases hcut : ∃ r', cut u = some (.mark '(', r')
  · obtain ⟨r', hcut⟩ := hcut
    rw [readIdentifier_array hcut] at hread
    cases hread
    exact readIdentifier_array (cut_append_colon_of_ne (by simp) hcut v)
  · rw [readIdentifier_of_ne (not_exists.1 hcut)] at hread
    cases hread
    exact readIdentifier_of_ne (cut_append_colon_ne (not_exists.1 hcut) v)

theorem readWord_colonSplits (word u : Text) : ColonSplits (readWord line word) u := by
  cases hword : Keyword.ofWord? word with
  | none =>
    by_cases hdollar : word.head? = some '$'
    · have hread : readWord line word = (.token ⟨line, .directive word⟩ · line) := by
        funext s
        simp [readWord, hword, hdollar]
      rw [hread]
      exact colonSplits_token _ _ u
    · have hread : readWord line word = readIdentifier line word := by
        funext s
        simp [readWord, hword, hdollar]
      rw [hread]
      exact readIdentifier_colonSplits word u
  | some k =>
    by_cases hrem : k = .rem
    · subst hrem
      have hread : readWord line word =
          fun s => .token ⟨line, .comment (commentBody s).1⟩ (commentBody s).2 line := by
        funext s
        simp [readWord, hword]
      rw [hread]
      exact colonSplits_comment u
    · have hread : readWord line word = readKeyword line k := funext fun s =>
        readWord_keyword hword hrem
      rw [hread]
      exact readKeyword_colonSplits k u

theorem readPunctuation_colonSplits (c : Char) (u : Text) :
    ColonSplits (readPunctuation line c) u := by
  unfold readPunctuation
  split <;> exact colonSplits_token _ _ u

/-- What a colon does to a text is decided after the first lexeme, unless that is an open string. -/
theorem ColonSplits.of_cut {x : Lexeme} (hcut : cut u = some (x, r))
    (h : ColonSplits (fun s => readLexeme line (some (x, s))) r) :
    ColonSplits (readToken line) u := by
  rcases cut_append_colon hcut with hsame | ⟨text, hopen⟩
  · refine h.of_eq ?_ fun v => ?_
    · rw [readToken_eq, hcut]
    · rw [readToken_eq, hsame]
  · intro t r' l _
    refine .inr ⟨⟨line, .quoted text⟩, line, ?_⟩
    rw [readToken_eq, hopen, readLexeme]

theorem readToken_colonSplits (line : Nat) (u : Text) : ColonSplits (readToken line) u := by
  fun_induction readToken line u with
  | case1 line u hcut =>
    intro t r l hread
    rw [readToken_eq, hcut] at hread
    cases hread
  | case2 line u r hcut | case3 line u _ r hcut | case4 line u _ r hcut =>
    exact .of_cut hcut (colonSplits_token _ _ r)
  | case5 line u word r hcut => exact .of_cut hcut (readWord_colonSplits word r)
  | case6 line u c r hcut hc r' hend ih =>
    refine .of_cut hcut (ih.of_eq ?_ fun v => ?_)
    · simp only [readLexeme, hc, hend]
    · simp only [readLexeme, hc, cut_append_colon_of_ne (by simp) hend]
  | case7 line u c r hcut hc x r' hno hend =>
    refine .of_cut hcut (.of_fault (e := .unexpectedLexeme line x) (r := r') (l := line) ?_)
    simp only [readLexeme, hc, hend]
  | case8 line u c r hcut hc hend =>
    refine .of_cut hcut (.of_fault (e := .openContinuation line) (r := []) (l := line) ?_)
    simp only [readLexeme, hc, hend]
  | case9 line u c r hcut hc =>
    refine .of_cut hcut ?_
    simp only [readLexeme, hc]
    exact readPunctuation_colonSplits c r
  | case10 line u c r hcut hno hno' =>
    refine .of_cut hcut (.of_fault (e := .unexpectedLexeme line (.mark c)) (r := r) (l := line) ?_)
    simp only [readLexeme]

/-- Where no token takes in a colon at the end of the text, the text is read as before a colon. -/
theorem Reads.append_colon (h : Reads line u ts l r)
    (hcolon : ts.length < (lexFrom line (u ++ [':'])).tokens.length) (v : Text) :
    Reads line (u ++ ':' :: v) ts l (r ++ ':' :: v) := by
  induction h with
  | nil => exact .nil
  | @cons line l l' u u' r t ts hread _ ih =>
    rcases readToken_colonSplits line u t u' l hread with hsame | ⟨t', l'', htaken⟩
    · rw [lexFrom_token (hsame [])] at hcolon
      simp only [Lexed.after, List.singleton_append, List.length_cons] at hcolon
      exact .cons (hsame v) (ih (by omega))
    · -- the token that takes in the colon is the last one
      rw [lexFrom_token htaken, lexFrom_done (readToken_eq l'' [])] at hcolon
      simp only [Lexed.after, List.append_nil, List.length_cons, List.length_nil] at hcolon
      omega

theorem readToken_comment_line {b : Text} (hfeed : '\n' ∉ b) (v : Text) :
    readToken line ("REM ".toList ++ b ++ '\n' :: v) =
      .token ⟨line, .comment (trimReturn b)⟩ ('\n' :: v) line := by
  have hspace : Stops inWord (' ' :: (b ++ '\n' :: v)) := stops_cons.2 (by decide)
  have hend : Stops (· != '\n') ('\n' :: v) := stops_cons.2 (by decide)
  have hrem : "REM ".toList ++ b ++ '\n' :: v =
      LetterCase.upper.apply Keyword.rem.word ++ ' ' :: (b ++ '\n' :: v) := by
    rw [List.append_assoc]
    rfl
  rw [hrem, readToken_rem hspace, commentBody_space hfeed hend]
  rfl

end Lexing

open Lexing in
/-- Where a colon after a text is read as a token of its own, so is a comment after the colon, whatever it
looks like. The text after its line is read as if it stood alone. -/
theorem lex_comment_line {u b v : Text} {tu : List Token} {line : Nat} (hreturn : '\r' ∉ u)
    (hfeed : '\n' ∉ b) (hu : lex u = .ok tu)
    (hcolon : lex (u ++ [':']) = .ok (tu ++ [⟨line, .punct ':'⟩])) :
    lex (u ++ ":REM ".toList ++ b ++ '\n' :: v) =
      match lex v with
      | .ok tv => .ok (tu ++ [⟨u.count '\n' + 1, .punct ':'⟩,
          ⟨u.count '\n' + 1, .comment (trimReturn b)⟩, ⟨u.count '\n' + 1, .lineEnd⟩] ++
          tv.map (Token.down (u.count '\n' + 1)))
      | .error e => .error (e.down (u.count '\n' + 1)) := by
  obtain ⟨l, gap, hreads, hgap, hline⟩ := exists_reads_gap hreturn hu
  have hlength : tu.length < (lexFrom 1 (u ++ [':'])).tokens.length := by
    rw [lex_eq_ok_iff.1 hcolon]
    simp
  let k := u.count '\n' + 1
  let comment := "REM ".toList ++ b ++ '\n' :: v
  have htext : u ++ ":REM ".toList ++ b ++ '\n' :: v = u ++ ':' :: comment := by
    simp [comment]
  have hbefore : Reads 1 (u ++ ':' :: comment) tu l (gap ++ ':' :: comment) :=
    hreads.append_colon hlength comment
  have hmark : readToken l (gap ++ ':' :: comment) = .token ⟨k, .punct ':'⟩ comment k := by
    rw [readToken_gap hgap, hline, readToken_colon]
  have hcomment : Reads l (gap ++ ':' :: comment)
      [⟨k, .punct ':'⟩, ⟨k, .comment (trimReturn b)⟩, ⟨k, .lineEnd⟩] (k + 1) v :=
    .cons hmark (.cons (readToken_comment_line hfeed v) (.single (readToken_lineFeed k v)))
  rw [lex, htext, (hbefore.trans hcomment).lexFrom_eq, lexFrom_succ, lex]
  obtain ⟨tv, _ | e⟩ := lexFrom 1 v <;> simp [Lexed.result, Lexed.after, Lexed.down, k]

/-- A comment of code after a name on a broken line, before a line that is read and one that is not. -/
theorem lex_comment_line_like_code :
    let u := "10 REM \"A:\n20 A$=\"B:\"\\\n :B".toList
    let b := "\"?\\:PR 6\rB\r".toList
    let v := "40 END".toList
    let v' := "\nPR 6".toList
    let tu := [⟨1, .number (.ofNat 10)⟩, ⟨1, .comment ['"', 'A', ':']⟩, ⟨1, .lineEnd⟩,
      ⟨2, .number (.ofNat 20)⟩, ⟨2, .identifier ['A', '$']⟩, ⟨2, .keyword .equal⟩,
      ⟨2, .quoted ['B', ':']⟩, ⟨3, .punct ':'⟩, ⟨3, .identifier ['B']⟩]
    '\r' ∉ u ∧ '\n' ∉ b ∧ lex u = .ok tu ∧ lex (u ++ [':']) = .ok (tu ++ [⟨3, .punct ':'⟩]) ∧
      lex (u ++ ":REM ".toList ++ b ++ '\n' :: v) =
        .ok (tu ++ [⟨3, .punct ':'⟩, ⟨3, .comment "\"?\\:PR 6\rB".toList⟩, ⟨3, .lineEnd⟩,
          ⟨4, .number (.ofNat 40)⟩, ⟨4, .keyword .endRun⟩]) ∧
      lex (u ++ ":REM ".toList ++ b ++ '\n' :: v') = .error (.missingMark 5 .prSlot '#') := by
  intro u b v v' tu
  have hreturn : '\r' ∉ u := by decide
  have hfeed : '\n' ∉ b := by decide
  have hlex : lex u = .ok tu ∧ lex (u ++ [':']) = .ok (tu ++ [⟨3, .punct ':'⟩]) ∧
      lex v = .ok [⟨1, .number (.ofNat 40)⟩, ⟨1, .keyword .endRun⟩] ∧
      lex v' = .error (.missingMark 2 .prSlot '#') := by
    decide +kernel
  obtain ⟨hu, hcolon, hv, hv'⟩ := hlex
  refine ⟨hreturn, hfeed, hu, hcolon, ?_, ?_⟩
  · rw [lex_comment_line hreturn hfeed hu hcolon, hv]
    rfl
  · rw [lex_comment_line hreturn hfeed hu hcolon, hv']
    rfl

end Applesoft
