import Applesoft.Proofs.BufferedLines

/-!
# Runs of the lexer

The lexer keeps a lexeme that it has read ahead and owes the end of a line that a comment has used up,
where a token stream reads a text again. `Follows` holds the one against the other. Every call keeps it
and gives the same answer, so whole runs agree, also those that go on after faults.
-/
namespace Applesoft

namespace TokenStream

def answer (t : TokenStream) : Reading → Draw × TokenStream
  | .token token rest line => (.token token, { t with text := rest, line := line })
  | .fault e rest line => (.fault e, { t with text := rest, line := line })
  | .done line =>
    match t.later with
    | [] => (.finished, { t with text := [], line := line, mayHaveMore := false })
    | text :: later => (.fault .undecodable, { t with text := text, line := line, later := later })

theorem next_eq (t : TokenStream) : t.next = t.answer (Lexing.readToken t.line t.text) := by
  unfold next
  cases Lexing.readToken t.line t.text <;> rfl

/-- What is answered depends on the text at hand through the reading alone. -/
theorem answer_at (t : TokenStream) (text : Text) (line : Nat) (reading : Reading) :
    { t with text := text, line := line }.answer reading = t.answer reading := by
  cases reading <;> rfl

end TokenStream

namespace Lexer

open TokenStream (Draw Mode)

/-- Nothing has been read ahead of the source. -/
structure Level (x : Lexer) (t : TokenStream) : Prop where
  pushed : x.pushed = none
  owed : x.owed = none
  more : x.mayHaveMore = t.mayHaveMore
  stands : x.source.Stands t.text t.later t.line

/-- The lexer is about to draw what the stream is about to draw. -/
inductive Follows (x : Lexer) (t : TokenStream) : Prop
  | level {text : Text} : x.Level { t with text := text } → Lexeme.cut text = Lexeme.cut t.text →
      Follows x t
  | pushed {found : Lexeme} {r : Text} : x.pushed = some (t.line, found) →
      Lexeme.cut t.text = some (found, r) →
      { x with pushed := none }.Level { t with text := r, line := t.line + found.lines } →
      (found ≠ .lineEnd → x.source.InLine) → Follows x t
  | owed {r : Text} : x.owed = some t.line → t.text = '\n' :: r →
      { x with owed := none }.Level { t with text := r, line := t.line + 1 } → Follows x t

inductive Found (t : TokenStream) : Except Error (Option (Nat × Lexeme)) × Lexer → Prop
  | lexeme {x : Lexer} {found : Lexeme} {r : Text} : Lexeme.cut t.text = some (found, r) →
      x.Level { t with text := r, line := t.line + found.lines } →
      (found ≠ .lineEnd → x.source.InLine) → Found t (.ok (some (t.line, found)), x)
  | finished {x : Lexer} : Lexeme.cut t.text = none → t.later = [] → x.Level { t with text := [] } →
      Found t (.ok none, x)
  | undecodable {x : Lexer} {text : Text} {later : List Text} : Lexeme.cut t.text = none →
      t.later = text :: later → x.Level { t with text := text, later := later } →
      Found t (.error .undecodable, x)

def Agrees (drawn : Draw × Lexer) (drawn' : Draw × TokenStream) : Prop :=
  drawn.1 = drawn'.1 ∧ drawn.2.Follows drawn'.2

variable {x : Lexer} {t : TokenStream}

theorem Level.follows (h : x.Level t) : x.Follows t := .level h rfl

theorem Level.within (h : x.Level t) (hin : x.source.InLine) : x.source.Within t.text t.later t.line :=
  ⟨h.stands, hin⟩

/-- Within a line no undecodable line stands before the next lexeme. -/
theorem Level.later_eq_nil (h : x.Level t) (hin : x.source.InLine) (hcut : Lexeme.cut t.text = none) :
    t.later = [] :=
  (h.within hin).later_eq_nil_of_cut hcut

theorem Follows.mayHaveMore (h : x.Follows t) : x.mayHaveMore = t.mayHaveMore := by
  cases h with
  | level h => exact h.more
  | pushed _ _ h => exact h.more
  | owed _ _ h => exact h.more

theorem nextLexeme_of_none (h : x.pushed = none) :
    x.nextLexeme = (x.source.scan.1, { x with source := x.source.scan.2 }) := by
  unfold nextLexeme
  split
  · next hsome => cases h.symm.trans hsome
  · rfl

theorem Level.nextLexeme {text : Text} (h : x.Level { t with text := text })
    (hcut : Lexeme.cut text = Lexeme.cut t.text) : Found t x.nextLexeme := by
  obtain ⟨hpushed, howed, hmore, hstands⟩ := h
  have hscan := hstands.scan.of_cut_eq hcut
  rw [nextLexeme_of_none hpushed]
  generalize x.source.scan = answer at hscan
  cases hscan with
  | lexeme hsome hstands hin => exact .lexeme hsome ⟨hpushed, howed, hmore, hstands⟩ hin
  | finished hnone hlater hwithin =>
    have hlater : t.later = [] := hlater
    refine .finished hnone hlater ⟨hpushed, howed, hmore, ?_⟩
    rw [hlater]
    exact hwithin.stands
  | undecodable hnone hlater hstands =>
    exact .undecodable hnone hlater ⟨hpushed, howed, hmore, hstands⟩

theorem Follows.nextLexeme (h : x.Follows t) (howed : x.owed = none) : Found t x.nextLexeme := by
  cases h with
  | level h hcut => exact h.nextLexeme hcut
  | pushed hpushed hcut h hin =>
    rw [Lexer.nextLexeme, hpushed]
    exact .lexeme hcut h hin
  | owed hsome =>
    rw [howed] at hsome
    cases hsome

section Inversion

variable {x' : Lexer}

theorem Follows.of_lexeme {line : Nat} {found : Lexeme} (h : x.Follows t) (howed : x.owed = none)
    (heq : x.nextLexeme = (.ok (some (line, found)), x')) :
    line = t.line ∧ ∃ r, Lexeme.cut t.text = some (found, r) ∧
      x'.Level { t with text := r, line := t.line + found.lines } ∧
      (found ≠ .lineEnd → x'.source.InLine) := by
  have hfound := h.nextLexeme howed
  rw [heq] at hfound
  cases hfound with
  | lexeme hcut h' hin => exact ⟨rfl, _, hcut, h', hin⟩

theorem Follows.of_finished (h : x.Follows t) (howed : x.owed = none)
    (heq : x.nextLexeme = (.ok none, x')) :
    Lexeme.cut t.text = none ∧ t.later = [] ∧ x'.Level { t with text := [] } := by
  have hfound := h.nextLexeme howed
  rw [heq] at hfound
  cases hfound with
  | finished hcut hlater h' => exact ⟨hcut, hlater, h'⟩

theorem Follows.of_error {e : Error} (h : x.Follows t) (howed : x.owed = none)
    (heq : x.nextLexeme = (.error e, x')) :
    e = .undecodable ∧ ∃ text later, Lexeme.cut t.text = none ∧ t.later = text :: later ∧
      x'.Level { t with text := text, later := later } := by
  have hfound := h.nextLexeme howed
  rw [heq] at hfound
  cases hfound with
  | undecodable hcut hlater h' => exact ⟨rfl, _, _, hcut, hlater, h'⟩

end Inversion

/-- A comment leaves the stream before the line end that the lexer owes. -/
theorem Level.readComment (h : x.Level t) (hin : x.source.InLine) :
    ∃ x', x.readComment = (.ok (Lexing.commentBody t.text).1, x') ∧
      x'.Follows { t with text := (Lexing.commentBody t.text).2 } := by
  obtain ⟨s, hpeek, hwithin⟩ := (h.within hin).peek
  obtain ⟨body, hbody, hcomment⟩ : ∃ body,
      (if t.text.head? = some ' ' then s.advance else s).Within body t.later t.line ∧
      Lexing.commentBody t.text =
        (Lexing.trimReturn (body.takeWhile (· != '\n')), body.dropWhile (· != '\n')) := by
    by_cases hspace : t.text.head? = some ' '
    · obtain ⟨body, htext⟩ := List.head?_eq_some_iff.1 hspace
      rw [htext] at hwithin
      rw [if_pos hspace, htext]
      exact ⟨body, hwithin.advance (by decide), Lexing.commentBody_of_space body⟩
    · rw [if_neg hspace]
      exact ⟨t.text, hwithin, Lexing.commentBody_of_ne hspace⟩
  obtain ⟨ended, s', htake, htaken⟩ := hbody.takeLine
  have hread : x.readComment = (.ok (Lexing.commentBody t.text).1,
      { x with source := s', owed := if ended then some x.source.line else x.owed }) := by
    rw [Lexer.readComment, hpeek]
    dsimp only
    rw [htake, hcomment]
    rfl
  refine ⟨_, hread, ?_⟩
  rw [hcomment]
  dsimp only
  generalize body.dropWhile (· != '\n') = left at htaken
  cases htaken with
  | ended hstands =>
    refine .owed (congrArg some h.stands.line_eq) rfl ?_
    exact ⟨h.pushed, rfl, h.more, hstands⟩
  | last hstands => exact Level.follows ⟨h.pushed, h.owed, h.more, hstands⟩

theorem Level.readWord_rem (h : x.Level t) (hin : x.source.InLine) {word : Text}
    (hrem : Keyword.ofWord? word = some .rem) :
    Agrees (x.readWord t.line word) (t.answer (Lexing.readWord t.line word t.text)) := by
  obtain ⟨x', hread, hfollows⟩ := h.readComment hin
  rw [Lexer.readWord, Lexing.readWord, hrem]
  dsimp only
  rw [hread]
  exact ⟨rfl, hfollows⟩

/-- What is found in the place of the mark is used up. -/
theorem Level.readWord_keyword (h : x.Level t) (hin : x.source.InLine) {word : Text} {k : Keyword}
    (hsome : Keyword.ofWord? word = some k) (hrem : k ≠ .rem) :
    Agrees (x.readWord t.line word) (t.answer (Lexing.readWord t.line word t.text)) := by
  rw [Lexing.readWord_keyword hsome hrem, Lexing.readKeyword, Lexer.readWord]
  split
  · next heq => exact absurd (Option.some.inj (hsome.symm.trans heq)) hrem
  · next k' _ heq =>
    obtain rfl := Option.some.inj (hsome.symm.trans heq)
    cases k.mark? with
    | none => exact ⟨rfl, h.follows⟩
    | some mark =>
      have hfound := h.follows.nextLexeme h.owed
      dsimp only
      generalize x.nextLexeme = answer at hfound
      cases hfound with
      | @lexeme x' found r hcut h' _ =>
        rw [hcut]
        dsimp only [Option.map_some]
        by_cases hmark : found = .mark mark
        · subst hmark
          rw [if_pos rfl, if_pos rfl]
          exact ⟨rfl, h'.follows⟩
        · rw [if_neg hmark, if_neg (mt Option.some.inj hmark)]
          exact ⟨rfl, h'.follows⟩
      | finished hcut _ h' =>
        rw [hcut]
        exact ⟨rfl, h'.follows⟩
      | undecodable hcut hlater _ => cases hlater.symm.trans (h.later_eq_nil hin hcut)
  · next heq => cases hsome.symm.trans heq

theorem Level.readWord_name (h : x.Level t) (hin : x.source.InLine) {word : Text}
    (hnone : Keyword.ofWord? word = none) :
    Agrees (x.readWord t.line word) (t.answer (Lexing.readWord t.line word t.text)) := by
  rw [Lexer.readWord, Lexing.readWord, hnone]
  dsimp only
  by_cases hdollar : word.head? = some '$'
  · rw [if_pos hdollar, if_pos hdollar]
    exact ⟨rfl, h.follows⟩
  · rw [if_neg hdollar, if_neg hdollar]
    have hfound := h.follows.nextLexeme h.owed
    generalize x.nextLexeme = answer at hfound
    cases hfound with
    | @lexeme x' found r hcut h' hin' =>
      split
      · next heq => cases heq
      · next heq => cases heq
      · next heq =>
        cases heq
        rw [Lexing.readIdentifier_array hcut]
        exact ⟨rfl, h'.follows⟩
      · next other x₁ hne heq =>
        cases heq
        have hparen : ∀ r', Lexeme.cut t.text ≠ some (.mark '(', r') := by
          intro r' hsome
          obtain ⟨rfl, -⟩ := Prod.mk.inj (Option.some.inj (hcut.symm.trans hsome))
          exact hne t.line rfl
        rw [Lexing.readIdentifier_of_ne hparen]
        exact ⟨rfl, .pushed rfl hcut ⟨rfl, h'.owed, h'.more, h'.stands⟩ hin'⟩
    | finished hcut _ h' =>
      have hparen : ∀ r', Lexeme.cut t.text ≠ some (.mark '(', r') := by
        intro r' hsome
        cases hcut.symm.trans hsome
      rw [Lexing.readIdentifier_of_ne hparen]
      exact ⟨rfl, .level h' hcut.symm⟩
    | undecodable hcut hlater _ => cases hlater.symm.trans (h.later_eq_nil hin hcut)

theorem Level.readWord (h : x.Level t) (hin : x.source.InLine) (word : Text) :
    Agrees (x.readWord t.line word) (t.answer (Lexing.readWord t.line word t.text)) := by
  cases hword : Keyword.ofWord? word with
  | none => exact h.readWord_name hin hword
  | some k =>
    by_cases hrem : k = .rem
    · exact h.readWord_rem hin (hrem ▸ hword)
    · exact h.readWord_keyword hin hword hrem

/-- Reading on comes to what the stream answers. A joined line is read through on both sides. -/
theorem Follows.readOn (h : x.Follows t) (howed : x.owed = none) : Agrees x.readOn t.next := by
  rw [TokenStream.next_eq, Lexing.readToken_eq]
  fun_induction Lexer.readOn x generalizing t with
  | case1 x e x' heq =>
    obtain ⟨rfl, text, later, hcut, hlater, h'⟩ := h.of_error howed heq
    rw [hcut]
    simp only [Lexing.readLexeme, TokenStream.answer, hlater]
    exact ⟨rfl, h'.follows⟩
  | case2 x x' heq =>
    obtain ⟨hcut, hlater, h'⟩ := h.of_finished howed heq
    rw [hcut]
    simp only [Lexing.readLexeme, TokenStream.answer, hlater]
    refine ⟨rfl, Level.follows ⟨h'.pushed, h'.owed, rfl, ?_⟩⟩
    have hstands := h'.stands
    rw [hlater] at hstands
    exact hstands
  | case3 x line x' heq | case4 x line value x' heq | case5 x line text x' heq =>
    obtain ⟨rfl, r, hcut, h', -⟩ := h.of_lexeme howed heq
    rw [hcut]
    exact ⟨rfl, h'.follows⟩
  | case6 x line word x' heq =>
    obtain ⟨rfl, r, hcut, h', hin⟩ := h.of_lexeme howed heq
    rw [hcut]
    exact h'.readWord (hin (by simp)) word
  -- after a backslash the lexer still stands within the line, so that the next lexeme is that of the text
  | case7 x line c x' heq hescape e x'' heq' =>
    obtain ⟨rfl, r, -, h', hin⟩ := h.of_lexeme howed heq
    obtain ⟨-, text, later, hcut', hlater, -⟩ := h'.follows.of_error h'.owed heq'
    cases hlater.symm.trans (h'.later_eq_nil (hin (by simp)) hcut')
  | case8 x line c x' heq hescape x'' heq' =>
    obtain ⟨rfl, r, hcut, h', -⟩ := h.of_lexeme howed heq
    obtain ⟨hcut', -, h''⟩ := h'.follows.of_finished h'.owed heq'
    simp only [hcut, Lexing.readLexeme, hescape, hcut']
    exact ⟨rfl, h''.follows⟩
  | case9 x line c x' heq hescape line' x'' heq' ih =>
    obtain ⟨rfl, r, hcut, h', -⟩ := h.of_lexeme howed heq
    obtain ⟨-, r', hcut', h'', -⟩ := h'.follows.of_lexeme h'.owed heq'
    have hrest := ih h''.follows h''.owed
    rw [← Lexing.readToken_eq, TokenStream.answer_at, TokenStream.answer_at] at hrest
    simp only [hcut, Lexing.readLexeme, hescape, hcut']
    exact hrest
  | case10 x line c x' heq hescape line' other x'' hne heq' =>
    obtain ⟨rfl, r, hcut, h', -⟩ := h.of_lexeme howed heq
    obtain ⟨rfl, r', hcut', h'', -⟩ := h'.follows.of_lexeme h'.owed heq'
    cases other with
    | lineEnd => exact absurd rfl hne
    | _ =>
      simp only [hcut, Lexing.readLexeme, hescape, hcut']
      exact ⟨rfl, h''.follows⟩
  | case11 x line c x' heq hpunctuation k hk | case12 x line c x' heq hpunctuation hk =>
    obtain ⟨rfl, r, hcut, h', -⟩ := h.of_lexeme howed heq
    simp only [hcut, Lexing.readLexeme, hpunctuation, Lexing.readPunctuation, hk]
    exact ⟨rfl, h'.follows⟩
  | case13 x line c x' heq hescape hpunctuation =>
    obtain ⟨rfl, r, hcut, h', -⟩ := h.of_lexeme howed heq
    rw [hcut, Lexing.readLexeme]
    split
    · next hclass => exact absurd hclass hescape
    · next hclass => exact absurd hclass hpunctuation
    · exact ⟨rfl, h'.follows⟩

theorem Follows.next (h : x.Follows t) : Agrees x.next t.next := by
  cases howed : x.owed with
  | none =>
    rw [Lexer.next, howed]
    exact h.readOn howed
  | some line =>
    cases h with
    | level h => cases h.owed.symm.trans howed
    | pushed _ _ h => cases h.owed.symm.trans howed
    | owed hline htext h =>
      -- the stream has the line end that is owed still in its text
      obtain rfl := Option.some.inj (howed.symm.trans hline)
      rw [Lexer.next, howed, TokenStream.next_eq, htext, Lexing.readToken_lineFeed]
      exact ⟨rfl, h.follows⟩

/-- Neither depends on whether there may be more. -/
theorem Follows.stopped (h : x.Follows t) :
    { x with mayHaveMore := false }.Follows { t with mayHaveMore := false } := by
  cases h with
  | level h hcut => exact .level ⟨h.pushed, h.owed, rfl, h.stands⟩ hcut
  | pushed hpushed hcut h hin =>
    exact .pushed hpushed hcut ⟨h.pushed, h.owed, rfl, h.stands⟩ hin
  | owed howed htext h => exact .owed howed htext ⟨h.pushed, h.owed, rfl, h.stands⟩

theorem Follows.nextUnlessStopped (h : x.Follows t) :
    Agrees x.nextUnlessStopped t.nextUnlessStopped := by
  have hnext := h.next
  rw [Lexer.nextUnlessStopped, TokenStream.nextUnlessStopped, h.mayHaveMore]
  split
  · generalize x.next = drawn at hnext
    generalize t.next = drawn' at hnext
    obtain ⟨answer, x'⟩ := drawn
    obtain ⟨answer', t'⟩ := drawn'
    obtain ⟨rfl, hfollows⟩ := hnext
    cases answer with
    | fault e => exact ⟨rfl, hfollows.stopped⟩
    | token | finished => exact ⟨rfl, hfollows⟩
  · exact ⟨rfl, h⟩

/-- One call, in either way of drawing. -/
theorem Follows.draw (h : x.Follows t) (mode : Mode) : Agrees (x.draw mode) (t.draw mode) := by
  cases mode with
  | resuming => exact h.next
  | stopping => exact h.nextUnlessStopped

theorem Follows.drawMany (h : x.Follows t) (mode : Mode) (n : Nat) :
    x.drawMany mode n = t.drawMany mode n := by
  induction n generalizing x t with
  | zero => rfl
  | succ n ih =>
    obtain ⟨hanswer, hfollows⟩ := h.draw mode
    rw [Lexer.drawMany, TokenStream.drawMany]
    dsimp only
    rw [hanswer, hfollows.mayHaveMore, ih hfollows]

theorem follows_ofBytes (bytes : List UInt8) : (ofBytes bytes).Follows (.ofBytes bytes) :=
  Level.follows ⟨rfl, rfl, rfl, Source.stands_ofBytes bytes⟩

/-- Whichever way tokens are drawn from bytes, the lexer gives the answers of the stream. -/
theorem drawMany_ofBytes_eq (mode : Mode) (n : Nat) (bytes : List UInt8) :
    drawMany mode n (ofBytes bytes) = TokenStream.drawMany mode n (.ofBytes bytes) :=
  (follows_ofBytes bytes).drawMany mode n

end Lexer

def Lexing.Lexed.before (first : Lexed) : List Text → Lexed
  | [] => first
  | _ :: _ => ⟨first.tokens, some (first.fault.getD .undecodable)⟩

theorem Lexing.lexRuns_eq (runs : Text × List Text) :
    lexRuns runs = (lexFrom 1 runs.1).before runs.2 := by
  obtain ⟨text, later⟩ := runs
  rw [lexRuns]
  obtain ⟨tokens, _ | e⟩ := lexFrom 1 text <;> cases later <;> rfl

theorem Lexing.Lexed.before_after (first : Lexed) (later : List Text) (ts : List Token) :
    (first.after ts).before later = (first.before later).after ts := by
  cases later <;> rfl

def TokenStream.lexed (t : TokenStream) : Lexing.Lexed :=
  (Lexing.lexFrom t.line t.text).before t.later

theorem TokenStream.lexed_eq {t : TokenStream} (hmore : t.mayHaveMore = true) :
    t.lexed = match t.nextUnlessStopped with
      | (.token token, t') => t'.lexed.after [token]
      | (.fault e, _) => ⟨[], some e⟩
      | (.finished, _) => ⟨[], none⟩ := by
  rw [lexed, nextUnlessStopped, if_pos hmore, next_eq]
  cases hread : Lexing.readToken t.line t.text with
  | token token rest l =>
    rw [Lexing.lexFrom_token hread, Lexing.Lexed.before_after]
    rfl
  | fault e rest l =>
    rw [Lexing.lexFrom_fault hread]
    cases t.later <;> rfl
  | done l =>
    rw [Lexing.lexFrom_done hread]
    cases hlater : t.later <;> simp [answer, hlater, Lexing.Lexed.before]

theorem TokenStream.mayHaveMore_of_token {t t' : TokenStream} {token : Token}
    (h : t.nextUnlessStopped = (.token token, t')) : t'.mayHaveMore = true := by
  rw [nextUnlessStopped] at h
  split at h
  · next hmore =>
    rw [next_eq] at h
    cases hread : Lexing.readToken t.line t.text with
    | token token rest l =>
      rw [hread] at h
      obtain ⟨-, rfl⟩ := Prod.mk.inj h
      exact hmore
    | fault => simp [hread, answer] at h
    | done => cases hlater : t.later <;> simp [hread, answer, hlater] at h
  · cases (Prod.mk.inj h).1

namespace Lexer

variable {x : Lexer} {t : TokenStream}

theorem lexed_token {x' : Lexer} {token : Token} (h : x.nextUnlessStopped = (.token token, x')) :
    x.lexed = x'.lexed.after [token] := by
  rw [Lexer.lexed]
  split <;> simp_all [Lexing.Lexed.after]

theorem lexed_fault {x' : Lexer} {e : Error} (h : x.nextUnlessStopped = (.fault e, x')) :
    x.lexed = ⟨[], some e⟩ := by
  rw [Lexer.lexed]
  split <;> simp_all

theorem lexed_finished {x' : Lexer} (h : x.nextUnlessStopped = (.finished, x')) :
    x.lexed = ⟨[], none⟩ := by
  rw [Lexer.lexed]
  split <;> simp_all

theorem Follows.lexed (h : x.Follows t) (hmore : t.mayHaveMore = true) : x.lexed = t.lexed := by
  induction x using Lexer.lexed.induct generalizing t with
  | case1 x token x' heq ih =>
    obtain ⟨hanswer, hfollows⟩ := h.nextUnlessStopped
    rw [heq] at hanswer hfollows
    have hdrawn : t.nextUnlessStopped = (.token token, t.nextUnlessStopped.2) := Prod.ext hanswer.symm rfl
    rw [Lexer.lexed_token heq, TokenStream.lexed_eq hmore, hdrawn]
    dsimp only
    rw [ih hfollows (TokenStream.mayHaveMore_of_token hdrawn)]
  | case2 x e x' heq =>
    obtain ⟨hanswer, -⟩ := h.nextUnlessStopped
    rw [heq] at hanswer
    have hdrawn : t.nextUnlessStopped = (.fault e, t.nextUnlessStopped.2) := Prod.ext hanswer.symm rfl
    rw [Lexer.lexed_fault heq, TokenStream.lexed_eq hmore, hdrawn]
  | case3 x x' heq =>
    obtain ⟨hanswer, -⟩ := h.nextUnlessStopped
    rw [heq] at hanswer
    have hdrawn : t.nextUnlessStopped = (.finished, t.nextUnlessStopped.2) := Prod.ext hanswer.symm rfl
    rw [Lexer.lexed_finished heq, TokenStream.lexed_eq hmore, hdrawn]

/-- Lexing all of some bytes comes to the tokens of their runs of text. -/
theorem tokenize_eq (bytes : List UInt8) : tokenize bytes = lexBytes bytes := by
  rw [tokenize, (follows_ofBytes bytes).lexed rfl, lexBytes, Lexing.lexRuns_eq]
  rfl

theorem tokenize_encode (source : Text) : tokenize (SourceBytes.encode source) = lex source := by
  rw [tokenize_eq, lexBytes, SourceBytes.runs_encode, Lexing.lexRuns_eq]
  rfl

end Lexer

end Applesoft
