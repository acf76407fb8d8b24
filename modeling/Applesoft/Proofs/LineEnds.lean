import Applesoft.Proofs.EmittedTokens
import Applesoft.Proofs.KeptRuns

/-!
# Other line ends

A carriage return, alone or with a line feed after it, ends a line as a line feed does, wherever
lexemes are cut. A comment goes on to the next line feed, so a comment in a text whose line ends are
carriage returns takes in all that follows: such a text is read like one with line feeds exactly if
none of these ends a comment.
-/
namespace Applesoft

def withLineEnd (e : Text) (s : Text) : Text :=
  s.flatMap fun c => if c = '\n' then e else [c]

def IsLineEnd (e : Text) : Prop := e = ['\r'] ∨ e = ['\r', '\n']

section WithLineEnd

variable {e s r : Text} {c : Char}

theorem withLineEnd_lineFeed (e s : Text) : withLineEnd e ('\n' :: s) = e ++ withLineEnd e s := rfl

theorem withLineEnd_cons (hc : c ≠ '\n') (e s : Text) :
    withLineEnd e (c :: s) = c :: withLineEnd e s :=
  substituted_cons hc e s

theorem withLineEnd_append_of_not_mem {w : Text} (hw : '\n' ∉ w) (e s : Text) :
    withLineEnd e (w ++ s) = w ++ withLineEnd e s :=
  substituted_append_of_not_mem hw e s

theorem withLineEnd_of_not_mem (hs : '\n' ∉ s) (e : Text) : withLineEnd e s = s := by
  simpa [withLineEnd] using withLineEnd_append_of_not_mem hs e []

theorem IsLineEnd.exists_eq_cons (he : IsLineEnd e) : ∃ e', e = '\r' :: e' := by
  rcases he with rfl | rfl
  · exact ⟨[], rfl⟩
  · exact ⟨['\n'], rfl⟩

theorem keepsRuns_withLineEnd (he : IsLineEnd e) : KeepsRuns fun s t => t = withLineEnd e s := by
  obtain ⟨e', rfl⟩ := he.exists_eq_cons
  exact keepsRuns_substituted (by decide) (by decide) e'

theorem lineFeed_not_mem_withLineEnd (s : Text) : '\n' ∉ withLineEnd ['\r'] s := by
  intro hmem
  obtain ⟨c, -, hc⟩ := List.mem_flatMap.1 hmem
  split at hc
  · simp at hc
  · next hne => exact hne (List.mem_singleton.1 hc).symm

/-- A text begins with no character that it has not had before, a carriage return apart. -/
theorem withLineEnd_eq_cons (he : IsLineEnd e) (hreturn : c ≠ '\r')
    (h : withLineEnd e s = c :: r) : ∃ s', s = c :: s' := by
  obtain ⟨e', rfl⟩ := he.exists_eq_cons
  obtain ⟨s', hs, -⟩ := exists_of_substituted hreturn h
  exact ⟨s', hs⟩

theorem head?_withLineEnd_ne (he : IsLineEnd e) (s : Text) :
    (withLineEnd e s).head? ≠ some '\n' := by
  cases s with
  | nil => simp [withLineEnd]
  | cons c s =>
    by_cases hc : c = '\n'
    · subst hc
      rw [withLineEnd_lineFeed]
      rcases he with rfl | rfl <;> simp
    · rw [withLineEnd_cons hc]
      simpa using hc

variable {p : Char → Bool}

theorem takeWhile_withLineEnd (he : IsLineEnd e) (hfeed : p '\n' = false) (hreturn : p '\r' = false)
    (s : Text) : (withLineEnd e s).takeWhile p = s.takeWhile p := by
  obtain ⟨e', rfl⟩ := he.exists_eq_cons
  exact takeWhile_substituted hfeed hreturn e' s

theorem dropWhile_withLineEnd (he : IsLineEnd e) (hfeed : p '\n' = false) (hreturn : p '\r' = false)
    (s : Text) : (withLineEnd e s).dropWhile p = withLineEnd e (s.dropWhile p) := by
  obtain ⟨e', rfl⟩ := he.exists_eq_cons
  exact dropWhile_substituted hfeed hreturn e' s

end WithLineEnd

namespace Lexeme

variable {e : Text}

theorem cut_lineEnd (he : IsLineEnd e) {r : Text} (hr : r.head? ≠ some '\n') :
    cut (e ++ r) = some (.lineEnd, r) := by
  have hclass : CharClass.ofChar '\r' = .lineEnd := by decide
  rcases he with rfl | rfl
  · simp only [List.singleton_append, cut_cons, hclass]
    split
    · exact absurd rfl hr
    · rfl
  · simp only [List.cons_append, List.nil_append, cut_cons, hclass]

theorem cut_return {r : Text} (hr : r.head? ≠ some '\n') :
    cut ('\r' :: r) = some (.lineEnd, r) :=
  cut_lineEnd (.inl rfl : IsLineEnd ['\r']) hr

theorem cutNumber_withLineEnd (he : IsLineEnd e) (s : Text) :
    cutNumber (withLineEnd e s) = (cutNumber s).map id (withLineEnd e) := by
  obtain ⟨hnumber, hleft⟩ := (keepsRuns_withLineEnd he).cutNumber (s := s) rfl
  exact Prod.ext hnumber.symm hleft

theorem cutWord_withLineEnd (he : IsLineEnd e) (c : Char) (s : Text) :
    cutWord c (withLineEnd e s) = (cutWord c s).map id (withLineEnd e) := by
  obtain ⟨hword, hleft⟩ := (keepsRuns_withLineEnd he).cutWord (s := s) rfl c
  exact Prod.ext hword.symm hleft

theorem cutQuoted_withLineEnd (he : IsLineEnd e) (s : Text) :
    cutQuoted (withLineEnd e s) = (cutQuoted s).map id (withLineEnd e) := by
  have hfeed : inQuotes '\n' = false := by decide
  have hreturn : inQuotes '\r' = false := by decide
  unfold cutQuoted
  rw [takeWhile_withLineEnd he hfeed hreturn, dropWhile_withLineEnd he hfeed hreturn]
  generalize s.dropWhile inQuotes = r
  by_cases hquote : ∃ r', r = '"' :: r'
  · obtain ⟨r', rfl⟩ := hquote
    rw [withLineEnd_cons (by decide)]
    rfl
  · split
    · next heq => exact absurd (withLineEnd_eq_cons he (by decide) heq) hquote
    · split
      · exact absurd ⟨_, rfl⟩ hquote
      · rfl

/-- Other line ends change nothing but the line ends in the text that is left. -/
theorem cut_withLineEnd (he : IsLineEnd e) {s : Text} (hreturn : '\r' ∉ s) :
    cut (withLineEnd e s) = (cut s).map (Prod.map id (withLineEnd e)) := by
  have hfeed {c : Char} (hc : CharClass.ofChar c ≠ .lineEnd) : c ≠ '\n' := by
    rintro rfl
    exact hc (by decide)
  fun_induction cut s with
  | case1 => rfl
  | case2 c rest hc ih =>
    rw [withLineEnd_cons (hfeed (by simp [hc])), cut_blank hc]
    exact ih fun hmem => hreturn (List.mem_cons_of_mem c hmem)
  | case3 r' hc => exact absurd List.mem_cons_self hreturn
  | case4 c hc rest hno =>
    obtain rfl : c = '\n' := by
      refine (ofChar_eq_lineEnd_iff.1 hc).resolve_right ?_
      rintro rfl
      exact hreturn List.mem_cons_self
    rw [withLineEnd_lineFeed, cut_lineEnd he (head?_withLineEnd_ne he rest)]
    rfl
  | case5 c rest hc =>
    rw [withLineEnd_cons (hfeed (by simp [hc]))]
    simp only [cut_cons, hc, cutQuoted_withLineEnd he, Option.map_some]
  | case6 c rest hc =>
    have hne : c ≠ '\n' := hfeed (by simp [hc])
    have hcons := withLineEnd_cons hne e rest
    rw [hcons, cut_numeric hc, ← hcons, cutNumber_withLineEnd he, Option.map_some]
  | case7 c rest hc =>
    have hne : c ≠ '\n' := hfeed (by simp [hc])
    rw [withLineEnd_cons hne]
    simp only [cut_cons, hc, cutWord_withLineEnd he, Option.map_some]
  | case8 c rest hc | case9 c rest hc | case10 c rest hc =>
    rw [withLineEnd_cons (hfeed (by simp [hc]))]
    simp only [cut_cons, hc, Option.map_some, Prod.map_apply, id_eq]

end Lexeme

namespace Lexing

open Lexeme

variable {line : Nat} {e s : Text}

def readComment (line : Nat) (s : Text) : Reading :=
  .token ⟨line, .comment (commentBody s).1⟩ (commentBody s).2 line

inductive Relined (e : Text) : Reading → Reading → Prop
  | token {t : Token} {r : Text} {l : Nat} : (∀ text, t.kind ≠ .comment text) →
      Relined e (.token t r l) (.token t (withLineEnd e r) l)
  | comment {l : Nat} {s : Text} : '\r' ∉ s →
      Relined e (readComment l s) (readComment l (withLineEnd e s))
  | fault {e' : Error} {r : Text} {l : Nat} :
      Relined e (.fault e' r l) (.fault e' (withLineEnd e r) l)
  | done {l : Nat} : Relined e (.done l) (.done l)

theorem readKeyword_withLineEnd (he : IsLineEnd e) (hreturn : '\r' ∉ s) (k : Keyword) :
    Relined e (readKeyword line k s) (readKeyword line k (withLineEnd e s)) := by
  unfold readKeyword
  cases k.mark? with
  | none => exact .token (by simp)
  | some mark =>
    dsimp only
    rw [cut_withLineEnd he hreturn]
    cases cut s with
    | none => exact .fault
    | some p =>
      obtain ⟨x, r⟩ := p
      simp only [Option.map_some, Prod.map_apply, id_eq]
      split
      · exact .token (by simp)
      · exact .fault

theorem readIdentifier_withLineEnd (he : IsLineEnd e) (hreturn : '\r' ∉ s) (name : Text) :
    Relined e (readIdentifier line name s) (readIdentifier line name (withLineEnd e s)) := by
  have hcut := cut_withLineEnd he hreturn
  by_cases hparen : ∃ r, cut s = some (.mark '(', r)
  · obtain ⟨r, hr⟩ := hparen
    rw [hr] at hcut
    rw [readIdentifier_array hr, readIdentifier_array hcut]
    exact .token (by simp)
  · have hno : ∀ r, cut s ≠ some (.mark '(', r) := not_exists.1 hparen
    have hno' : ∀ r, cut (withLineEnd e s) ≠ some (.mark '(', r) := by
      intro r hr
      rw [hcut, Option.map_eq_some_iff] at hr
      obtain ⟨⟨x, r'⟩, hx, heq⟩ := hr
      obtain rfl : x = .mark '(' := (Prod.mk.inj heq).1
      exact hno r' hx
    rw [readIdentifier_of_ne hno, readIdentifier_of_ne hno']
    exact .token (by simp)

theorem readWord_withLineEnd (he : IsLineEnd e) (hreturn : '\r' ∉ s) (word : Text) :
    Relined e (readWord line word s) (readWord line word (withLineEnd e s)) := by
  unfold readWord
  split
  · exact .comment hreturn
  · exact readKeyword_withLineEnd he hreturn _
  · split
    · exact .token (by simp)
    · exact readIdentifier_withLineEnd he hreturn word

theorem readPunctuation_withLineEnd (e : Text) (c : Char) (s : Text) :
    Relined e (readPunctuation line c s) (readPunctuation line c (withLineEnd e s)) := by
  unfold readPunctuation
  split <;> exact .token (by simp)

/-- Other line ends change what is read only if it is a comment. -/
theorem readToken_withLineEnd (he : IsLineEnd e) (line : Nat) (hreturn : '\r' ∉ s) :
    Relined e (readToken line s) (readToken line (withLineEnd e s)) := by
  have hcuts := @cut_withLineEnd e he
  have hrest {s : Text} {p : Lexeme × Text} (h : '\r' ∉ s) (hcut : cut s = some p) :
      '\r' ∉ p.2 := fun hmem => h ((cut_suffix hcut).subset hmem)
  fun_induction readToken line s with
  | case1 line s hcut =>
    rw [readToken_eq, hcuts hreturn, hcut]
    exact .done
  | case2 line s r hcut | case3 line s _ r hcut | case4 line s _ r hcut =>
    rw [readToken_eq, hcuts hreturn, hcut]
    exact .token (by simp)
  | case5 line s word r hcut =>
    rw [readToken_eq, hcuts hreturn, hcut]
    exact readWord_withLineEnd he (hrest hreturn hcut) word
  | case6 line s c r hcut hc r' hend ih =>
    have hr := hrest hreturn hcut
    rw [readToken_eq line (withLineEnd e s), hcuts hreturn, hcut]
    simp only [Option.map_some, Prod.map_apply, id_eq, readLexeme, hc, hcuts hr, hend]
    exact ih (hrest hr hend)
  | case7 line s c r hcut hc x r' hno hend =>
    rw [readToken_eq line (withLineEnd e s), hcuts hreturn, hcut]
    simp only [Option.map_some, Prod.map_apply, id_eq, readLexeme, hc, hcuts (hrest hreturn hcut), hend]
    exact .fault
  | case8 line s c r hcut hc hend =>
    rw [readToken_eq line (withLineEnd e s), hcuts hreturn, hcut]
    simp only [Option.map_some, Prod.map_apply, id_eq, readLexeme, hc, hcuts (hrest hreturn hcut), hend]
    exact .fault
  | case9 line s c r hcut hc =>
    rw [readToken_eq, hcuts hreturn, hcut]
    simp only [Option.map_some, Prod.map_apply, id_eq, readLexeme, hc]
    exact readPunctuation_withLineEnd e c r
  | case10 line s c r hcut hno hno' =>
    rw [readToken_eq, hcuts hreturn, hcut]
    simp only [Option.map_some, Prod.map_apply, id_eq, readLexeme]
    exact .fault

/-- No comment is ended by a line end: only the last token can be a comment. -/
def Lexed.EndsNoComment (x : Lexed) : Prop :=
  ∀ t ∈ x.tokens.dropLast, ∀ text, t.kind ≠ .comment text

theorem lineFeed_not_mem_of_commentBody (h : (commentBody s).2 = []) : '\n' ∉ s := by
  obtain ⟨space, body, hspace, rfl, hbody⟩ := exists_commentBody s
  rw [hbody] at h
  have hall := List.dropWhile_eq_nil_iff.1 h
  intro hmem
  rcases List.mem_append.1 hmem with hmem | hmem
  · rcases hspace with rfl | rfl <;> simp at hmem
  · exact absurd (hall _ hmem) (by decide)

theorem commentBody_of_lineFeed_not_mem (h : '\n' ∉ s) : (commentBody s).2 = [] := by
  obtain ⟨space, body, -, rfl, hbody⟩ := exists_commentBody s
  rw [hbody]
  refine List.dropWhile_eq_nil_iff.2 fun c hc => ?_
  simp only [bne_iff_ne, ne_eq]
  rintro rfl
  exact h (List.mem_append_right _ hc)

theorem lexFrom_nil (line : Nat) : lexFrom line [] = ⟨[], none⟩ :=
  lexFrom_done (readToken_eq line [])

/-- What is left after a comment begins with the line end that ends it. -/
theorem Lexed.EndsNoComment.rest_eq_nil {l : Nat} {text r : Text}
    (h : ((lexFrom l r).after [⟨line, .comment text⟩]).EndsNoComment)
    (hr : Stops (· != '\n') r) : r = [] := by
  cases r with
  | nil => rfl
  | cons c r =>
    obtain rfl : c = '\n' := by simpa using stops_cons.1 hr
    rw [lexFrom_token (readToken_lineFeed l r)] at h
    exact absurd rfl (h ⟨line, .comment text⟩ List.mem_cons_self text)

theorem Lexed.EndsNoComment.tail {t : Token} {x : Lexed} (h : (x.after [t]).EndsNoComment) :
    x.EndsNoComment := by
  intro t' ht' text
  refine h t' ?_ text
  obtain ⟨_ | ⟨t'', ts⟩, fault⟩ := x
  · cases ht'
  · exact List.mem_cons_of_mem t ht'

theorem Lexed.EndsNoComment.cons {t : Token} {x : Lexed} (ht : ∀ text, t.kind ≠ .comment text)
    (h : x.EndsNoComment) : (x.after [t]).EndsNoComment := by
  intro t' ht' text
  obtain ⟨_ | ⟨t'', ts⟩, fault⟩ := x
  · cases ht'
  · rcases List.mem_cons.1 ht' with rfl | hmem
    · exact ht text
    · exact h t' hmem text

/-- A text in which no comment is ended is read as it is with other line ends. -/
theorem lexFrom_withLineEnd (he : IsLineEnd e) (hreturn : '\r' ∉ s)
    (hopen : (lexFrom line s).EndsNoComment) :
    lexFrom line (withLineEnd e s) = lexFrom line s := by
  fun_induction lexFrom line s with
  | case1 line s l hread =>
    have h := readToken_withLineEnd he line hreturn
    rw [hread] at h
    generalize hy : readToken line (withLineEnd e s) = y at h
    cases h
    exact lexFrom_done hy
  | case2 line s e' r l hread =>
    have h := readToken_withLineEnd he line hreturn
    rw [hread] at h
    generalize hy : readToken line (withLineEnd e s) = y at h
    cases h
    exact lexFrom_fault hy
  | case3 line s t r l hread more ih =>
    have h := readToken_withLineEnd he line hreturn
    have hr : '\r' ∉ r := fun hmem => hreturn ((readToken_suffix hread).subset hmem)
    rw [hread] at h
    generalize hy : readToken line (withLineEnd e s) = y at h
    cases h with
    | token hno =>
      rw [lexFrom_token hy, ih hr hopen.tail]
      rfl
    | @comment _ body hbody =>
      -- nothing is left after the comment, so there is no line end in it that could differ
      have hnil : (commentBody body).2 = [] :=
        hopen.rest_eq_nil ((commentBody_sound line body).2.2.2 _ rfl)
      rw [withLineEnd_of_not_mem (lineFeed_not_mem_of_commentBody hnil)] at hy
      exact lexFrom_token hy

/-- Without line feeds no comment is ended. -/
theorem lexFrom_endsNoComment (line : Nat) (hfeed : '\n' ∉ s) :
    (lexFrom line s).EndsNoComment := by
  fun_induction lexFrom line s with
  | case1 | case2 => exact fun t ht => absurd ht List.not_mem_nil
  | case3 line s t r l hread more ih =>
    have hsound := readToken_sound line s
    rw [hread] at hsound
    obtain ⟨-, -, hsuffix, hcomment⟩ := hsound
    have hr : '\n' ∉ r := fun hmem => hfeed (hsuffix.subset hmem)
    by_cases ht : ∃ text, t.kind = .comment text
    · obtain ⟨text, htext⟩ := ht
      have hnil : r = [] := by
        cases r with
        | nil => rfl
        | cons c r =>
          obtain rfl : c = '\n' := by simpa using stops_cons.1 (hcomment text htext)
          exact absurd List.mem_cons_self hr
      subst hnil
      have hmore : more = ⟨[], none⟩ := lexFrom_nil l
      rw [hmore]
      exact fun t ht => absurd ht List.not_mem_nil
    · exact (ih hr).cons (not_exists.1 ht)

/-- Where a comment is ended, carriage returns are taken into it with all that follows. -/
theorem fault_withReturns (hreturn : '\r' ∉ s) (hended : ¬ (lexFrom line s).EndsNoComment) :
    (lexFrom line (withLineEnd ['\r'] s)).fault = none := by
  fun_induction lexFrom line s with
  | case1 | case2 => exact absurd (fun t ht => absurd ht List.not_mem_nil) hended
  | case3 line s t r l hread more ih =>
    have h := readToken_withLineEnd (.inl rfl) line hreturn
    have hr : '\r' ∉ r := fun hmem => hreturn ((readToken_suffix hread).subset hmem)
    rw [hread] at h
    generalize hy : readToken line (withLineEnd ['\r'] s) = y at h
    cases h with
    | token hno =>
      rw [lexFrom_token hy]
      exact ih hr fun hopen => hended (hopen.cons hno)
    | @comment _ body hbody =>
      have hnil := commentBody_of_lineFeed_not_mem (lineFeed_not_mem_withLineEnd body)
      rw [lexFrom_token hy, hnil, lexFrom_nil]
      rfl

end Lexing

open Lexing in
/-- A text whose lines end with carriage returns is read like the same text with line feeds exactly if
no line feed ends a comment. -/
theorem lex_withReturns_iff {s : Text} (hreturn : '\r' ∉ s) :
    lex (withLineEnd ['\r'] s) = lex s ↔ (lexFrom 1 s).EndsNoComment := by
  constructor
  · intro hsame
    by_contra hended
    have hok : lex (withLineEnd ['\r'] s) = .ok (lexFrom 1 (withLineEnd ['\r'] s)).tokens := by
      rw [lex, Lexed.result, fault_withReturns hreturn hended]
    have hread : lexFrom 1 s = lexFrom 1 (withLineEnd ['\r'] s) := by
      rw [lex_eq_ok_iff.1 hok, lex_eq_ok_iff.1 (hsame.symm.trans hok)]
    rw [hread] at hended
    exact hended (lexFrom_endsNoComment 1 (lineFeed_not_mem_withLineEnd s))
  · intro hopen
    rw [lex, lex, lexFrom_withLineEnd (.inl rfl) hreturn hopen]

open Lexing in
theorem lex_withReturns_open_comment :
    let s := "10 pr\t# 1\\ \n:A (?\"HI\n\nRem x".toList
    '\r' ∉ s ∧
      lex s = .ok [⟨1, .number (.ofNat 10)⟩, ⟨1, .keyword .prSlot⟩, ⟨1, .number (.ofNat 1)⟩,
        ⟨2, .punct ':'⟩, ⟨2, .identifier ['A', '(']⟩, ⟨2, .keyword .print⟩, ⟨2, .quoted ['H', 'I']⟩,
        ⟨2, .lineEnd⟩, ⟨3, .lineEnd⟩, ⟨4, .comment ['x']⟩] ∧
      (lex (withLineEnd ['\r'] s) = lex s ↔ (lexFrom 1 s).EndsNoComment) := by
  intro s
  have hreturn : '\r' ∉ s := by decide
  exact ⟨hreturn, by decide +kernel, lex_withReturns_iff hreturn⟩

/-- A comment that is not on the last line takes in the lines after it. -/
theorem lex_withReturns_ended_comment :
    let s := "10 REM A\n20 END\n".toList
    '\r' ∉ s ∧
      lex s = .ok [⟨1, .number (.ofNat 10)⟩, ⟨1, .comment ['A']⟩, ⟨1, .lineEnd⟩,
        ⟨2, .number (.ofNat 20)⟩, ⟨2, .keyword .endRun⟩, ⟨2, .lineEnd⟩] ∧
      lex (withLineEnd ['\r'] s) =
        .ok [⟨1, .number (.ofNat 10)⟩, ⟨1, .comment "A\r20 END".toList⟩] := by
  decide +kernel

end Applesoft
