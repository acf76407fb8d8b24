import Applesoft.Proofs.FollowingText
import Applesoft.Proofs.KeptRuns
import Applesoft.Proofs.LikeTexts
import Applesoft.Proofs.PairedLineEnds

/-!
# The alias of `PRINT`

A question mark is a word by itself, whatever stands before and after it. So outside strings and
comments it is read as the word `PRINT` between blanks is, also where it is refused.
-/
namespace Applesoft

open Lexeme

/-- The text with the word `PRINT` between blanks in place of each question mark. -/
def withPrint (s : Text) : Text :=
  substituted '?' [' ', 'P', 'R', 'I', 'N', 'T', ' '] s

/-- The second text spells out the question marks of the first, after a blank if one has just been read. -/
def SpellsOut (s t : Text) : Prop := t = withPrint s ∨ t = ' ' :: withPrint s

def Lexeme.SpellsOut (x x' : Lexeme) : Prop :=
  x = x' ∨ x = .word ['?'] ∧ x' = .word ['P', 'R', 'I', 'N', 'T']

section WithPrint

variable {c : Char} {s t : Text}

theorem withPrint_cons (hc : c ≠ '?') (s : Text) : withPrint (c :: s) = c :: withPrint s :=
  substituted_cons hc _ s

theorem keepsRuns_withPrint : KeepsRuns fun s t => t = withPrint s :=
  keepsRuns_substituted (by decide) (by decide) _

theorem ne_question_of_class (hc : CharClass.ofChar c ≠ .word) : c ≠ '?' := by
  rintro rfl
  exact hc (by decide)

theorem cut_return_withPrint (s : Text) :
    Option.Rel (fun p p' => p.1 = p'.1 ∧ p'.2 = withPrint p.2) (cut ('\r' :: s))
      (cut ('\r' :: withPrint s)) := by
  refine Lexing.cut_return_alike (R := fun s t => t = withPrint s) rfl ?_ fun hno r hr => ?_
  · rintro r rfl
    exact ⟨withPrint r, withPrint_cons (by decide) r, rfl⟩
  · obtain ⟨r', rfl, -⟩ := exists_of_substituted (by decide) hr
    exact hno r' rfl

theorem ofWord?_print : Keyword.ofWord? ['P', 'R', 'I', 'N', 'T'] = some .print :=
  Keyword.ofWord?_eq_some_iff.2 Keyword.print.toUpper_word

theorem cut_print (r : Text) :
    cut ([' ', 'P', 'R', 'I', 'N', 'T', ' '] ++ r) = some (.word ['P', 'R', 'I', 'N', 'T'], ' ' :: r) := by
  have hstop : Stops inWord (' ' :: r) := stops_cons.2 (by decide)
  have hcut := cut_word (w := ['P', 'R', 'I', 'N', 'T']) (by decide) (by decide) (by decide)
    (splitWord_keyword (by rw [ofWord?_print]; rfl)) hstop
  exact (cut_blank (by decide)).trans hcut

/-- The first lexeme of a text without strings is the same, or the alias spelled out. -/
theorem cut_withPrint (s : Text) (hquote : '"' ∉ s) :
    Option.Rel (fun p p' => p.1.SpellsOut p'.1 ∧ SpellsOut p.2 p'.2) (cut s) (cut (withPrint s)) := by
  induction s with
  | nil => exact .none
  | cons c s ih =>
    have hrest : '"' ∉ s := fun hmem => hquote (List.mem_cons_of_mem c hmem)
    cases hclass : CharClass.ofChar c with
    | blank =>
      rw [withPrint_cons (ne_question_of_class (by simp [hclass])), cut_blank hclass, cut_blank hclass]
      exact ih hrest
    | lineEnd =>
      rw [withPrint_cons (ne_question_of_class (by simp [hclass]))]
      rcases ofChar_eq_lineEnd_iff.1 hclass with rfl | rfl
      · rw [cut_lineFeed, cut_lineFeed]
        exact .some ⟨.inl rfl, .inl rfl⟩
      · refine rel_of_imp (cut_return_withPrint s) fun p p' _ hp => ?_
        exact ⟨.inl hp.1, .inl hp.2⟩
    | quote =>
      obtain rfl := eq_quote_of_ofChar hclass
      exact absurd List.mem_cons_self hquote
    | numeric =>
      have hne : c ≠ '?' := ne_question_of_class (by simp [hclass])
      have hcons := withPrint_cons hne s
      obtain ⟨hnumber, hleft⟩ := keepsRuns_withPrint.cutNumber (s := c :: s) rfl
      rw [cut_numeric hclass, hcons, cut_numeric hclass, ← hcons]
      exact .some ⟨.inl hnumber, .inl hleft⟩
    | word =>
      by_cases hc : c = '?'
      · subst hc
        have hword : cut ('?' :: s) = some (.word ['?'], s) := by
          simp only [cut_cons, hclass]
          rfl
        rw [hword, withPrint, substituted_self, cut_print]
        exact .some ⟨.inr ⟨rfl, rfl⟩, .inr rfl⟩
      · obtain ⟨hword, hleft⟩ := keepsRuns_withPrint.cutWord (s := s) rfl c
        rw [withPrint_cons hc]
        simp only [cut_cons, hclass]
        exact .some ⟨.inl hword, .inl hleft⟩
    | punctuation | escape | other =>
      rw [withPrint_cons (ne_question_of_class (by simp [hclass]))]
      simp only [cut_cons, hclass]
      exact .some ⟨.inl rfl, .inl rfl⟩

end WithPrint

namespace Lexing

def Likeness.withPrint : Likeness where
  texts s t := Applesoft.SpellsOut s t ∧ '"' ∉ s ∧ NoRem s
  words w w' := w = w' ∧ Keyword.ofWord? w ≠ some .rem ∨ w = ['?'] ∧ w' = ['P', 'R', 'I', 'N', 'T']
  payloads := (· = ·)
  cut := by
    rintro s t ⟨h, hquote, hrem⟩
    have hcut : Lexeme.cut t = Lexeme.cut (Applesoft.withPrint s) := by
      rcases h with rfl | rfl
      · rfl
      · exact cut_blank (by decide)
    rw [hcut]
    refine rel_of_imp (cut_withPrint s hquote) ?_
    rintro ⟨x, r⟩ ⟨x', r'⟩ hfirst ⟨hx, hrest⟩
    have hsuffix := cut_suffix hfirst
    refine ⟨?_, hrest, fun hmem => hquote (hsuffix.subset hmem), hrem.of_suffix hsuffix⟩
    rcases hx with rfl | ⟨rfl, rfl⟩
    · refine Lexeme.Like.refl (fun w hw => .inl ⟨rfl, ?_⟩) fun _ => rfl
      exact hrem.ofWord?_ne (hfirst.trans (congrArg (fun x => some (x, r)) hw))
    · exact .word (.inr ⟨rfl, rfl⟩)
  wordsAlike := by
    rintro w w' (⟨rfl, hrem⟩ | ⟨rfl, rfl⟩)
    · exact wordsAlike_self hrem
    · have hquestion : Keyword.ofWord? ['?'] = some .question := by decide
      exact .keyword hquestion ofWord?_print (by decide) rfl

end Lexing

/-- Outside strings and comments a question mark is read as the word `PRINT` is: to the same tokens on
the same lines, or to an error of the same kind on the same line. -/
theorem lex_withPrint {s : Text} (hquote : '"' ∉ s) (hrem : NoRem s) :
    (∃ ts, lex s = .ok ts ∧ lex (withPrint s) = .ok ts) ∨
      ∃ e e', lex s = .error e ∧ lex (withPrint s) = .error e' ∧
        e.kind = e'.kind ∧ e.line? = e'.line? := by
  rcases Lexing.Likeness.withPrint.lex_like ⟨.inl rfl, hquote, hrem⟩ with
    ⟨ts, ts', hs, ht, htokens⟩ | ⟨e, e', hs, ht, herror⟩
  · rw [Token.eq_of_forall₂_like htokens] at hs
    exact .inl ⟨ts', hs, ht⟩
  · exact .inr ⟨e, e', hs, ht, herror.kind_eq⟩

/-- Next to a name, a number, a parenthesis and another question mark, over a broken line, and where a
mark should stand. -/
theorem lex_withPrint_missing_mark :
    let s := "10 A?(1)??B2?.5:\\\n?C$?".toList
    let s' := s ++ "\nPR ?".toList
    ('"' ∉ s ∧ NoRem s) ∧ ('"' ∉ s' ∧ NoRem s') ∧
      withPrint s' = "10 A PRINT (1) PRINT  PRINT B2 PRINT .5:\\\n PRINT C$ PRINT \nPR  PRINT ".toList ∧
      (∃ ts, lex s = .ok ts ∧ lex (withPrint s) = .ok ts) ∧
      ∃ e e', lex s' = .error e ∧ lex (withPrint s') = .error e' ∧
        e.kind = e'.kind ∧ e.line? = e'.line? := by
  intro s s'
  have h : '"' ∉ s ∧ NoRem s := by decide
  have h' : '"' ∉ s' ∧ NoRem s' := by decide
  have hlex : (lex s).isOk = true ∧ lex s' = .error (.missingMark 3 .prSlot '#') := by decide +kernel
  refine ⟨h, h', by decide, (lex_withPrint h.1 h.2).resolve_right ?_,
    (lex_withPrint h'.1 h'.2).resolve_left ?_⟩
  · rintro ⟨e, -, hs, -⟩
    have hread := hlex.1
    rw [hs] at hread
    cases hread
  · rintro ⟨ts, hs, -⟩
    rw [hlex.2] at hs
    cases hs

end Applesoft
