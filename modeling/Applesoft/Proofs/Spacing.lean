import Applesoft.Proofs.FollowingText
import Applesoft.Proofs.KeptRuns
import Applesoft.Proofs.LikeTexts
import Applesoft.Proofs.PairedLineEnds

/-!
# Blanks between tokens

Outside strings and comments a run of blanks counts as one blank, wherever it stands: between the parts
of a keyword, before the parenthesis of an array, after a backslash or at the end of a line.
-/
namespace Applesoft

open Lexeme

/-- The second text has non-empty runs of blanks where the first one has. -/
inductive Respaced : Text → Text → Prop
  | nil : Respaced [] []
  | char {c : Char} {s t : Text} : ¬ IsBlank c → Respaced s t → Respaced (c :: s) (c :: t)
  | blanks {b b' s t : Text} : b ≠ [] → b' ≠ [] → (∀ c ∈ b, IsBlank c) → (∀ c ∈ b', IsBlank c) →
      Respaced s t → Respaced (b ++ s) (b' ++ t)

namespace Respaced

variable {s t u : Text} {c : Char}

theorem symm (h : Respaced s t) : Respaced t s := by
  induction h with
  | nil => exact .nil
  | char hc _ ih => exact .char hc ih
  | blanks hne hne' hb hb' _ ih => exact .blanks hne' hne hb' hb ih

theorem append_left (h : Respaced s t) (u : Text) : Respaced (u ++ s) (u ++ t) := by
  induction u with
  | nil => exact h
  | cons c u ih =>
    by_cases hc : IsBlank c
    · have hblank : ∀ d ∈ [c], IsBlank d := List.forall_mem_singleton.2 hc
      have hne : [c] ≠ [] := List.cons_ne_nil c []
      have hrun : Respaced ([c] ++ (u ++ s)) ([c] ++ (u ++ t)) := .blanks hne hne hblank hblank ih
      exact hrun
    · exact .char hc ih

/-- A character that is no blank stays where it is. -/
theorem exists_of_cons (h : Respaced (c :: s) t) (hc : ¬ IsBlank c) :
    ∃ t', t = c :: t' ∧ Respaced s t' := by
  generalize hs : c :: s = s' at h
  cases h with
  | nil => cases hs
  | char _ hrest =>
    obtain ⟨rfl, rfl⟩ := List.cons.inj hs
    exact ⟨_, rfl, hrest⟩
  | @blanks b _ _ _ hne _ hb =>
    obtain ⟨d, b, rfl⟩ := List.exists_cons_of_ne_nil hne
    obtain ⟨rfl, -⟩ := List.cons.inj hs
    exact absurd (hb c List.mem_cons_self) hc

theorem head_ne (h : Respaced s t) (hc : ¬ IsBlank c) (hs : ∀ s', s ≠ c :: s') :
    ∀ t', t ≠ c :: t' := by
  rintro t' rfl
  obtain ⟨s', rfl, -⟩ := h.symm.exists_of_cons hc
  exact hs s' rfl

section Runs

variable {p : Char → Bool}

/-- A run of blanks stops every run of characters without blanks. -/
theorem stops_blanks {b : Text} (hp : ∀ c, IsBlank c → p c = false) (hne : b ≠ [])
    (hb : ∀ c ∈ b, IsBlank c) (r : Text) : Stops p (b ++ r) := by
  obtain ⟨c, b, rfl⟩ := List.exists_cons_of_ne_nil hne
  exact stops_cons.2 (hp c (hb c List.mem_cons_self))

theorem takeWhile_eq (h : Respaced s t) (hp : ∀ c, IsBlank c → p c = false) :
    s.takeWhile p = t.takeWhile p := by
  induction h with
  | nil => rfl
  | @char c _ _ _ _ ih => rw [List.takeWhile_cons, List.takeWhile_cons, ih]
  | blanks hne hne' hb hb' =>
    rw [takeWhile_of_stops (stops_blanks hp hne hb _), takeWhile_of_stops (stops_blanks hp hne' hb' _)]

theorem dropWhile (h : Respaced s t) (hp : ∀ c, IsBlank c → p c = false) :
    Respaced (s.dropWhile p) (t.dropWhile p) := by
  induction h with
  | nil => exact .nil
  | @char c _ _ hc hrest ih =>
    rw [List.dropWhile_cons, List.dropWhile_cons]
    split
    · exact ih
    · exact .char hc hrest
  | blanks hne hne' hb hb' hrest =>
    rw [dropWhile_of_stops (stops_blanks hp hne hb _), dropWhile_of_stops (stops_blanks hp hne' hb' _)]
    exact .blanks hne hne' hb hb' hrest

end Runs

end Respaced

theorem IsBlank.inWord {c : Char} (h : IsBlank c) : inWord c = false := by
  rw [Applesoft.inWord, ofChar_eq_blank_iff.2 h]

theorem keepsRuns_respaced : KeepsRuns Respaced where
  run hp h := by
    have hblank : ∀ c, IsBlank c → _ := fun c hc => hp c hc.inWord
    exact ⟨h.takeWhile_eq hblank, h.dropWhile hblank⟩
  point h := h.exists_of_cons (by decide)
  of_point h := by
    obtain ⟨s', rfl, -⟩ := h.symm.exists_of_cons (by decide)
    exact ⟨s', rfl⟩
  append _ h := h.append_left _

namespace Lexeme

variable {s t : Text}

theorem cut_return_respaced (h : Respaced s t) :
    Option.Rel (fun p p' => p.1 = p'.1 ∧ Respaced p.2 p'.2) (cut ('\r' :: s)) (cut ('\r' :: t)) := by
  have hfeed : ¬ IsBlank '\n' := by decide
  refine Lexing.cut_return_alike h ?_ (h.head_ne hfeed)
  rintro r rfl
  exact h.exists_of_cons hfeed

/-- The first lexeme of a text without strings does not depend on the blanks. -/
theorem cut_respaced (h : Respaced s t) (hquote : '"' ∉ s) :
    Option.Rel (fun p p' => p.1 = p'.1 ∧ Respaced p.2 p'.2) (cut s) (cut t) := by
  induction h with
  | nil => exact .none
  | @blanks b b' s t _ _ hb hb' _ ih =>
    rw [cut_append_none (cut_eq_none_iff.2 hb), cut_append_none (cut_eq_none_iff.2 hb')]
    exact ih fun hmem => hquote (List.mem_append_right b hmem)
  | @char c s t hc hrest =>
    cases hclass : CharClass.ofChar c with
    | blank => exact absurd (ofChar_eq_blank_iff.1 hclass) hc
    | lineEnd =>
      rcases ofChar_eq_lineEnd_iff.1 hclass with rfl | rfl
      · rw [cut_lineFeed, cut_lineFeed]
        exact .some ⟨rfl, hrest⟩
      · exact cut_return_respaced hrest
    | quote =>
      obtain rfl := eq_quote_of_ofChar hclass
      exact absurd List.mem_cons_self hquote
    | numeric =>
      rw [cut_numeric hclass, cut_numeric hclass]
      exact .some (keepsRuns_respaced.cutNumber (.char hc hrest))
    | word =>
      simp only [cut_cons, hclass]
      exact .some (keepsRuns_respaced.cutWord hrest c)
    | punctuation | escape | other =>
      simp only [cut_cons, hclass]
      exact .some ⟨rfl, hrest⟩

end Lexeme

namespace Lexing

def Likeness.respaced : Likeness where
  texts s t := Respaced s t ∧ '"' ∉ s ∧ NoRem s
  words w w' := w = w' ∧ Keyword.ofWord? w ≠ some .rem
  payloads := (· = ·)
  cut := by
    rintro s t ⟨h, hquote, hrem⟩
    refine rel_of_imp (Lexeme.cut_respaced h hquote) ?_
    rintro ⟨x, r⟩ ⟨_, r'⟩ hcut ⟨rfl, hrest⟩
    have hsuffix := cut_suffix hcut
    refine ⟨Lexeme.Like.refl (fun w hw => ⟨rfl, ?_⟩) fun _ => rfl, hrest,
      fun hmem => hquote (hsuffix.subset hmem), hrem.of_suffix hsuffix⟩
    exact hrem.ofWord?_ne (hcut.trans (congrArg (fun x => some (x, r)) hw))
  wordsAlike := by
    rintro w _ ⟨rfl, hrem⟩
    exact wordsAlike_self hrem

end Lexing

/-- How many blanks stand together, and which, does not matter outside strings and comments. -/
theorem lex_respaced {s t : Text} (hquote : '"' ∉ s) (hrem : NoRem s) (h : Respaced s t) :
    lex t = lex s :=
  Lexing.Likeness.respaced.lex_eq rfl (fun _ _ hw => hw.1) ⟨h, hquote, hrem⟩

/-- Blanks between the parts of a keyword, before a parenthesis and after a backslash. -/
theorem lex_respaced_broken_line :
    '"' ∉ "PR #A (1)\\ \nEND".toList ∧ NoRem "PR #A (1)\\ \nEND".toList ∧
      Respaced "PR #A (1)\\ \nEND".toList "PR \t\x01#A  (1)\\\t\nEND".toList ∧
      lex "PR \t\x01#A  (1)\\\t\nEND".toList = lex "PR #A (1)\\ \nEND".toList := by
  have hquote : '"' ∉ "PR #A (1)\\ \nEND".toList := by decide
  have hrem : NoRem "PR #A (1)\\ \nEND".toList := by decide
  have hend : Respaced "\nEND".toList "\nEND".toList := Respaced.nil.append_left "\nEND".toList
  have hbreak : Respaced ([' '] ++ "\nEND".toList) (['\t'] ++ "\nEND".toList) :=
    .blanks (by decide) (by decide) (by decide) (by decide) hend
  have hparen : Respaced ([' '] ++ "(1)\\ \nEND".toList) ([' ', ' '] ++ "(1)\\\t\nEND".toList) :=
    .blanks (by decide) (by decide) (by decide) (by decide) (hbreak.append_left "(1)\\".toList)
  have hmark : Respaced ([' '] ++ "#A (1)\\ \nEND".toList)
      ([' ', '\t', '\x01'] ++ "#A  (1)\\\t\nEND".toList) :=
    .blanks (by decide) (by decide) (by decide) (by decide) (hparen.append_left "#A".toList)
  have h : Respaced "PR #A (1)\\ \nEND".toList "PR \t\x01#A  (1)\\\t\nEND".toList :=
    hmark.append_left "PR".toList
  exact ⟨hquote, hrem, h, lex_respaced hquote hrem h⟩

/-- Without the blank the text is another one. -/
example : lex "A B".toList ≠ lex "AB".toList := by decide +kernel

end Applesoft
