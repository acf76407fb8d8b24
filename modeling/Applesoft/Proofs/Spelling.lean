import Mathlib.Data.List.TakeWhile
import Applesoft.Proofs.Scanning

/-!
# The spelling of lexemes and tokens

`Spelling x piece rest` says that the text `piece` spells `x` where the text `rest` follows. What `cut`
and `readToken` take off a text is a gap and then a spelling of what they return, and nothing between
or after.
-/
namespace Applesoft

/-- A character up to the space that ends no line. -/
def IsBlank (c : Char) : Prop := c ≤ ' ' ∧ c ≠ '\n' ∧ c ≠ '\r'

instance (c : Char) : Decidable (IsBlank c) :=
  inferInstanceAs (Decidable (_ ∧ _ ∧ _))

theorem ofChar_eq_blank_iff {c : Char} : CharClass.ofChar c = .blank ↔ IsBlank c := by
  constructor
  · intro h
    simp only [CharClass.ofChar] at h
    repeat' split at h
    all_goals simp_all [IsBlank]
  · rintro ⟨hle, hfeed, hreturn⟩
    simp [CharClass.ofChar, hle, hfeed, hreturn]

theorem ofChar_eq_lineEnd_iff {c : Char} : CharClass.ofChar c = .lineEnd ↔ c = '\n' ∨ c = '\r' := by
  constructor
  · intro h
    simp only [CharClass.ofChar] at h
    repeat' split at h
    all_goals simp_all
  · rintro (rfl | rfl) <;> decide

theorem eq_quote_of_ofChar {c : Char} (h : CharClass.ofChar c = .quote) : c = '"' := by
  simp only [CharClass.ofChar] at h
  repeat' split at h
  all_goals simp_all

/-- Blanks, and line ends that follow a backslash. -/
inductive Gap : Text → Prop
  | nil : Gap []
  | blank {c : Char} {s : Text} : IsBlank c → Gap s → Gap (c :: s)
  | continuation {blanks s : Text} : (∀ c ∈ blanks, IsBlank c) → Gap s →
      Gap ('\\' :: (blanks ++ '\n' :: s))

theorem Gap.append_blanks {blanks s : Text} (hblanks : ∀ c ∈ blanks, IsBlank c) (h : Gap s) :
    Gap (blanks ++ s) := by
  induction blanks with
  | nil => exact h
  | cons c rest ih =>
    rw [List.forall_mem_cons] at hblanks
    exact .blank hblanks.1 (ih hblanks.2)

theorem Gap.of_blanks {blanks : Text} (hblanks : ∀ c ∈ blanks, IsBlank c) : Gap blanks := by
  simpa using Gap.append_blanks hblanks .nil

theorem count_blanks {blanks : Text} (hblanks : ∀ c ∈ blanks, IsBlank c) :
    blanks.count '\n' = 0 :=
  List.count_eq_zero.2 fun hmem => (hblanks _ hmem).2.1 rfl

namespace Lexeme

/-- A run of word characters after which no keyword ends before digits, or the alias. -/
structure IsWord (w : Text) : Prop where
  ne_nil : w ≠ []
  inWord : ∀ c ∈ w, Applesoft.inWord c = true
  head_digit : ∀ c ∈ w.head?, c.isDigit = false
  unsplit : Keyword.ofWord? w = none → Keyword.ofWord? (w.takeWhile (!·.isDigit)) = none

theorem splitWord_isWord {w : Text} (hne : w ≠ []) (hw : ∀ c ∈ w, Applesoft.inWord c = true)
    (hdigit : ∀ c ∈ w.head?, c.isDigit = false) : IsWord (splitWord w).1 := by
  unfold splitWord
  dsimp only
  split
  · next hsplit =>
    simp only [Bool.and_eq_true, Option.isSome_iff_ne_none] at hsplit
    have hhead : w.takeWhile (!·.isDigit) ≠ [] := by
      cases w with
      | nil => exact absurd rfl hne
      | cons c rest => rw [List.takeWhile_cons_of_pos (by simp [hdigit c rfl])]; simp
    refine ⟨hhead, fun c hc => hw c (List.takeWhile_subset _ hc), fun c hc => ?_, fun h =>
      absurd h hsplit.2⟩
    simpa using List.mem_takeWhile_imp (List.mem_of_mem_head? hc)
  · next hsplit =>
    refine ⟨hne, hw, hdigit, fun hnone => ?_⟩
    by_cases hdigits : w.dropWhile (!·.isDigit) = []
    · have happ := List.takeWhile_append_dropWhile (p := (!·.isDigit)) (l := w)
      rw [hdigits, List.append_nil] at happ
      rw [happ, hnone]
    · simpa [hnone, hdigits] using hsplit

inductive Spelling : Lexeme → Text → Text → Prop
  | lineFeed {r : Text} : Spelling .lineEnd ['\n'] r
  | carriageReturn {r : Text} : Spelling .lineEnd ['\r'] r
  | returnLineFeed {r : Text} : Spelling .lineEnd ['\r', '\n'] r
  | whole {w r : Text} : w ≠ [] → (∀ c ∈ w, c.isDigit = true) →
      Spelling (.number (.ofDecimal w [])) w r
  | point {w fraction r : Text} : (∀ c ∈ w, c.isDigit = true) →
      (∀ c ∈ fraction, c.isDigit = true) →
      Spelling (.number (.ofDecimal w fraction)) (w ++ '.' :: fraction) r
  | question {r : Text} : Spelling (.word ['?']) ['?'] r
  | word {w r : Text} : IsWord w → Spelling (.word w) w r
  | quoted {text r : Text} : (∀ c ∈ text, inQuotes c = true) →
      Spelling (.quoted text) ('"' :: (text ++ ['"'])) r
  /-- A string without a closing quote ends with its line. -/
  | unclosed {text r : Text} : (∀ c ∈ text, inQuotes c = true) →
      (∀ c ∈ r.head?, c = '\n' ∨ c = '\r') → Spelling (.quoted text) ('"' :: text) r
  | mark {c : Char} {r : Text} : Spelling (.mark c) [c] r

theorem cutNumber_spelling {c : Char} {s : Text} (hc : c.isDigit = true ∨ c = '.') :
    ∃ piece, c :: s = piece ++ (cutNumber (c :: s)).2 ∧
      (cutNumber (c :: s)).1.Spelling piece (cutNumber (c :: s)).2 := by
  have hdigits (t : Text) : ∀ d ∈ t.takeWhile Char.isDigit, d.isDigit = true := fun d hd =>
    List.mem_takeWhile_imp hd
  have happ := List.takeWhile_append_dropWhile (p := Char.isDigit) (l := c :: s)
  unfold cutNumber
  split
  · next r hr =>
    refine ⟨(c :: s).takeWhile Char.isDigit ++ '.' :: r.takeWhile Char.isDigit, ?_,
      .point (hdigits _) (hdigits _)⟩
    rw [List.append_assoc, List.cons_append, List.takeWhile_append_dropWhile, ← hr, happ]
  · next hno =>
    refine ⟨(c :: s).takeWhile Char.isDigit, happ.symm, .whole ?_ (hdigits _)⟩
    rcases hc with hc | rfl
    · rw [List.takeWhile_cons_of_pos hc]
      exact List.cons_ne_nil _ _
    · exact absurd (List.dropWhile_cons_of_neg (by decide)) (hno s)

theorem cutWord_spelling {c : Char} {s : Text} (hc : CharClass.ofChar c = .word) :
    ∃ piece, c :: s = piece ++ (cutWord c s).2 ∧ (cutWord c s).1.Spelling piece (cutWord c s).2 := by
  unfold cutWord
  split
  · next hquestion => exact ⟨['?'], by simp [hquestion], .question⟩
  · next hne =>
    obtain ⟨hword, hdigit⟩ := inWord_of_ofChar hc hne
    have hisWord : IsWord (splitWord (c :: s.takeWhile inWord)).1 := by
      apply splitWord_isWord (List.cons_ne_nil _ _)
      · exact List.forall_mem_cons.2 ⟨hword, fun d hd => List.mem_takeWhile_imp hd⟩
      · rintro d ⟨⟩
        exact hdigit
    refine ⟨_, ?_, .word hisWord⟩
    rw [← List.append_assoc, splitWord_append, List.cons_append, List.takeWhile_append_dropWhile]

theorem cutQuoted_spelling (s : Text) :
    ∃ piece, '"' :: s = piece ++ (cutQuoted s).2 ∧ (cutQuoted s).1.Spelling piece (cutQuoted s).2 := by
  have hquotes : ∀ c ∈ s.takeWhile inQuotes, inQuotes c = true := fun c hc =>
    List.mem_takeWhile_imp hc
  have happ := List.takeWhile_append_dropWhile (p := inQuotes) (l := s)
  have hstop := stops_dropWhile inQuotes s
  unfold cutQuoted
  split
  · next r hr =>
    refine ⟨'"' :: (s.takeWhile inQuotes ++ ['"']), ?_, .quoted hquotes⟩
    rw [List.cons_append, List.append_assoc, List.singleton_append, ← hr, happ]
  · next hno =>
    refine ⟨'"' :: s.takeWhile inQuotes, by rw [List.cons_append, happ], .unclosed hquotes ?_⟩
    intro c hc
    obtain ⟨r, hr⟩ := List.head?_eq_some_iff.1 hc
    have hquote : c ≠ '"' := by
      rintro rfl
      exact hno r hr
    have hend := hstop c hc
    simp only [inQuotes, Bool.and_eq_false_iff, bne_eq_false_iff_eq] at hend
    tauto

theorem cut_spelling {s r : Text} {x : Lexeme} (h : cut s = some (x, r)) :
    ∃ blanks piece, s = blanks ++ (piece ++ r) ∧ (∀ c ∈ blanks, IsBlank c) ∧ x.Spelling piece r := by
  fun_induction cut s with
  | case1 => cases h
  | case2 c rest hc ih =>
    obtain ⟨blanks, piece, rfl, hblanks, hspelling⟩ := ih h
    exact ⟨c :: blanks, piece, rfl, List.forall_mem_cons.2 ⟨ofChar_eq_blank_iff.1 hc, hblanks⟩,
      hspelling⟩
  | case3 r' hc =>
    obtain ⟨rfl, rfl⟩ := Prod.mk.inj (Option.some.inj h)
    exact ⟨[], _, rfl, by simp, .returnLineFeed⟩
  | case4 c hc rest hno =>
    obtain ⟨rfl, rfl⟩ := Prod.mk.inj (Option.some.inj h)
    rcases ofChar_eq_lineEnd_iff.1 hc with rfl | rfl
    · exact ⟨[], _, rfl, by simp, .lineFeed⟩
    · exact ⟨[], _, rfl, by simp, .carriageReturn⟩
  | case5 c rest hc =>
    obtain rfl := eq_quote_of_ofChar hc
    obtain ⟨piece, happ, hspelling⟩ := cutQuoted_spelling rest
    rw [Option.some.inj h] at happ hspelling
    exact ⟨[], piece, happ, by simp, hspelling⟩
  | case6 c rest hc =>
    obtain ⟨piece, happ, hspelling⟩ :=
      cutNumber_spelling (s := rest) (CharClass.of_ofChar_numeric hc)
    rw [Option.some.inj h] at happ hspelling
    exact ⟨[], piece, happ, by simp, hspelling⟩
  | case7 c rest hc =>
    obtain ⟨piece, happ, hspelling⟩ := cutWord_spelling (s := rest) hc
    rw [Option.some.inj h] at happ hspelling
    exact ⟨[], piece, happ, by simp, hspelling⟩
  | case8 | case9 | case10 =>
    obtain ⟨rfl, rfl⟩ := Prod.mk.inj (Option.some.inj h)
    exact ⟨[], _, rfl, by simp, .mark⟩

theorem cut_eq_none_iff {s : Text} : cut s = none ↔ ∀ c ∈ s, IsBlank c := by
  fun_induction cut s with
  | case1 => simp
  | case2 c rest hc ih => simp [ih, ofChar_eq_blank_iff.1 hc]
  | _ => simp_all [← ofChar_eq_blank_iff]

end Lexeme

end Applesoft
