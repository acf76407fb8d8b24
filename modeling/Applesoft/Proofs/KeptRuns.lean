import Mathlib.Data.List.TakeWhile
import Applesoft.Proofs.Scanning

/-!
# Runs that are kept

Texts may differ outside their runs of word characters. If they do so in corresponding places, and have
their points in the same places, numbers and words are cut off both alike.
-/
namespace Applesoft

open Lexeme

def IsBreak (c : Char) : Prop := inWord c = false ∧ c ≠ '.'

instance (c : Char) : Decidable (IsBreak c) :=
  inferInstanceAs (Decidable (_ ∧ _))

/-- A correspondence of texts with the same runs of word characters and the same points. -/
structure KeepsRuns (R : Text → Text → Prop) : Prop where
  run {p : Char → Bool} {s t : Text} : (∀ c, inWord c = false → p c = false) → R s t →
    s.takeWhile p = t.takeWhile p ∧ R (s.dropWhile p) (t.dropWhile p)
  point {s t : Text} : R ('.' :: s) t → ∃ t', t = '.' :: t' ∧ R s t'
  of_point {s t : Text} : R s ('.' :: t) → ∃ s', s = '.' :: s'
  append {w s t : Text} : (∀ c ∈ w, inWord c = true) → R s t → R (w ++ s) (w ++ t)

namespace KeepsRuns

variable {R : Text → Text → Prop} {s t : Text}

theorem cutNumber (h : KeepsRuns R) (hst : R s t) :
    (cutNumber s).1 = (cutNumber t).1 ∧ R (cutNumber s).2 (cutNumber t).2 := by
  have hdigit : ∀ c, inWord c = false → c.isDigit = false := fun _ => isDigit_of_not_inWord
  obtain ⟨hwhole, hrest⟩ := h.run hdigit hst
  by_cases hpoint : ∃ q, s.dropWhile Char.isDigit = '.' :: q
  · obtain ⟨q, hq⟩ := hpoint
    rw [hq] at hrest
    obtain ⟨q', hq', hfraction⟩ := h.point hrest
    obtain ⟨hdigits, hend⟩ := h.run hdigit hfraction
    rw [cutNumber_of_point hq, cutNumber_of_point hq', hwhole, hdigits]
    exact ⟨rfl, hend⟩
  · have hno : ∀ q, s.dropWhile Char.isDigit ≠ '.' :: q := not_exists.1 hpoint
    have hno' : ∀ q, t.dropWhile Char.isDigit ≠ '.' :: q := by
      intro q hq
      rw [hq] at hrest
      exact hpoint (h.of_point hrest)
    rw [cutNumber_of_ne hno, cutNumber_of_ne hno', hwhole]
    exact ⟨rfl, hrest⟩

/-- What a keyword leaves of its word begins with a digit. -/
theorem inWord_of_mem_splitWord {c d : Char} {w : Text} (hw : ∀ c ∈ w, inWord c = true)
    (hd : d ∈ (splitWord (c :: w)).2) : inWord d = true := by
  simp only [splitWord] at hd
  split at hd
  · have hdigits : d ∈ (c :: w).dropWhile (!·.isDigit) := hd
    by_cases hc : c.isDigit = true
    · rcases List.mem_cons.1 ((List.dropWhile_sublist _).subset hdigits) with rfl | hmem
      · exact inWord_of_isDigit hc
      · exact hw d hmem
    · rw [List.dropWhile_cons_of_pos (by simp [hc])] at hdigits
      exact hw d ((List.dropWhile_sublist _).subset hdigits)
  · cases hd

theorem cutWord (h : KeepsRuns R) (hst : R s t) (c : Char) :
    (cutWord c s).1 = (cutWord c t).1 ∧ R (cutWord c s).2 (cutWord c t).2 := by
  obtain ⟨hword, hrest⟩ := h.run (fun _ hc => hc) hst
  unfold Lexeme.cutWord
  rw [← hword]
  split
  · exact ⟨rfl, hst⟩
  · refine ⟨rfl, h.append (fun d hd => ?_) hrest⟩
    exact inWord_of_mem_splitWord (fun c hc => List.mem_takeWhile_imp hc) hd

end KeepsRuns

def substituted (d : Char) (e s : Text) : Text :=
  s.flatMap fun c => if c = d then e else [c]

section Substituted

variable {c d h : Char} {e s : Text}

theorem substituted_self (d : Char) (e s : Text) :
    substituted d e (d :: s) = e ++ substituted d e s := by
  rw [substituted, List.flatMap_cons, if_pos rfl]
  rfl

theorem substituted_cons (hc : c ≠ d) (e s : Text) :
    substituted d e (c :: s) = c :: substituted d e s := by
  rw [substituted, List.flatMap_cons, if_neg hc]
  rfl

theorem substituted_append_of_not_mem {w : Text} (hw : d ∉ w) (e s : Text) :
    substituted d e (w ++ s) = w ++ substituted d e s := by
  induction w with
  | nil => rfl
  | cons c w ih =>
    rw [List.mem_cons, not_or] at hw
    rw [List.cons_append, substituted_cons (Ne.symm hw.1), ih hw.2, List.cons_append]

/-- A character is there before if it is not what the substitute begins with. -/
theorem exists_of_substituted {t : Text} (hc : c ≠ h)
    (hs : substituted d (h :: e) s = c :: t) : ∃ s', s = c :: s' ∧ t = substituted d (h :: e) s' := by
  cases s with
  | nil => cases hs
  | cons b s =>
    by_cases hb : b = d
    · subst hb
      rw [substituted_self] at hs
      exact absurd (List.cons.inj hs).1.symm hc
    · rw [substituted_cons hb] at hs
      obtain ⟨rfl, rfl⟩ := List.cons.inj hs
      exact ⟨s, rfl, rfl⟩

section Runs

variable {p : Char → Bool}

theorem takeWhile_substituted (hd : p d = false) (hh : p h = false) (e s : Text) :
    (substituted d (h :: e) s).takeWhile p = s.takeWhile p := by
  induction s with
  | nil => rfl
  | cons c s ih =>
    by_cases hc : c = d
    · subst hc
      rw [substituted_self]
      exact (takeWhile_of_stops (stops_cons.2 hh)).trans (takeWhile_of_stops (stops_cons.2 hd)).symm
    · rw [substituted_cons hc, List.takeWhile_cons, List.takeWhile_cons, ih]

theorem dropWhile_substituted (hd : p d = false) (hh : p h = false) (e s : Text) :
    (substituted d (h :: e) s).dropWhile p = substituted d (h :: e) (s.dropWhile p) := by
  induction s with
  | nil => rfl
  | cons c s ih =>
    by_cases hc : c = d
    · subst hc
      rw [dropWhile_of_stops (stops_cons.2 hd), substituted_self]
      exact dropWhile_of_stops (stops_cons.2 hh)
    · rw [substituted_cons hc, List.dropWhile_cons, List.dropWhile_cons, ih]
      split
      · rfl
      · rw [substituted_cons hc]

end Runs

/-- Substituting what begins with a break for a break keeps all runs. -/
theorem keepsRuns_substituted (hd : IsBreak d) (hh : IsBreak h) (e : Text) :
    KeepsRuns fun s t => t = substituted d (h :: e) s where
  run := by
    rintro p s _ hp rfl
    exact ⟨(takeWhile_substituted (hp d hd.1) (hp h hh.1) e s).symm,
      dropWhile_substituted (hp d hd.1) (hp h hh.1) e s⟩
  point := by
    rintro s _ rfl
    exact ⟨_, substituted_cons hd.2.symm _ s, rfl⟩
  of_point := by
    intro s t hs
    obtain ⟨s', rfl, -⟩ := exists_of_substituted hh.2.symm hs.symm
    exact ⟨s', rfl⟩
  append := by
    rintro w s _ hw rfl
    have hnot : d ∉ w := by
      intro hmem
      have hin := hw d hmem
      rw [hd.1] at hin
      cases hin
    exact (substituted_append_of_not_mem hnot _ s).symm

end Substituted

end Applesoft
