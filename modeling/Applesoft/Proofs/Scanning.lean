import Mathlib.Data.List.Basic
import Applesoft.Lexing

/-!
# Cutting known text

What `cut` takes off a text whose start is known: a run of word characters, digits, a quotation or a
mark, each followed by text that does not carry it on.
-/
namespace Applesoft

-- What holds of all characters of a text is decided by going over the text, not over all characters.
instance (priority := 2000) Text.decidableForallMem (p : Char → Prop) [DecidablePred p] (t : Text) :
    Decidable (∀ c ∈ t, p c) :=
  List.decidableBAll p t

instance (priority := 2000) Text.decidableForallMem? (p : Char → Prop) [DecidablePred p]
    (c : Option Char) : Decidable (∀ d ∈ c, p d) :=
  Option.decidableForallMem c

/-- The text does not go on with a character of the class. -/
def Stops (p : Char → Bool) (r : Text) : Prop := ∀ c ∈ r.head?, p c = false

theorem stops_nil (p : Char → Bool) : Stops p [] := by simp [Stops]

theorem stops_cons {p : Char → Bool} {c : Char} {r : Text} : Stops p (c :: r) ↔ p c = false := by
  simp [Stops]

section Runs

variable {p : Char → Bool} {w r : Text}

theorem takeWhile_append_of_stops (hw : ∀ c ∈ w, p c = true) (hr : Stops p r) :
    (w ++ r).takeWhile p = w := by
  rw [List.takeWhile_append_of_pos hw]
  cases r with
  | nil => simp
  | cons c r => rw [List.takeWhile_cons_of_neg (by simp [stops_cons.1 hr]), List.append_nil]

theorem dropWhile_append_of_stops (hw : ∀ c ∈ w, p c = true) (hr : Stops p r) :
    (w ++ r).dropWhile p = r := by
  rw [List.dropWhile_append_of_pos hw]
  cases r with
  | nil => rfl
  | cons c r => rw [List.dropWhile_cons_of_neg (by simp [stops_cons.1 hr])]

theorem takeWhile_of_stops (hr : Stops p r) : r.takeWhile p = [] := by
  simpa using takeWhile_append_of_stops (List.forall_mem_nil _) hr

theorem dropWhile_of_stops (hr : Stops p r) : r.dropWhile p = r := by
  simpa using dropWhile_append_of_stops (List.forall_mem_nil _) hr

theorem stops_dropWhile (p : Char → Bool) (r : Text) : Stops p (r.dropWhile p) := by
  intro c hc
  have := List.head?_dropWhile_not p r
  rw [Option.mem_def] at hc
  rw [hc] at this
  simpa using this

end Runs

section Ascii

variable {c : Char}

theorem isUpper_iff_toNat : c.isUpper = true ↔ 65 ≤ c.toNat ∧ c.toNat ≤ 90 := by
  change decide (_ ∧ _) = true ↔ _
  rw [decide_eq_true_iff]
  exact Iff.rfl

theorem isLower_iff_toNat : c.isLower = true ↔ 97 ≤ c.toNat ∧ c.toNat ≤ 122 := by
  change (decide _ && decide _) = true ↔ _
  rw [Bool.and_eq_true, decide_eq_true_iff, decide_eq_true_iff]
  exact Iff.rfl

theorem isAlpha_iff_toNat : c.isAlpha = true ↔
    (65 ≤ c.toNat ∧ c.toNat ≤ 90) ∨ (97 ≤ c.toNat ∧ c.toNat ≤ 122) := by
  change (c.isUpper || c.isLower) = true ↔ _
  rw [Bool.or_eq_true, isUpper_iff_toNat, isLower_iff_toNat]

theorem isDigit_iff_toNat : c.isDigit = true ↔ 48 ≤ c.toNat ∧ c.toNat ≤ 57 :=
  Char.isDigit_iff_toNat

theorem not_isDigit_of_isAlpha (h : c.isAlpha = true) : c.isDigit = false := by
  rw [Bool.eq_false_iff, Ne, isDigit_iff_toNat]
  rw [isAlpha_iff_toNat] at h
  omega

theorem toUpper_of_not_isLower (h : c.isLower = false) : c.toUpper = c := by
  apply dif_neg
  intro hlower
  have : c.isLower = true := isLower_iff_toNat.2 hlower
  rw [h] at this
  cases this

theorem toLower_of_isDigit (h : c.isDigit = true) : c.toLower = c := by
  have hrange := isDigit_iff_toNat.1 h
  have hupper : ¬ (65 ≤ c.toNat ∧ c.toNat ≤ 90) := by omega
  exact dif_neg hupper

end Ascii

def CharClass.punctuationMarks : List Char :=
  ['(', ')', ',', ':', '#', ';', '&', '=', '<', '>', '*', '+', '-', '/', '^']

theorem CharClass.mem_of_ofChar_punctuation {c : Char} (h : ofChar c = .punctuation) :
    c ∈ punctuationMarks := by
  simp only [ofChar] at h
  repeat' split at h
  all_goals first
    | exact List.contains_iff_mem.1 ‹isPunctuation c = true›
    | cases h

theorem ofChar_of_isAlphanum {c : Char} (h : c.isAlphanum = true) :
    CharClass.ofChar c = if c.isDigit then .numeric else .word := by
  have hne : c ∉ ['\n', '\r', '"', '.', '$', '%', '?', '\\'] := by
    have hall : ∀ c ∈ ['\n', '\r', '"', '.', '$', '%', '?', '\\'], c.isAlphanum = false := by
      decide
    intro hc
    rw [hall c hc] at h
    cases h
  have hmark : CharClass.isPunctuation c = false := by
    have hall : ∀ c ∈ CharClass.punctuationMarks, c.isAlphanum = false := by decide
    by_contra hc
    have hmem : c ∈ CharClass.punctuationMarks :=
      List.contains_iff_mem.1 ((Bool.not_eq_false _).mp hc)
    rw [hall c hmem] at h
    cases h
  have hrange : 48 ≤ c.toNat ∧ c.toNat < 128 := by
    rw [Char.isAlphanum, Bool.or_eq_true, isAlpha_iff_toNat, isDigit_iff_toNat] at h
    omega
  have hlow : ¬ c ≤ ' ' := by
    intro hle
    have : c.toNat ≤ 32 := hle
    omega
  simp only [List.mem_cons, List.not_mem_nil, not_or] at hne
  by_cases hdigit : c.isDigit = true
  · simp [CharClass.ofChar, hdigit, hlow, hne]
  · have halpha : c.isAlpha = true := by simpa [Char.isAlphanum, hdigit] using h
    simp [CharClass.ofChar, hdigit, hlow, hne, hmark, Unicode.isAlphabetic, hrange.2, halpha]

theorem ofChar_of_isDigit {c : Char} (h : c.isDigit = true) : CharClass.ofChar c = .numeric := by
  rw [ofChar_of_isAlphanum (by rw [Char.isAlphanum, h, Bool.or_true]), if_pos h]

theorem inWord_of_isDigit {c : Char} (h : c.isDigit = true) : inWord c = true := by
  have hne : c ≠ '.' := by rintro rfl; cases h
  simp [inWord, ofChar_of_isDigit h, hne]

theorem isDigit_of_not_inWord {c : Char} (h : inWord c = false) : c.isDigit = false := by
  by_contra hdigit
  rw [inWord_of_isDigit ((Bool.not_eq_false _).mp hdigit)] at h
  cases h

/-- A character at which a word can start, other than the alias `?`. -/
theorem ofChar_of_inWord {c : Char} (h : inWord c = true) (hdigit : c.isDigit = false) :
    CharClass.ofChar c = .word ∧ c ≠ '?' := by
  unfold inWord at h
  split at h
  · next hclass => exact ⟨hclass, by simpa using h⟩
  · next hclass =>
    rcases CharClass.of_ofChar_numeric hclass with hc | rfl
    · rw [hc] at hdigit; cases hdigit
    · cases h
  · cases h

theorem inWord_of_ofChar {c : Char} (hc : CharClass.ofChar c = .word) (hne : c ≠ '?') :
    inWord c = true ∧ c.isDigit = false := by
  refine ⟨by simp [inWord, hc, hne], ?_⟩
  by_contra hdigit
  rw [ofChar_of_isDigit (by simpa using hdigit)] at hc
  cases hc

namespace Lexeme

variable {w r : Text}

theorem cutNumber_of_point {s q : Text} (h : s.dropWhile Char.isDigit = '.' :: q) :
    cutNumber s =
      (.number (.ofDecimal (s.takeWhile Char.isDigit) (q.takeWhile Char.isDigit)),
        q.dropWhile Char.isDigit) := by
  simp only [cutNumber, h]

theorem cutNumber_of_ne {s : Text} (h : ∀ q, s.dropWhile Char.isDigit ≠ '.' :: q) :
    cutNumber s =
      (.number (.ofDecimal (s.takeWhile Char.isDigit) []), s.dropWhile Char.isDigit) := by
  unfold cutNumber
  split
  · next q hq => exact absurd hq (h q)
  · rfl

theorem cutNumber_whole (hw : ∀ c ∈ w, c.isDigit = true) (hr : Stops Char.isDigit r)
    (hpoint : r.head? ≠ some '.') : cutNumber (w ++ r) = (.number (.ofDecimal w []), r) := by
  unfold cutNumber
  rw [takeWhile_append_of_stops hw hr, dropWhile_append_of_stops hw hr]
  split
  · next heq => simp at hpoint
  · rfl

theorem cutNumber_point {fraction : Text} (hw : ∀ c ∈ w, c.isDigit = true)
    (hfraction : ∀ c ∈ fraction, c.isDigit = true) (hr : Stops Char.isDigit r) :
    cutNumber (w ++ '.' :: (fraction ++ r)) = (.number (.ofDecimal w fraction), r) := by
  have hstop : Stops Char.isDigit ('.' :: (fraction ++ r)) := stops_cons.2 (by decide)
  unfold cutNumber
  rw [takeWhile_append_of_stops hw hstop, dropWhile_append_of_stops hw hstop]
  simp only [takeWhile_append_of_stops hfraction hr, dropWhile_append_of_stops hfraction hr]

/-- The class of the first character decides how a lexeme is cut off. -/
theorem cut_cons (c : Char) (r : Text) : cut (c :: r) =
    match CharClass.ofChar c with
    | .blank => cut r
    | .lineEnd =>
      match c, r with
      | '\r', '\n' :: r' => some (.lineEnd, r')
      | _, r' => some (.lineEnd, r')
    | .quote => some (cutQuoted r)
    | .numeric => some (cutNumber (c :: r))
    | .word => some (cutWord c r)
    | .punctuation | .escape | .other => some (.mark c, r) := rfl

theorem cut_blank {c : Char} (hc : CharClass.ofChar c = .blank) : cut (c :: r) = cut r := by
  simp only [cut_cons, hc]

theorem cut_lineFeed : cut ('\n' :: r) = some (.lineEnd, r) := by
  have hclass : CharClass.ofChar '\n' = .lineEnd := by decide
  rw [cut_cons, hclass]
  rfl

theorem cut_mark {c : Char} (hc : CharClass.ofChar c = .punctuation) :
    cut (c :: r) = some (.mark c, r) := by
  simp only [cut_cons, hc]

theorem cut_numeric {c : Char} (hc : CharClass.ofChar c = .numeric) :
    cut (c :: r) = some (cutNumber (c :: r)) := by
  simp only [cut_cons, hc]

theorem cut_quoted (hw : ∀ c ∈ w, inQuotes c = true) :
    cut ('"' :: (w ++ '"' :: r)) = some (.quoted w, r) := by
  have hstop : Stops inQuotes ('"' :: r) := stops_cons.2 (by decide)
  have hclass : CharClass.ofChar '"' = .quote := by decide
  simp only [cut_cons, hclass, cutQuoted, takeWhile_append_of_stops hw hstop, dropWhile_append_of_stops hw hstop]

theorem cutQuoted_fst (s : Text) : (cutQuoted s).1 = .quoted (s.takeWhile inQuotes) := by
  unfold cutQuoted
  split <;> rfl

/-- A string without a closing quote is cut off up to the end of its line. -/
theorem cut_unclosed (hw : ∀ c ∈ w, inQuotes c = true) (hr : ∀ c ∈ r.head?, c = '\n' ∨ c = '\r') :
    cut ('"' :: (w ++ r)) = some (.quoted w, r) := by
  have hclass : CharClass.ofChar '"' = .quote := by decide
  have hstop : Stops inQuotes r := by
    intro c hc
    rcases hr c hc with rfl | rfl <;> decide
  simp only [cut_cons, hclass, cutQuoted, takeWhile_append_of_stops hw hstop,
    dropWhile_append_of_stops hw hstop]
  split
  · simp at hr
  · rfl

/-- The run of word characters that a text starts with is cut off, up to the digits that a keyword
runs into. -/
theorem cut_run (hne : w ≠ []) (hw : ∀ c ∈ w, inWord c = true)
    (hdigit : ∀ c ∈ w.head?, c.isDigit = false) :
    cut (w ++ r) = some (.word (splitWord (w ++ r.takeWhile inWord)).1,
      (splitWord (w ++ r.takeWhile inWord)).2 ++ r.dropWhile inWord) := by
  cases w with
  | nil => exact absurd rfl hne
  | cons c rest =>
    rw [List.forall_mem_cons] at hw
    obtain ⟨hclass, hquestion⟩ := ofChar_of_inWord hw.1 (hdigit c rfl)
    simp only [List.cons_append, cut_cons, hclass, cutWord, if_neg hquestion,
      List.takeWhile_append_of_pos hw.2, List.dropWhile_append_of_pos hw.2]

theorem splitWord_keyword (h : (Keyword.ofWord? w).isSome) : splitWord w = (w, []) := by
  rw [splitWord, if_neg]
  simp [Option.isSome_iff_ne_none.1 h]

theorem splitWord_name (h : Keyword.ofWord? (w.takeWhile (!·.isDigit)) = none) :
    splitWord w = (w, []) := by
  rw [splitWord, if_neg]
  simp [h]

theorem splitWord_digits {head digits : Text} (hnone : Keyword.ofWord? (head ++ digits) = none)
    (hhead : ∀ c ∈ head, c.isDigit = false) (hdigits : ∃ c ∈ digits.head?, c.isDigit = true)
    (hsome : (Keyword.ofWord? head).isSome) : splitWord (head ++ digits) = (head, digits) := by
  have hstop : Stops (!·.isDigit) digits := by
    obtain ⟨c, hc, hdigit⟩ := hdigits
    intro d hd
    obtain rfl := Option.mem_unique hc hd
    simp [hdigit]
  have hnil : digits.isEmpty = false := by
    obtain ⟨c, hc, -⟩ := hdigits
    cases digits with
    | nil => cases hc
    | cons => rfl
  have hnot : ∀ c ∈ head, (!c.isDigit) = true := fun c hc => by simp [hhead c hc]
  rw [splitWord, takeWhile_append_of_stops hnot hstop, dropWhile_append_of_stops hnot hstop]
  simp [hnone, hnil, hsome]

theorem cut_word (hne : w ≠ []) (hw : ∀ c ∈ w, inWord c = true)
    (hdigit : ∀ c ∈ w.head?, c.isDigit = false) (hsplit : splitWord w = (w, []))
    (hr : Stops inWord r) : cut (w ++ r) = some (.word w, r) := by
  rw [cut_run hne hw hdigit, takeWhile_of_stops hr, dropWhile_of_stops hr, List.append_nil, hsplit,
    List.nil_append]

/-- Text that starts with neither a blank nor a mark is not cut at that mark. -/
theorem cut_ne_mark {c d : Char} (hblank : CharClass.ofChar c ≠ .blank) (hne : c ≠ d) (r' : Text) :
    cut (c :: r) ≠ some (.mark d, r') := by
  rw [cut_cons]
  split
  · next h => exact absurd h hblank
  · split <;> simp
  · unfold cutQuoted; split <;> simp
  · unfold cutNumber; split <;> simp
  · unfold cutWord; split <;> simp
  all_goals simp [hne]

end Lexeme

end Applesoft
