import Applesoft.Proofs.Scanning
import Applesoft.Text

/-!
# The letter case of plain text

Text is plain if its upper-case form is ASCII. Besides ASCII only ten letters are plain. The letter
case of a listing maps plain text character by character, keeps words words, and keeps the
upper-case form.
-/
namespace Applesoft

/-- A character whose upper-case form is ASCII. -/
def IsPlain (c : Char) : Prop := ∀ u ∈ Unicode.upperCase c, u.toNat < 128

instance (c : Char) : Decidable (IsPlain c) :=
  inferInstanceAs (Decidable (∀ u ∈ Unicode.upperCase c, u.toNat < 128))

def plainLetters : List Char := ['ß', 'ı', 'ſ', 'ﬀ', 'ﬁ', 'ﬂ', 'ﬃ', 'ﬄ', 'ﬅ', 'ﬆ']

/-- Only plain letters expand into ASCII. Of the runs only two single letters lead into ASCII, and
none to a code that is no character. -/
theorem upperCase_tables :
    (∀ e ∈ Unicode.upperCaseExpansions, e.2 ≠ [] ∧
      ((∀ code ∈ e.2, (Char.ofNat code).toNat < 128) → Char.ofNat e.1 ∈ plainLetters)) ∧
    ∀ r ∈ Unicode.upperCaseRuns, (r.first = r.last ∧ Char.ofNat r.first ∈ plainLetters) ∨
      128 ≤ r.first + r.shift ∧
        (r.last + r.shift < 0xD800 ∨ 0xDFFF < r.first + r.shift ∧ r.last + r.shift < 0x110000) := by
  decide +kernel

theorem toNat_ofNat_of_valid {n : Nat} (h : n < 0xD800 ∨ 0xDFFF < n ∧ n < 0x110000) :
    (Char.ofNat n).toNat = n := by
  have hvalid : n.isValidChar := h
  rw [Char.ofNat, dif_pos hvalid]
  rfl

theorem IsPlain.ascii_or_mem {c : Char} (h : IsPlain c) : c.toNat < 128 ∨ c ∈ plainLetters := by
  by_cases hascii : c.toNat < 128
  · exact .inl hascii
  right
  have hself : Char.ofNat c.toNat = c := Char.ofNat_toNat c
  rw [IsPlain, Unicode.upperCase, if_neg hascii, Unicode.mapCase] at h
  split at h
  · next codes hlookup =>
    obtain ⟨_, _, hsplit, -⟩ := List.lookup_eq_some_iff.1 hlookup
    have hmem : (c.toNat, codes) ∈ Unicode.upperCaseExpansions := by rw [hsplit]; simp
    have := (upperCase_tables.1 _ hmem).2 fun code hcode => h _ (List.mem_map_of_mem hcode)
    rwa [hself] at this
  · split at h
    · next r hfind =>
      have hcovers := List.find?_some hfind
      simp only [Unicode.CaseRun.covers, Bool.and_eq_true, decide_eq_true_eq] at hcovers
      rcases upperCase_tables.2 r (List.mem_of_find?_eq_some hfind) with
        ⟨hsingle, hmem⟩ | ⟨hbeyond, hvalid⟩
      · rwa [show r.first = c.toNat by omega, hself] at hmem
      · have hlt := h _ (List.mem_singleton_self _)
        rw [toNat_ofNat_of_valid (by omega)] at hlt
        omega
    · exact absurd (h c (List.mem_singleton_self c)) hascii

theorem ascii_case {c d : Char} (hc : c.toNat < 128) (hd : d ∈ [c.toUpper, c.toLower]) :
    d.toNat < 128 ∧ d.toUpper = c.toUpper ∧ d.isDigit = c.isDigit ∧ (c.isDigit = true → d = c) ∧
      (d = c ∨ d.isAlpha = true) := by
  have h : ∀ n < 128, ∀ d ∈ [(Char.ofNat n).toUpper, (Char.ofNat n).toLower],
      d.toNat < 128 ∧ d.toUpper = (Char.ofNat n).toUpper ∧
        d.isDigit = (Char.ofNat n).isDigit ∧ ((Char.ofNat n).isDigit = true → d = Char.ofNat n) ∧
        (d = Char.ofNat n ∨ d.isAlpha = true) := by
    decide
  have hself := h c.toNat hc d
  rw [Char.ofNat_toNat] at hself
  exact hself hd

theorem inWord_of_isAlphanum {c : Char} (h : c.isAlphanum = true ∨ c = '$') :
    inWord c = true := by
  rcases h with h | rfl
  · by_cases hdigit : c.isDigit = true
    · exact inWord_of_isDigit hdigit
    · have hne : c ≠ '?' := by rintro rfl; cases h
      simp [inWord, ofChar_of_isAlphanum h, hdigit, hne]
  · decide

namespace Unicode

theorem upperCase_ascii {c : Char} (h : c.toNat < 128) : upperCase c = [c.toUpper] := if_pos h

theorem lowerCase_ascii {c : Char} (h : c.toNat < 128) : lowerCase c = [c.toLower] := if_pos h

theorem upperCase_ne_nil (c : Char) : upperCase c ≠ [] := by
  unfold upperCase mapCase
  split
  · exact List.cons_ne_nil _ _
  split
  · next codes hlookup =>
    obtain ⟨_, _, hsplit, -⟩ := List.lookup_eq_some_iff.1 hlookup
    have hmem : (c.toNat, codes) ∈ upperCaseExpansions := by rw [hsplit]; simp
    exact fun hnil => (upperCase_tables.1 _ hmem).1 (List.map_eq_nil_iff.1 hnil)
  · split <;> exact List.cons_ne_nil _ _

def capitals : List Char := ['F', 'I', 'L', 'S', 'T']

/-- A plain letter beyond ASCII becomes capitals, and has no other lower-case form. -/
theorem case_plainLetters : ∀ c ∈ plainLetters, 128 ≤ c.toNat ∧
    lowerCaseExpansions.lookup c.toNat = none ∧
    (∀ r ∈ lowerCaseRuns, r.covers c.toNat = false) ∧ ∀ u ∈ upperCase c, u ∈ capitals := by
  decide +kernel

theorem lowerCase_plainLetter {c : Char} (hc : c ∈ plainLetters) : lowerCase c = [c] := by
  obtain ⟨hbeyond, hlookup, hruns, -⟩ := case_plainLetters c hc
  have hfind : lowerCaseRuns.find? (·.covers c.toNat) = none :=
    List.find?_eq_none.2 fun r hr => by simp [hruns r hr]
  rw [lowerCase, if_neg (Nat.not_lt.2 hbeyond), mapCase, hlookup]
  simp only [hfind]

end Unicode

theorem toUpper_map_toUpper (t : Text) : Text.toUpper (t.map Char.toUpper) = t.toUpper := by
  rw [Text.toUpper, List.flatMap_map]
  refine List.flatMap_congr fun c _ => ?_
  by_cases hc : c.toNat < 128
  · have hupper := ascii_case hc (List.mem_cons_self : c.toUpper ∈ [c.toUpper, c.toLower])
    rw [Unicode.upperCase_ascii hupper.1, hupper.2.1, Unicode.upperCase_ascii hc]
  · have hlower : c.isLower = false := by
      rw [Bool.eq_false_iff, Ne, isLower_iff_toNat]
      omega
    rw [toUpper_of_not_isLower hlower]

/-- Text whose upper-case form is ASCII and without those capitals is ASCII itself. -/
theorem Text.ascii_of_toUpper {t : Text}
    (h : ∀ u ∈ t.toUpper, u.toNat < 128 ∧ u ∉ Unicode.capitals) : ∀ c ∈ t, c.toNat < 128 := by
  intro c hc
  have hupper : ∀ u ∈ Unicode.upperCase c, u.toNat < 128 ∧ u ∉ Unicode.capitals := fun u hu =>
    h u (List.mem_flatMap.2 ⟨c, hc, hu⟩)
  have hplain : IsPlain c := fun u hu => (hupper u hu).1
  rcases hplain.ascii_or_mem with hascii | hmem
  · exact hascii
  · obtain ⟨u, hu⟩ := List.exists_mem_of_ne_nil _ (Unicode.upperCase_ne_nil c)
    exact absurd ((Unicode.case_plainLetters c hmem).2.2.2 u hu) (hupper u hu).2

theorem Text.toUpper_eq_map {t : Text} (h : ∀ c ∈ t, c.toNat < 128) :
    t.toUpper = t.map Char.toUpper := by
  rw [Text.toUpper, List.map_eq_flatMap]
  exact List.flatMap_congr fun c hc => Unicode.upperCase_ascii (h c hc)

theorem isPlain_of_ascii {c : Char} (h : c.toNat < 128) : IsPlain c := by
  rw [IsPlain, Unicode.upperCase_ascii h, List.forall_mem_singleton]
  exact (ascii_case h List.mem_cons_self).1

namespace LetterCase

def ofChar : LetterCase → Char → Text
  | .upper, c => Unicode.upperCase c
  | .lower, c => Unicode.lowerCase c

variable {c : Char}

theorem ofChar_ascii (letters : LetterCase) (h : c.toNat < 128) :
    ∃ d ∈ [c.toUpper, c.toLower], letters.ofChar c = [d] := by
  cases letters with
  | upper => exact ⟨_, List.mem_cons_self, Unicode.upperCase_ascii h⟩
  | lower => exact ⟨_, List.mem_cons_of_mem _ List.mem_cons_self, Unicode.lowerCase_ascii h⟩

theorem ofChar_beyond (letters : LetterCase) (h : c ∈ plainLetters) :
    letters.ofChar c = [c] ∨ letters.ofChar c = Unicode.upperCase c := by
  cases letters with
  | upper => exact .inr rfl
  | lower => exact .inl (Unicode.lowerCase_plainLetter h)

/-- A plain character is written as itself or with letters, and a digit as itself. -/
theorem mem_ofChar (letters : LetterCase) (h : IsPlain c) : ∀ d ∈ letters.ofChar c,
    d.isDigit = c.isDigit ∧ (d = c ∨ d.toNat < 128 ∧ d.isAlpha = true) := by
  intro d hd
  rcases h.ascii_or_mem with hc | hc
  · obtain ⟨e, he, hform⟩ := letters.ofChar_ascii hc
    rw [hform, List.mem_singleton] at hd
    obtain ⟨hascii, -, hdigit, -, halpha⟩ := ascii_case hc (hd ▸ he)
    exact ⟨hdigit, halpha.imp_right fun halpha => ⟨hascii, halpha⟩⟩
  · have hcapitals : ∀ u ∈ Unicode.capitals,
        u.isDigit = false ∧ u.toNat < 128 ∧ u.isAlpha = true := by decide
    have hletters : ∀ c ∈ plainLetters, c.isDigit = false := by decide
    rcases letters.ofChar_beyond hc with hform | hform
    · rw [hform, List.mem_singleton] at hd
      exact ⟨congrArg Char.isDigit hd, .inl hd⟩
    · rw [hform] at hd
      obtain ⟨hdigit, hcapital⟩ := hcapitals d ((Unicode.case_plainLetters c hc).2.2.2 d hd)
      exact ⟨by rw [hdigit, hletters c hc], .inr hcapital⟩

theorem ofChar_ne_nil (letters : LetterCase) (h : IsPlain c) : letters.ofChar c ≠ [] := by
  rcases h.ascii_or_mem with hc | hc
  · obtain ⟨d, -, hform⟩ := letters.ofChar_ascii hc
    rw [hform]
    exact List.cons_ne_nil d []
  · rcases letters.ofChar_beyond hc with hform | hform
    · rw [hform]; exact List.cons_ne_nil c []
    · rw [hform]; exact Unicode.upperCase_ne_nil c

theorem inWord_ofChar (letters : LetterCase) (h : IsPlain c) :
    inWord c = true → ∀ d ∈ letters.ofChar c, inWord d = true := by
  intro hc d hd
  rcases (letters.mem_ofChar h d hd).2 with rfl | ⟨-, halpha⟩
  · exact hc
  · exact inWord_of_isAlphanum (.inl (by rw [Char.isAlphanum, halpha, Bool.true_or]))

theorem isDigit_ofChar (letters : LetterCase) (h : IsPlain c) :
    ∀ d ∈ letters.ofChar c, d.isDigit = c.isDigit := fun d hd =>
  (letters.mem_ofChar h d hd).1

theorem ne_dollar_ofChar (letters : LetterCase) (h : IsPlain c) :
    c ≠ '$' → ∀ d ∈ letters.ofChar c, d ≠ '$' := by
  intro hc d hd
  rcases (letters.mem_ofChar h d hd).2 with rfl | ⟨-, halpha⟩
  · exact hc
  · rintro rfl
    cases halpha

theorem ofChar_digit (letters : LetterCase) (h : IsPlain c) :
    c.isDigit = true → letters.ofChar c = [c] := by
  have hletters : ∀ c ∈ plainLetters, c.isDigit = false := by decide
  intro hdigit
  rcases h.ascii_or_mem with hc | hc
  · obtain ⟨d, hd, hform⟩ := letters.ofChar_ascii hc
    rw [hform, (ascii_case hc hd).2.2.2.1 hdigit]
  · rw [hletters c hc] at hdigit
    cases hdigit

theorem toUpper_ofChar (letters : LetterCase) (h : IsPlain c) :
    Text.toUpper (letters.ofChar c) = Unicode.upperCase c := by
  have hcapitals : ∀ u ∈ Unicode.capitals, Unicode.upperCase u = [u] := by decide
  rcases h.ascii_or_mem with hc | hc
  · obtain ⟨d, hd, hform⟩ := letters.ofChar_ascii hc
    obtain ⟨hascii, hupper, -⟩ := ascii_case hc hd
    rw [hform, Text.toUpper, List.flatMap_singleton, Unicode.upperCase_ascii hascii, hupper,
      Unicode.upperCase_ascii hc]
  · rcases letters.ofChar_beyond hc with hform | hform
    · rw [hform, Text.toUpper, List.flatMap_singleton]
    · have hmem := (Unicode.case_plainLetters c hc).2.2.2
      rw [hform, Text.toUpper, List.flatMap_congr fun u hu => hcapitals u (hmem u hu),
        List.flatMap_singleton']

theorem map_toUpper_ofChar (letters : LetterCase) (h : c.toNat < 128) :
    (letters.ofChar c).map Char.toUpper = [c.toUpper] := by
  obtain ⟨d, hd, hform⟩ := letters.ofChar_ascii h
  rw [hform, List.map_singleton, (ascii_case h hd).2.1]

theorem toLowerAfter_eq_flatMap {before t : Text} (h : 'Σ' ∉ t) :
    Text.toLowerAfter before t = t.flatMap Unicode.lowerCase := by
  induction t generalizing before with
  | nil => rfl
  | cons c rest ih =>
    rw [List.mem_cons, not_or] at h
    rw [Text.toLowerAfter, if_neg (Ne.symm h.1), ih h.2, List.flatMap_cons]

theorem apply_eq_flatMap (letters : LetterCase) {t : Text} (h : ∀ c ∈ t, IsPlain c) :
    letters.apply t = t.flatMap letters.ofChar := by
  cases letters with
  | upper => rfl
  | lower =>
    apply toLowerAfter_eq_flatMap
    intro hsigma
    rcases (h _ hsigma).ascii_or_mem with hascii | hmem
    · exact absurd hascii (by decide)
    · exact absurd hmem (by decide)

theorem apply_append (letters : LetterCase) {t u : Text} (ht : ∀ c ∈ t, IsPlain c)
    (hu : ∀ c ∈ u, IsPlain c) : letters.apply (t ++ u) = letters.apply t ++ letters.apply u := by
  have htu : ∀ c ∈ t ++ u, IsPlain c := fun c hc => (List.mem_append.1 hc).elim (ht c) (hu c)
  rw [letters.apply_eq_flatMap htu, letters.apply_eq_flatMap ht, letters.apply_eq_flatMap hu,
    List.flatMap_append]

variable {t : Text}

theorem toUpper_apply (letters : LetterCase) (h : ∀ c ∈ t, IsPlain c) :
    (letters.apply t).toUpper = t.toUpper := by
  rw [letters.apply_eq_flatMap h, Text.toUpper, List.flatMap_assoc, Text.toUpper]
  exact List.flatMap_congr fun c hc => letters.toUpper_ofChar (h c hc)

theorem map_toUpper_apply (letters : LetterCase) (h : ∀ c ∈ t, c.toNat < 128) :
    (letters.apply t).map Char.toUpper = t.map Char.toUpper := by
  rw [letters.apply_eq_flatMap fun c hc => isPlain_of_ascii (h c hc), List.map_flatMap,
    List.map_eq_flatMap]
  exact List.flatMap_congr fun c hc => letters.map_toUpper_ofChar (h c hc)

theorem mem_apply (letters : LetterCase) (h : ∀ c ∈ t, IsPlain c) {d : Char} :
    d ∈ letters.apply t ↔ ∃ c ∈ t, d ∈ letters.ofChar c := by
  rw [letters.apply_eq_flatMap h, List.mem_flatMap]

theorem head_apply (letters : LetterCase) (h : ∀ c ∈ t, IsPlain c) :
    ∀ d ∈ (letters.apply t).head?, ∃ c ∈ t.head?, d ∈ letters.ofChar c := by
  intro d hd
  rw [letters.apply_eq_flatMap h] at hd
  cases t with
  | nil => cases hd
  | cons c rest =>
    have hne := letters.ofChar_ne_nil (h c List.mem_cons_self)
    rw [List.flatMap_cons, List.head?_append_of_ne_nil _ hne] at hd
    exact ⟨c, rfl, List.mem_of_mem_head? hd⟩

theorem takeWhile_apply (letters : LetterCase) (h : ∀ c ∈ t, IsPlain c) :
    (letters.apply t).takeWhile (!·.isDigit) = letters.apply (t.takeWhile (!·.isDigit)) := by
  have htake : ∀ c ∈ t.takeWhile (!·.isDigit), IsPlain c := fun c hc =>
    h c (List.takeWhile_subset _ hc)
  rw [letters.apply_eq_flatMap h, letters.apply_eq_flatMap htake]
  induction t with
  | nil => rfl
  | cons c rest ih =>
    rw [List.forall_mem_cons] at h
    have hdigits := letters.isDigit_ofChar h.1
    by_cases hc : c.isDigit = true
    · simp [letters.ofChar_digit h.1 hc, hc]
    · have hrest : ∀ d ∈ letters.ofChar c, (!d.isDigit) = true := fun d hd => by
        simp [hdigits d hd, hc]
      rw [List.takeWhile_cons_of_pos (by simpa using hc), List.flatMap_cons, List.flatMap_cons,
        List.takeWhile_append_of_pos hrest,
        ih h.2 fun c hc => h.2 c (List.takeWhile_subset _ hc)]

theorem apply_eq_nil (letters : LetterCase) (h : ∀ c ∈ t, IsPlain c) :
    letters.apply t = [] ↔ t = [] := by
  rw [letters.apply_eq_flatMap h, List.flatMap_eq_nil_iff]
  constructor
  · intro hnil
    rw [List.eq_nil_iff_forall_not_mem]
    exact fun c hc => letters.ofChar_ne_nil (h c hc) (hnil c hc)
  · rintro rfl c hc; cases hc

end LetterCase

end Applesoft
