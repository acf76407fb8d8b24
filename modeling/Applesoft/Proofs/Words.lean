import Mathlib.Data.List.Nodup
import Applesoft.Proofs.LetterCase
import Applesoft.Proofs.Scanning

/-!
# Words and keywords

A word names a keyword if its upper-case form is the keyword's word. What the scanner needs to know
about the keywords is decided over all of them; in particular none goes on where `HGR2` or a keyword
with a `$` ends, and none starts with `$`.
-/
namespace Applesoft

namespace Text

theorem toUpper_eq_nil {t : Text} : t.toUpper = [] ↔ t = [] := by
  rw [toUpper, List.flatMap_eq_nil_iff]
  constructor
  · intro h
    rw [List.eq_nil_iff_forall_not_mem]
    exact fun c hc => Unicode.upperCase_ne_nil c (h c hc)
  · rintro rfl c hc; cases hc

theorem toUpper_append (t u : Text) : (t ++ u).toUpper = t.toUpper ++ u.toUpper :=
  List.flatMap_append

end Text

namespace Keyword

def withAlias : List Keyword := .question :: all

theorem mem_withAlias (k : Keyword) : k ∈ withAlias := by
  have hplace : (all ++ [.question])[k.ctorIdx]? = some k := by cases k <;> rfl
  rcases List.mem_append.1 (List.mem_of_getElem? hplace) with hmem | hmem
  · exact List.mem_cons_of_mem _ hmem
  · rw [List.mem_singleton.1 hmem]
    exact List.mem_cons_self

def isWord (k : Keyword) : Bool := k.word.head?.any Char.isAlpha

def endsInDollar (k : Keyword) : Bool := k.spelling.getLast? == some '$'

def key (t : Text) : Nat := t.foldl (fun n c => 128 * n + c.toNat) 0

theorem word_injective {k k' : Keyword} (h : k.word = k'.word) : k = k' := by
  have hnodup : (withAlias.map fun k => key k.word).Nodup := by decide
  exact List.inj_on_of_nodup_map hnodup (mem_withAlias k) (mem_withAlias k') (congrArg key h)

@[mk_iff]
structure Spelled (k : Keyword) : Prop where
  ascii : ∀ c ∈ k.word, c.toNat < 128 ∧ c.isLower = false
  alphanum : k.isWord = true → ∀ c ∈ k.word, c.isAlphanum = true ∨ c = '$'
  operator : k.isWord = false → k ≠ .question →
    k.mark? = none ∧ k.word.length = 1 ∧ ∀ c ∈ k.word, c ∈ CharClass.punctuationMarks
  mark : ∀ m ∈ k.mark?, k.isWord = true ∧ m ∈ CharClass.punctuationMarks
  digit : k ≠ .hgr2 → ∀ c ∈ k.word, c.isDigit = false
  head_dollar : k.word.head? ≠ some '$'
  head_inf : ¬ ['I', 'N', 'F'] <+: k.word
  last_rem : ['R', 'E', 'M'] <:+ k.word → k = .rem
  dollar : k.endsInDollar = true → k ∈ [.str, .chr, .left, .right, .mid]
  /-- No keyword starts with another one that ends in a digit or a `$`. -/
  head_open : ∀ k' ∈ [hgr2, .str, .chr, .left, .right, .mid], k'.word <+: k.word → k' = k
  open_word : k = .hgr2 ∨ k.endsInDollar = true →
    k.isWord = true ∧ k.mark? = none ∧ 128 ≤ k.code.toNat
  /-- The words whose last character is no letter are open. -/
  last_letter : k.isWord = true → k.mark? = none →
    ((k.spelling.getLast?.map Char.isAlpha).getD false = false ↔
      k = .hgr2 ∨ k.endsInDollar = true)
  first_letter : (k.spelling.head?.map Char.isAlpha).getD false = k.isWord

set_option synthInstance.maxSize 512 in
instance (k : Keyword) : Decidable k.Spelled := decidable_of_iff _ (spelled_iff k).symm

theorem spelled (k : Keyword) : k.Spelled := by
  have h : ∀ k ∈ withAlias, k.Spelled := by decide +kernel
  exact h k (mem_withAlias k)

theorem eq_of_word_prefix {k k' : Keyword} (hk : k = .hgr2 ∨ k.endsInDollar = true)
    (h : k.word <+: k'.word) : k = k' := by
  apply k'.spelled.head_open k _ h
  rcases hk with rfl | hk
  · exact List.mem_cons_self
  · exact List.mem_cons_of_mem _ (k.spelled.dollar hk)

theorem ofWord?_eq_some_iff {w : Text} {k : Keyword} :
    ofWord? w = some k ↔ w.toUpper = k.word := by
  unfold ofWord?
  dsimp only
  split
  · next hquestion =>
    rw [Option.some.injEq, hquestion]
    exact ⟨fun h => h ▸ rfl, word_injective⟩
  · next hquestion =>
    constructor
    · intro h
      simpa [eq_comm] using List.find?_some h
    · intro h
      have hmem : k ∈ all := (List.mem_cons.1 (mem_withAlias k)).resolve_left
        fun hk => hquestion (hk ▸ h)
      cases hfind : all.find? fun k => decide (k.word = w.toUpper) with
      | none => simpa [h] using List.find?_eq_none.1 hfind k hmem
      | some k' =>
        have hword : k'.word = w.toUpper := by simpa using List.find?_some hfind
        rw [word_injective (hword.trans h)]

theorem ofWord?_eq_none_iff {w : Text} : ofWord? w = none ↔ ∀ k : Keyword, w.toUpper ≠ k.word := by
  rw [Option.eq_none_iff_forall_ne_some]
  exact forall_congr' fun k => not_congr ofWord?_eq_some_iff

theorem ofWord?_congr {w w' : Text} (h : w.toUpper = w'.toUpper) : ofWord? w = ofWord? w' := by
  unfold ofWord?
  rw [h]

/-- `REM` has only the ASCII letters. -/
theorem map_toUpper_of_rem {w : Text} (h : ofWord? w = some .rem) :
    w.map Char.toUpper = ['R', 'E', 'M'] := by
  have hupper : w.toUpper = ['R', 'E', 'M'] := ofWord?_eq_some_iff.1 h
  have hascii : ∀ c ∈ w, c.toNat < 128 := Text.ascii_of_toUpper (by rw [hupper]; decide)
  rw [← Text.toUpper_eq_map hascii, hupper]

theorem eq_of_question {w : Text} (h : ofWord? w = some .question) : w = ['?'] := by
  have hupper : w.toUpper = ['?'] := ofWord?_eq_some_iff.1 h
  have hascii : ∀ c ∈ w, c.toNat < 128 := Text.ascii_of_toUpper (by rw [hupper]; decide)
  rw [Text.toUpper_eq_map hascii] at hupper
  obtain ⟨c, rfl, hc⟩ := List.map_eq_singleton_iff.1 hupper
  rw [List.forall_mem_singleton] at hascii
  rcases (ascii_case hascii List.mem_cons_self).2.2.2.2 with hself | halpha
  · rw [← hc, hself]
  · rw [hc] at halpha
    cases halpha

theorem isPlain_word (k : Keyword) : ∀ c ∈ k.word, IsPlain c := fun c hc =>
  isPlain_of_ascii (k.spelled.ascii c hc).1

theorem toUpper_word (k : Keyword) : k.word.toUpper = k.word := by
  have hword : ∀ c ∈ k.word, Unicode.upperCase c = [c] := fun c hc => by
    obtain ⟨hascii, hlower⟩ := k.spelled.ascii c hc
    rw [Unicode.upperCase_ascii hascii, toUpper_of_not_isLower hlower]
  rw [Text.toUpper, List.flatMap_congr hword, List.flatMap_singleton']

theorem apply_mark (letters : LetterCase) {c : Char} (hc : c ∈ CharClass.punctuationMarks) :
    IsPlain c ∧ letters.apply [c] = [c] ∧ CharClass.ofChar c = .punctuation := by
  have hmark : ∀ c ∈ CharClass.punctuationMarks, c.toNat < 128 ∧ c.toUpper = c ∧ c.toLower = c ∧
      CharClass.ofChar c = .punctuation := by
    decide
  obtain ⟨hascii, hupper, hlower, hclass⟩ := hmark c hc
  have hplain := isPlain_of_ascii hascii
  obtain ⟨d, hd, hform⟩ := letters.ofChar_ascii hascii
  obtain rfl : d = c := by simpa [hupper, hlower] using hd
  refine ⟨hplain, ?_, hclass⟩
  rw [letters.apply_eq_flatMap (List.forall_mem_singleton.2 hplain), List.flatMap_singleton, hform]

section Listed

variable (letters : LetterCase) (k : Keyword)

theorem toUpper_apply_word : (letters.apply k.word).toUpper = k.word := by
  rw [letters.toUpper_apply k.isPlain_word, toUpper_word]

theorem ofWord?_apply_word : ofWord? (letters.apply k.word) = some k :=
  ofWord?_eq_some_iff.2 (toUpper_apply_word letters k)

theorem apply_spelling :
    letters.apply k.spelling = letters.apply k.word ++ k.mark?.toList := by
  rw [spelling]
  cases hmark : k.mark? with
  | none => rw [Option.toList_none, List.append_nil, List.append_nil]
  | some m =>
    obtain ⟨hplain, happly, -⟩ := apply_mark letters (k.spelled.mark m hmark).2
    rw [Option.toList_some,
      letters.apply_append k.isPlain_word (List.forall_mem_singleton.2 hplain), happly]

variable {k}

theorem inWord_apply_word (hk : k.isWord = true) :
    ∀ c ∈ letters.apply k.word, inWord c = true := by
  intro d hd
  obtain ⟨c, hc, hd⟩ := (letters.mem_apply k.isPlain_word).1 hd
  have hword := inWord_of_isAlphanum (k.spelled.alphanum hk c hc)
  exact letters.inWord_ofChar (k.isPlain_word c hc) hword d hd

theorem apply_word_ne_nil (hk : k.isWord = true) : letters.apply k.word ≠ [] := by
  rw [Ne, letters.apply_eq_nil k.isPlain_word]
  rintro hnil
  rw [isWord, hnil] at hk
  cases hk

theorem head_apply_word (hk : k.isWord = true) :
    ∀ d ∈ (letters.apply k.word).head?, d.isDigit = false ∧ d ≠ '$' := by
  intro d hd
  obtain ⟨c, hc, hd⟩ := letters.head_apply k.isPlain_word d hd
  have hplain := k.isPlain_word c (List.mem_of_mem_head? hc)
  have halpha : c.isAlpha = true := by
    rw [isWord, Option.mem_def.1 hc] at hk
    exact hk
  have hdollar : c ≠ '$' := by rintro rfl; cases halpha
  exact ⟨by rw [letters.isDigit_ofChar hplain d hd, not_isDigit_of_isAlpha halpha],
    letters.ne_dollar_ofChar hplain hdollar d hd⟩

theorem isDigit_apply_word (hk : k ≠ .hgr2) :
    ∀ d ∈ letters.apply k.word, d.isDigit = false := by
  intro d hd
  obtain ⟨c, hc, hd⟩ := (letters.mem_apply k.isPlain_word).1 hd
  rw [letters.isDigit_ofChar (k.isPlain_word c hc) d hd, k.spelled.digit hk c hc]

theorem ofWord?_apply_word_append {more : Text} (hk : k = .hgr2 ∨ k.endsInDollar = true)
    (hmore : more ≠ []) : ofWord? (letters.apply k.word ++ more) = none := by
  rw [ofWord?_eq_none_iff]
  intro k' hk'
  rw [Text.toUpper_append, toUpper_apply_word] at hk'
  obtain rfl := eq_of_word_prefix hk ⟨_, hk'⟩
  exact hmore (Text.toUpper_eq_nil.1 (by simpa using hk'))

/-- An operator is a single mark. -/
theorem operator (hword : k.isWord = false) (hk : k ≠ .question) :
    ∃ c, letters.apply k.spelling = [c] ∧ CharClass.ofChar c = .punctuation ∧
      ofWord? [c] = some k := by
  obtain ⟨hmark, hlength, hmem⟩ := k.spelled.operator hword hk
  obtain ⟨c, hc⟩ := List.length_eq_one_iff.1 hlength
  obtain ⟨-, happly, hclass⟩ := apply_mark letters (hmem c (by simp [hc]))
  have hsome := ofWord?_apply_word letters k
  rw [hc, happly] at hsome
  exact ⟨c, by rw [apply_spelling, hmark, hc, happly]; rfl, hclass, hsome⟩

end Listed

theorem ofWord?_mark : ∀ c ∈ CharClass.punctuationMarks,
    (ofWord? [c] = none ↔ c ∈ ['(', ')', ',', ':', '#', ';']) ∧
      ∀ k ∈ ofWord? [c], k ≠ .rem ∧ k ≠ .question := by
  decide

/-- No operator needs a mark after it. -/
theorem mark?_of_ofWord?_mark {c : Char} {k : Keyword} (hc : c ∈ CharClass.punctuationMarks)
    (h : ofWord? [c] = some k) : k.mark? = none := by
  have hword : k.word = [c] := by
    rw [← ofWord?_eq_some_iff.1 h]
    exact (apply_mark .upper hc).2.1
  have hletter : ∀ c ∈ CharClass.punctuationMarks, c.isAlpha = false := by decide
  have hoperator : k.isWord = false := by
    rw [isWord, hword]
    exact hletter c hc
  by_cases hquestion : k = .question
  · subst hquestion
    rfl
  · exact (k.spelled.operator hoperator hquestion).1

theorem lineFeed_not_mem_word (k : Keyword) : '\n' ∉ k.word := by
  intro hmem
  cases hword : k.isWord with
  | true => exact absurd (k.spelled.alphanum hword _ hmem) (by decide)
  | false =>
    by_cases hquestion : k = .question
    · subst hquestion
      exact absurd hmem (by decide)
    · exact absurd ((k.spelled.operator hword hquestion).2.2 _ hmem) (by decide)

theorem ofWord?_of_head_dollar {w : Text} (h : w.head? = some '$') : ofWord? w = none := by
  rw [ofWord?_eq_none_iff]
  intro k hk
  cases w with
  | nil => cases h
  | cons c rest =>
    obtain rfl := Option.some.inj h
    apply k.spelled.head_dollar
    rw [← hk]
    rfl

end Keyword

end Applesoft
