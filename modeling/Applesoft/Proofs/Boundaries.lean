import Applesoft.Proofs.ListedTokens

/-!
# Boundaries between listed tokens

A listing puts a blank between some tokens and none between others. `clashes` and `merges` are the
pairs for which that is not enough. In all other pairs the text of the second token does not carry on
that of the first.
-/
namespace Applesoft

namespace TokenKind

def isOpenName : TokenKind → Bool
  | .identifier name => name.getLast? != some '('
  | _ => false

def isDirective : TokenKind → Bool
  | .directive _ => true
  | _ => false

/-- A keyword whose last character is no letter although a word can go on with it. -/
def isOpenKeyword : TokenKind → Bool
  | .keyword k => k == .hgr2 || k.endsInDollar
  | _ => false

/-- Two tokens that run together into other tokens when they stand side by side in a listing. -/
def clashes (before : TokenKind) : TokenKind → Bool
  | .comment _ => before.isOpenName || before.isDirective || before.isOpenKeyword
  | .identifier _ | .directive _ => before.isOpenKeyword
  | .number _ => before == .keyword .hgr2
  | _ => false

/-- A name and a parenthesis that become one name. -/
def merges (before after : TokenKind) : Bool :=
  before.isOpenName && after == .punct '('

def startsWord : TokenKind → Bool
  | .identifier _ | .number _ | .directive _ | .comment _ => true
  | .keyword k => k.isWord
  | .lineEnd | .quoted _ | .punct _ => false

structure StartsWith (k : TokenKind) (c : Char) : Prop where
  not_blank : CharClass.ofChar c ≠ .blank
  inWord : Applesoft.inWord c = k.startsWord
  ne_point : c ≠ '.'
  paren : c = '(' → k = .punct '('
  digit : c.isDigit = true ↔ ∃ value, k = .number value ∧ value.isInfinite = false

variable {letters : LetterCase}

theorem StartsWith.ofMark {k : TokenKind} {c : Char} (hk : k.startsWord = false)
    (hc : c = '"' ∨ c ∈ CharClass.punctuationMarks) (hparen : c = '(' → k = .punct '(') :
    k.StartsWith c := by
  have hmark : ∀ c ∈ '"' :: CharClass.punctuationMarks, CharClass.ofChar c ≠ .blank ∧
      Applesoft.inWord c = false ∧ c ≠ '.' ∧ c.isDigit = false := by
    decide
  obtain ⟨hblank, hword, hpoint, hdigit⟩ := hmark c (List.mem_cons.2 hc)
  refine ⟨hblank, by rw [hword, hk], hpoint, hparen, ?_⟩
  rw [hdigit]
  constructor
  · intro h; cases h
  · rintro ⟨value, rfl, -⟩; cases hk

theorem StartsWith.ofWord {k : TokenKind} {c : Char} (hk : k.startsWord = true)
    (hc : Applesoft.inWord c = true)
    (hdigit : c.isDigit = true ↔ ∃ value, k = .number value ∧ value.isInfinite = false) :
    k.StartsWith c where
  not_blank hblank := by simp [Applesoft.inWord, hblank] at hc
  inWord := by rw [hc, hk]
  ne_point := by rintro rfl; cases hc
  paren := by rintro rfl; cases hc
  digit := hdigit

theorem exists_startsWith_word {k : TokenKind} {w : Text} (more : Text) (hk : k.startsWord = true)
    (hvalue : ∀ value, k = .number value → value.isInfinite = true) (hne : w ≠ [])
    (hw : ∀ c ∈ w, Applesoft.inWord c = true) (hdigit : ∀ c ∈ w.head?, c.isDigit = false) :
    ∃ c rest, w ++ more = c :: rest ∧ k.StartsWith c := by
  cases w with
  | nil => exact absurd rfl hne
  | cons c rest =>
    refine ⟨c, rest ++ more, rfl, .ofWord hk (hw c List.mem_cons_self) ?_⟩
    rw [hdigit c rfl]
    simpa using hvalue

theorem exists_startsWith {k : TokenKind} (hwell : k.WellFormed) (hplain : k.IsPlain)
    (hk : k ≠ .lineEnd) : ∃ c rest, k.listed letters = c :: rest ∧ k.StartsWith c := by
  cases k with
  | lineEnd => exact absurd rfl hk
  | number value =>
    by_cases hinfinite : value.isInfinite = true
    · rw [listed, Binary64.listingText_infinite hwell.1 hinfinite]
      exact exists_startsWith_word (k := .number value) (w := ['i', 'n', 'f']) [] rfl
        (by rintro _ ⟨⟩; exact hinfinite) (by decide) (by decide) (by decide)
    · have hfinite : value.IsListable := by
        refine ⟨hwell.1, ?_⟩
        have hne : value.rank.val ≠ Binary64.infinityRank := by
          simpa [Binary64.isInfinite] using hinfinite
        simpa [Binary64.isFinite] using Nat.lt_of_le_of_ne hwell.2 hne
      obtain ⟨c, hc, hdigit⟩ := Binary64.isDigit_head_listingText hfinite
      obtain ⟨rest, hrest⟩ := List.head?_eq_some_iff.1 hc
      refine ⟨c, rest, hrest, .ofWord rfl (inWord_of_isDigit hdigit) ?_⟩
      simpa [hdigit] using hinfinite
  | keyword k =>
    by_cases hword : k.isWord = true
    · rw [listed, Keyword.apply_spelling]
      exact exists_startsWith_word _ hword (by simp) (Keyword.apply_word_ne_nil letters hword)
        (Keyword.inWord_apply_word letters hword)
        fun c hc => (Keyword.head_apply_word letters hword c hc).1
    · obtain ⟨c, hspelling, hclass, hsome⟩ :=
        Keyword.operator letters (by simpa using hword) hwell.2
      refine ⟨c, [], hspelling, .ofMark (by simpa [startsWord] using hword)
        (.inr (CharClass.mem_of_ofChar_punctuation hclass)) ?_⟩
      rintro rfl
      exact absurd hsome (by simp [show Keyword.ofWord? ['('] = none by decide])
  | identifier name =>
    rcases hwell with hname | ⟨w, hname, rfl⟩
    · have happly : IsName (letters.apply name) := hname.apply hplain
      rw [listed, ← List.append_nil (letters.apply name)]
      exact exists_startsWith_word [] rfl (by simp) happly.ne_nil happly.inWord happly.head_digit
    · have hw : ∀ c ∈ w, Applesoft.IsPlain c := fun c hc => hplain c (List.mem_append_left _ hc)
      have happly : IsName (letters.apply w) := hname.apply hw
      rw [listed, letters.apply_append hw (by decide)]
      exact exists_startsWith_word _ rfl (by simp) happly.ne_nil happly.inWord happly.head_digit
  | quoted text => exact ⟨'"', text ++ ['"'], rfl, .ofMark rfl (.inl rfl) (fun h => by cases h)⟩
  | directive name =>
    obtain ⟨rest, rfl⟩ := List.head?_eq_some_iff.1 hwell.1
    exact ⟨'$', rest, rfl, .ofWord rfl (hwell.2 '$' List.mem_cons_self) (by simp)⟩
  | comment text =>
    have hword : Keyword.rem.isWord = true := by decide
    rw [listed_comment]
    exact exists_startsWith_word _ rfl (by simp) (Keyword.apply_word_ne_nil letters hword)
      (Keyword.inWord_apply_word letters hword)
      fun c hc => (Keyword.head_apply_word letters hword c hc).1
  | punct c =>
    have hmark : ∀ c ∈ ['(', ')', ',', ':', '#', ';'], c ∈ CharClass.punctuationMarks := by decide
    exact ⟨c, [], rfl, .ofMark rfl (.inr (hmark c hwell)) (by rintro rfl; rfl)⟩

def Closes (r : Text) : Prop := r.head? = some ':' ∨ r.head? = some '\n'

theorem Closes.exists_cons {r : Text} (h : Closes r) :
    ∃ c rest, r = c :: rest ∧ c ∈ [':', '\n'] := by
  rcases h with h | h
  all_goals
    obtain ⟨rest, rfl⟩ := List.head?_eq_some_iff.1 h
    exact ⟨_, rest, rfl, by decide⟩

/-- A token ends before a character that belongs to no word, unless a name takes it in. -/
theorem endsBefore_cons {k : TokenKind} {c : Char} {r : Text} (hword : Applesoft.inWord c = false)
    (hpoint : c ≠ '.') (hcomment : ∀ text, k = .comment text → c = '\n')
    (hparen : k.isOpenName = true → ∀ r', Lexeme.cut (c :: r) ≠ some (.mark '(', r')) :
    k.EndsBefore (c :: r) := by
  have hdigit : c.isDigit = false := isDigit_of_not_inWord hword
  cases k with
  | number => exact ⟨stops_cons.2 hdigit, by simpa using hpoint⟩
  | keyword => exact fun _ _ => .inl (stops_cons.2 hword)
  | identifier name =>
    by_cases hname : name.getLast? = some '('
    · exact .inl hname
    · exact .inr ⟨stops_cons.2 hword, hparen (by simpa [isOpenName] using hname)⟩
  | directive => exact stops_cons.2 hword
  | comment text => exact stops_cons.2 (by simp [hcomment text rfl])
  | lineEnd | quoted | punct => trivial

theorem endsBefore_of_closes {k : TokenKind} {r : Text} (hr : Closes r)
    (hcomment : ∀ text, k = .comment text → r.head? = some '\n') : k.EndsBefore r := by
  have hmark : ∀ c ∈ [':', '\n'], Applesoft.inWord c = false ∧ c ≠ '.' ∧ c ≠ '(' ∧
      CharClass.ofChar c ≠ .blank := by
    decide
  obtain ⟨c, rest, rfl, hc⟩ := hr.exists_cons
  obtain ⟨hword, hpoint, hne, hblank⟩ := hmark c hc
  exact endsBefore_cons hword hpoint (fun text htext => by simpa using hcomment text htext)
    fun _ r' => Lexeme.cut_ne_mark hblank hne r'

theorem isOpenKeyword_of_needsBlank {k : Keyword} (hword : k.isWord = true)
    (hmark : k.mark? = none) (hend : (keyword k).endsWithLetter = false) :
    (keyword k).isOpenKeyword = true := by
  have hopen := (k.spelled.last_letter hword hmark).1 hend
  simpa [isOpenKeyword] using hopen

theorem wordLike_or_comment {k : TokenKind} (hk : k.startsWord = true)
    (hletter : k.startsWithLetter = false) : k.isWordLike = true ∨ ∃ text, k = .comment text := by
  cases k with
  | identifier | number | directive => exact .inl rfl
  | comment text => exact .inr ⟨text, rfl⟩
  | keyword k => rw [startsWord, ← k.spelled.first_letter] at hk; rw [startsWithLetter, hk] at hletter; cases hletter
  | lineEnd | quoted | punct => cases hk

theorem endsBefore_wordLike {k k' : TokenKind} {c : Char} {r : Text} (hstart : k'.StartsWith c)
    (hlike : k'.isWordLike = true) (hcomment : ∀ text, k ≠ .comment text)
    (hend : k.endsWithLetter = false) (hwordLike : k.endsWordLike = false)
    (hclash : k.clashes k' = false)
    (hlisted : k'.isUnlistable = true → k.isOpenKeyword = false) : k.EndsBefore (c :: r) := by
  cases k with
  | lineEnd | quoted | punct => trivial
  | comment text => exact absurd rfl (hcomment text)
  | number | directive => cases hwordLike
  | identifier name => exact .inl (by simpa [endsWordLike] using hwordLike)
  | keyword k =>
    intro hword hmark
    have hopen := isOpenKeyword_of_needsBlank hword hmark hend
    right
    cases k' with
    | number value =>
      have hhgr2 : k ≠ .hgr2 := by simpa [clashes] using hclash
      have hdollar : k.endsInDollar = true := by simpa [isOpenKeyword, hhgr2] using hopen
      have hfinite : value.isInfinite = false := by
        by_contra hinfinite
        rw [hlisted (by simpa [isUnlistable] using hinfinite)] at hopen
        cases hopen
      exact ⟨hdollar, c, rfl, hstart.digit.2 ⟨value, rfl, hfinite⟩⟩
    | identifier | directive => exact absurd hopen (by simpa [clashes] using hclash)
    | lineEnd | keyword | quoted | comment | punct => cases hlike

theorem endsBefore_comment {k : TokenKind} {text : Text} {c : Char} {r : Text}
    (hstart : (comment text).StartsWith c) (hcomment : ∀ text, k ≠ .comment text)
    (hend : k.endsWithLetter = false) (hclash : k.clashes (.comment text) = false) :
    k.EndsBefore (c :: r) := by
  have hdigit : c.isDigit = false := by
    by_contra hdigit
    obtain ⟨value, hvalue, -⟩ := hstart.digit.1 (by simpa using hdigit)
    cases hvalue
  simp only [clashes, Bool.or_eq_false_iff] at hclash
  obtain ⟨⟨hname, hdirective⟩, hclosed⟩ := hclash
  cases k with
  | lineEnd | quoted | punct => trivial
  | comment text => exact absurd rfl (hcomment text)
  | number => exact ⟨stops_cons.2 hdigit, by simpa using hstart.ne_point⟩
  | identifier name => exact .inl (by simpa [isOpenName] using hname)
  | directive => cases hdirective
  | keyword k =>
    intro hword hmark
    rw [isOpenKeyword_of_needsBlank hword hmark hend] at hclosed
    cases hclosed

/-- Between tokens that do not clash, no text carries on what is before it. -/
theorem endsBefore_listed {k k' : TokenKind} {r : Text} (hcomment : ∀ text, k ≠ .comment text)
    (hwell : k'.WellFormed) (hplain : k'.IsPlain) (hk' : k' ≠ .lineEnd)
    (hclash : k.clashes k' = false) (hmerge : k.merges k' = false)
    (hlisted : k'.isUnlistable = true → k.isOpenKeyword = false) :
    k.EndsBefore ((if k.needsBlank k' then [' '] else []) ++ k'.listed letters ++ r) := by
  obtain ⟨c, rest, htext, hstart⟩ := @exists_startsWith letters k' hwell hplain hk'
  have hcomment' : ∀ text, k = .comment text → ∀ d : Char, d = '\n' := fun text h =>
    absurd h (hcomment text)
  have hparen : k.isOpenName = true → ∀ r', Lexeme.cut (c :: (rest ++ r)) ≠ some (.mark '(', r') := by
    intro hname r'
    apply Lexeme.cut_ne_mark hstart.not_blank
    intro hc
    simp [merges, hname, hstart.paren hc] at hmerge
  rw [htext]
  by_cases hblank : k.needsBlank k' = true
  · have hclass : CharClass.ofChar ' ' = .blank := by decide
    rw [if_pos hblank]
    refine endsBefore_cons (by decide) (by decide) (fun text h => hcomment' text h _)
      fun hname r' => ?_
    rw [Lexeme.cut_blank hclass]
    exact hparen hname r'
  rw [if_neg hblank, List.nil_append, List.cons_append]
  by_cases hword : k'.startsWord = true
  · simp only [needsBlank, Bool.or_eq_true, Bool.and_eq_true, not_or, not_and,
      Bool.not_eq_true] at hblank
    obtain ⟨⟨hend, hletter⟩, hwordLike⟩ := hblank
    rcases wordLike_or_comment hword hletter with hlike | ⟨text, rfl⟩
    · refine endsBefore_wordLike hstart hlike hcomment hend ?_ hclash hlisted
      by_contra hends
      exact absurd (hwordLike (by simpa using hends)) (by simp [hlike])
    · exact endsBefore_comment hstart hcomment hend hclash
  · exact endsBefore_cons (by rw [hstart.inWord]; simpa using hword) hstart.ne_point
      (fun text h => hcomment' text h _) hparen

end TokenKind

end Applesoft
