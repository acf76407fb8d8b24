import Applesoft.Listing
import Applesoft.Proofs.EmittedTokens

/-!
# Listed tokens read back

The text of a token in a listing reads as that token, up to the letter case of names, if the text
after it does not carry it on.
-/
namespace Applesoft

variable {letters : LetterCase} {line : Nat} {r : Text}

theorem IsName.getLast?_ne {w : Text} (h : IsName w) : w.getLast? ≠ some '(' := by
  intro hlast
  have hparen := h.inWord '(' (List.mem_of_getLast? hlast)
  revert hparen
  decide

theorem IsName.apply {w : Text} (h : IsName w) (hplain : ∀ c ∈ w, IsPlain c) :
    IsName (letters.apply w) where
  ne_nil := fun hnil => h.ne_nil ((letters.apply_eq_nil hplain).1 hnil)
  inWord d hd := by
    obtain ⟨c, hc, hd⟩ := (letters.mem_apply hplain).1 hd
    exact letters.inWord_ofChar (hplain c hc) (h.inWord c hc) d hd
  head_digit d hd := by
    obtain ⟨c, hc, hd⟩ := letters.head_apply hplain d hd
    rw [letters.isDigit_ofChar (hplain c (List.mem_of_mem_head? hc)) d hd, h.head_digit c hc]
  head_dollar hdollar := by
    obtain ⟨c, hc, hd⟩ := letters.head_apply hplain '$' hdollar
    refine letters.ne_dollar_ofChar (hplain c (List.mem_of_mem_head? hc)) ?_ '$' hd rfl
    rintro rfl
    exact h.head_dollar hc
  noKeyword := by
    rw [Keyword.ofWord?_congr (letters.toUpper_apply hplain), h.noKeyword]
  noKeywordBeforeDigits := by
    rw [letters.takeWhile_apply hplain, ← h.noKeywordBeforeDigits]
    exact Keyword.ofWord?_congr
      (letters.toUpper_apply fun c hc => hplain c (List.takeWhile_subset _ hc))

theorem Keyword.cut_apply_word {k : Keyword} (hword : k.isWord = true)
    (hr : Stops inWord r ∨ k.endsInDollar = true ∧ ∃ c ∈ r.head?, c.isDigit = true) :
    Lexeme.cut (letters.apply k.word ++ r) = some (.word (letters.apply k.word), r) := by
  have hne := apply_word_ne_nil letters hword
  have hall := inWord_apply_word letters hword
  have hdigit : ∀ c ∈ (letters.apply k.word).head?, c.isDigit = false := fun c hc =>
    (head_apply_word letters hword c hc).1
  have hsome : (ofWord? (letters.apply k.word)).isSome := by rw [ofWord?_apply_word]; rfl
  rcases hr with hr | ⟨hdollar, c, hc, hcdigit⟩
  · exact Lexeme.cut_word hne hall hdigit (Lexeme.splitWord_keyword hsome) hr
  · -- the keyword ends before the digits, since no keyword goes on after a `$`
    have hk : k ≠ .hgr2 := by rintro rfl; revert hdollar; decide
    obtain ⟨rest, rfl⟩ : ∃ rest, r = c :: rest := List.head?_eq_some_iff.1 hc
    have hdigits : (c :: rest).takeWhile inWord = c :: rest.takeWhile inWord :=
      List.takeWhile_cons_of_pos (inWord_of_isDigit hcdigit)
    rw [Lexeme.cut_run hne hall hdigit, hdigits,
      Lexeme.splitWord_digits (ofWord?_apply_word_append letters (.inr hdollar) (by simp))
        (isDigit_apply_word letters hk) ⟨c, rfl, hcdigit⟩ hsome, ← hdigits,
      List.takeWhile_append_dropWhile]

namespace Lexing

theorem readToken_name {w : Text} (h : IsName w) (hr : Stops inWord r) :
    readToken line (w ++ r) = readIdentifier line w r := by
  have hcut := Lexeme.cut_word h.ne_nil h.inWord h.head_digit
    (Lexeme.splitWord_name h.noKeywordBeforeDigits) hr
  rw [readToken_word hcut, readWord, h.noKeyword]
  exact if_neg h.head_dollar

theorem readToken_directive {name : Text} (hhead : name.head? = some '$')
    (hword : ∀ c ∈ name, inWord c = true) (hr : Stops inWord r) :
    readToken line (name ++ r) = .token ⟨line, .directive name⟩ r line := by
  have hne : name ≠ [] := by rintro rfl; cases hhead
  have hdigit : ∀ c ∈ name.head?, c.isDigit = false := by
    rw [hhead]; rintro c ⟨⟩; rfl
  have hhead' : (name.takeWhile (!·.isDigit)).head? = some '$' := by
    cases name with
    | nil => cases hhead
    | cons c rest =>
      obtain rfl := Option.some.inj hhead
      rfl
  have hcut := Lexeme.cut_word hne hword hdigit
    (Lexeme.splitWord_name (Keyword.ofWord?_of_head_dollar hhead')) hr
  rw [readToken_word hcut, readWord, Keyword.ofWord?_of_head_dollar hhead]
  exact if_pos hhead

theorem readToken_number {value : Binary64} (h : value.IsListable) (hr : Stops Char.isDigit r)
    (hpoint : r.head? ≠ some '.') :
    readToken line (value.listingText ++ r) = .token ⟨line, .number value⟩ r line := by
  obtain ⟨c, hc, hdigit⟩ := Binary64.isDigit_head_listingText h
  have hcut : Lexeme.cut (value.listingText ++ r) = some (.number value, r) := by
    rw [← Binary64.cutNumber_listingText h hr hpoint]
    cases htext : value.listingText with
    | nil => rw [htext] at hc; cases hc
    | cons d rest =>
      rw [htext] at hc
      obtain rfl := Option.some.inj hc
      exact Lexeme.cut_numeric (ofChar_of_isDigit hdigit)
  rw [readToken_eq, hcut, readLexeme]

theorem readToken_quoted {text : Text} (h : ∀ c ∈ text, Lexeme.inQuotes c = true) :
    readToken line ('"' :: (text ++ '"' :: r)) = .token ⟨line, .quoted text⟩ r line := by
  rw [readToken_eq, Lexeme.cut_quoted h, readLexeme]

theorem commentBody_space {text : Text} (htext : '\n' ∉ text) (hr : Stops (· != '\n') r) :
    commentBody (' ' :: (text ++ r)) =
      (if text.getLast? = some '\r' then text.dropLast else text, r) := by
  have hall : ∀ c ∈ text, (c != '\n') = true := fun c hc => by
    rw [bne_iff_ne]
    rintro rfl
    exact htext hc
  simp only [commentBody, takeWhile_append_of_stops hall hr, dropWhile_append_of_stops hall hr]

theorem commentBody_empty (hr : Stops (· != '\n') r) : commentBody r = ([], r) := by
  have htake := takeWhile_of_stops hr
  have hdrop := dropWhile_of_stops hr
  cases r with
  | nil => rfl
  | cons c rest =>
    obtain rfl : c = '\n' := by simpa using stops_cons.1 hr
    simp [commentBody]

theorem readToken_rem (hr : Stops inWord r) :
    readToken line (letters.apply Keyword.rem.word ++ r) =
      .token ⟨line, .comment (commentBody r).1⟩ (commentBody r).2 line := by
  have hword : Keyword.rem.isWord = true := by decide
  rw [readToken_word (Keyword.cut_apply_word hword (.inl hr)), readWord,
    Keyword.ofWord?_apply_word]

end Lexing

namespace TokenKind

theorem listed_comment (text : Text) : (comment text).listed letters =
    letters.apply Keyword.rem.word ++ if text = [] then [] else ' ' :: text := by
  have hspelling : letters.apply Keyword.rem.spelling = letters.apply Keyword.rem.word := by
    rw [Keyword.apply_spelling]
    exact List.append_nil _
  cases text <;> simp [listed, hspelling]

def recased (letters : LetterCase) : TokenKind → TokenKind
  | .identifier name => .identifier (letters.apply name)
  | k => k

def IsPlain : TokenKind → Prop
  | .identifier name => ∀ c ∈ name, Applesoft.IsPlain c
  | _ => True

/-- No listing reads as an infinite number, and none as a comment with a carriage return at its end. -/
def isUnlistable : TokenKind → Bool
  | .number value => value.isInfinite
  | .comment text => text.getLast? == some '\r'
  | _ => false

def EndsBefore (r : Text) : TokenKind → Prop
  | .number _ => Stops Char.isDigit r ∧ r.head? ≠ some '.'
  | .keyword k => k.isWord = true → k.mark? = none →
      Stops inWord r ∨ k.endsInDollar = true ∧ ∃ c ∈ r.head?, c.isDigit = true
  | .identifier name => name.getLast? = some '(' ∨
      Stops inWord r ∧ ∀ r', Lexeme.cut r ≠ some (.mark '(', r')
  | .directive _ => Stops inWord r
  | .comment _ => Stops (· != '\n') r
  | .lineEnd | .quoted _ | .punct _ => True

end TokenKind

namespace Lexing

theorem readToken_keyword {k : Keyword} (hk : k ≠ .rem ∧ k ≠ .question)
    (hr : (TokenKind.keyword k).EndsBefore r) :
    readToken line (letters.apply k.spelling ++ r) = .token ⟨line, .keyword k⟩ r line := by
  by_cases hword : k.isWord = true
  · have hread : ∀ r', readWord line (letters.apply k.word) r' = readKeyword line k r' := by
      intro r'
      rw [readWord, Keyword.ofWord?_apply_word]
      split
      · next h => exact absurd (Option.some.inj h) hk.1
      · next h => rw [Option.some.inj h]
      · next h => cases h
    rw [Keyword.apply_spelling]
    cases hmark : k.mark? with
    | none =>
      rw [Option.toList_none, List.append_nil,
        readToken_word (Keyword.cut_apply_word hword (hr hword hmark)), hread, readKeyword, hmark]
      simp [hk.2]
    | some m =>
      have hm := (Keyword.apply_mark letters (k.spelled.mark m hmark).2).2.2
      have hstop : Stops inWord (m :: r) := stops_cons.2 (by simp [inWord, hm])
      rw [Option.toList_some, List.append_assoc, List.singleton_append,
        readToken_word (Keyword.cut_apply_word hword (.inl hstop)), hread, readKeyword, hmark,
        Lexeme.cut_mark hm]
      simp
  · obtain ⟨c, hspelling, hclass, hc⟩ :=
      Keyword.operator letters (by simpa using hword) hk.2
    rw [hspelling, List.singleton_append, readToken_punctuation hclass, readPunctuation, hc]

theorem readToken_comment {text : Text} (htext : '\n' ∉ text) (hr : Stops (· != '\n') r) :
    readToken line ((TokenKind.comment text).listed letters ++ r) =
      .token ⟨line, .comment (if text.getLast? = some '\r' then text.dropLast else text)⟩ r
        line := by
  rw [TokenKind.listed_comment, List.append_assoc]
  by_cases hempty : text = []
  · have hstop : Stops inWord r := by
      cases r with
      | nil => exact stops_nil _
      | cons c rest =>
        obtain rfl : c = '\n' := by simpa using stops_cons.1 hr
        exact stops_cons.2 (by decide)
    rw [if_pos hempty, List.nil_append, readToken_rem hstop, commentBody_empty hr, hempty]
    rfl
  · have hspace : Stops inWord (' ' :: (text ++ r)) := stops_cons.2 (by decide)
    rw [if_neg hempty, List.cons_append, readToken_rem hspace, commentBody_space htext hr]

theorem readToken_array {w : Text} (h : IsName w) :
    readToken line (w ++ '(' :: r) = .token ⟨line, .identifier (w ++ ['('])⟩ r line := by
  have hclass : CharClass.ofChar '(' = .punctuation := by decide
  rw [readToken_name h (stops_cons.2 (by decide)), readIdentifier, Lexeme.cut_mark hclass]
  rfl

/-- A listed token reads as that token. -/
theorem readToken_listed {k : TokenKind} (hwell : k.WellFormed) (hplain : k.IsPlain)
    (hlisted : k.isUnlistable = false) (hk : k ≠ .lineEnd) (hr : k.EndsBefore r) :
    readToken line (k.listed letters ++ r) = .token ⟨line, k.recased letters⟩ r line := by
  cases k with
  | lineEnd => exact absurd rfl hk
  | number value =>
    have hfinite : value.rank.val < Binary64.infinityRank := by
      refine Nat.lt_of_le_of_ne hwell.2 ?_
      simpa [TokenKind.isUnlistable, Binary64.isInfinite] using hlisted
    exact readToken_number ⟨hwell.1, by simpa [Binary64.isFinite] using hfinite⟩ hr.1 hr.2
  | keyword k => exact readToken_keyword hwell hr
  | identifier name =>
    rcases hwell with hname | ⟨w, hname, rfl⟩
    · obtain ⟨hstop, hparen⟩ := hr.resolve_left hname.getLast?_ne
      rw [TokenKind.listed, TokenKind.recased, readToken_name (hname.apply hplain) hstop,
        readIdentifier]
      split
      · next r' hcut => exact absurd hcut (hparen r')
      · rfl
    · have hparen : ∀ c ∈ ['('], Applesoft.IsPlain c := by decide
      have hw : ∀ c ∈ w, Applesoft.IsPlain c := fun c hc => hplain c (List.mem_append_left _ hc)
      have happly : letters.apply ['('] = ['('] := by cases letters <;> decide
      rw [TokenKind.listed, TokenKind.recased, letters.apply_append hw hparen, happly,
        List.append_assoc]
      exact readToken_array (hname.apply hw)
  | quoted text =>
    simpa [TokenKind.listed, TokenKind.recased] using @readToken_quoted line r text hwell
  | directive name => exact readToken_directive hwell.1 hwell.2 hr
  | comment text =>
    have hlast : text.getLast? ≠ some '\r' := by simpa [TokenKind.isUnlistable] using hlisted
    rw [readToken_comment hwell hr, if_neg hlast]
    rfl
  | punct c =>
    have hmark : ∀ c ∈ ['(', ')', ',', ':', '#', ';'], c ∈ CharClass.punctuationMarks := by decide
    have hclass := (Keyword.apply_mark letters (hmark c hwell)).2.2
    rw [TokenKind.listed, List.singleton_append, readToken_punctuation hclass, readPunctuation,
      (Keyword.ofWord?_mark c (hmark c hwell)).1.2 hwell]
    rfl

end Lexing

end Applesoft
