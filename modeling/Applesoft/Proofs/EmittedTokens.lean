import Mathlib.Data.List.Chain
import Mathlib.Data.List.TakeWhile
import Applesoft.Proofs.NumberText
import Applesoft.Proofs.Reading
import Applesoft.Proofs.Spelling

/-!
# The tokens that are read

Every token that is read is well formed, its text comes from the source, and a comment is followed by
the end of its line.
-/
namespace Applesoft

/-- A name: a run of word characters that names no keyword, not even before its digits. -/
structure IsName (w : Text) : Prop where
  ne_nil : w ≠ []
  inWord : ∀ c ∈ w, Applesoft.inWord c = true
  head_digit : ∀ c ∈ w.head?, c.isDigit = false
  head_dollar : w.head? ≠ some '$'
  noKeyword : Keyword.ofWord? w = none
  noKeywordBeforeDigits : Keyword.ofWord? (w.takeWhile (!·.isDigit)) = none

namespace TokenKind

def WellFormed : TokenKind → Prop
  | .lineEnd => True
  | .number value => value.negative = false ∧ value.rank.val ≤ Binary64.infinityRank
  | .keyword k => k ≠ .rem ∧ k ≠ .question
  | .identifier name => IsName name ∨ ∃ w, IsName w ∧ name = w ++ ['(']
  | .quoted text => ∀ c ∈ text, Lexeme.inQuotes c = true
  | .directive name => name.head? = some '$' ∧ ∀ c ∈ name, inWord c = true
  | .comment text => '\n' ∉ text
  | .punct c => c ∈ ['(', ')', ',', ':', '#', ';']

def payload : TokenKind → Text
  | .identifier text | .quoted text | .directive text | .comment text => text
  | .punct c => [c]
  | .lineEnd | .number _ | .keyword _ => []

/-- After a comment comes the end of its line. -/
def EndsLine (k k' : TokenKind) : Prop := ∀ text, k = .comment text → k' = .lineEnd

end TokenKind

namespace Lexeme

def WellFormed : Lexeme → Prop
  | .lineEnd => True
  | .number value => value.negative = false ∧ value.rank.val ≤ Binary64.infinityRank
  | .word text => text = ['?'] ∨ IsWord text
  | .quoted text => ∀ c ∈ text, inQuotes c = true
  | .mark _ => True

def payload : Lexeme → Text
  | .lineEnd | .number _ => []
  | .word text | .quoted text => text
  | .mark c => [c]

theorem Spelling.wellFormed {x : Lexeme} {piece r : Text} (h : x.Spelling piece r) :
    x.WellFormed := by
  cases h with
  | lineFeed | carriageReturn | returnLineFeed | mark => trivial
  | whole | point => exact Binary64.ofDecimal_isListable_or_infinite _ _
  | question => exact .inl rfl
  | word hword => exact .inr hword
  | quoted htext | unclosed htext => exact htext

theorem Spelling.payload_subset {x : Lexeme} {piece r : Text} (h : x.Spelling piece r) :
    x.payload ⊆ piece := by
  cases h <;> simp [payload]

theorem cut_wellFormed {s r : Text} {x : Lexeme} (h : cut s = some (x, r)) : x.WellFormed := by
  obtain ⟨_, _, _, _, hspelling⟩ := cut_spelling h
  exact hspelling.wellFormed

theorem cut_payload_subset {s r : Text} {x : Lexeme} (h : cut s = some (x, r)) : x.payload ⊆ s := by
  obtain ⟨blanks, piece, rfl, _, hspelling⟩ := cut_spelling h
  exact List.subset_append_of_subset_right _
    (List.subset_append_of_subset_left _ hspelling.payload_subset)

theorem cut_suffix {s r : Text} {x : Lexeme} (h : cut s = some (x, r)) : r <:+ s := by
  obtain ⟨blanks, piece, rfl, _, _⟩ := cut_spelling h
  exact (List.suffix_append piece r).trans (List.suffix_append blanks _)

theorem cut_word_suffix {s word r : Text} (h : cut s = some (.word word, r)) : word ++ r <:+ s := by
  obtain ⟨blanks, piece, rfl, _, hspelling⟩ := cut_spelling h
  cases hspelling <;> exact List.suffix_append blanks _

theorem cut_mark_suffix {s r : Text} {c : Char} (h : cut s = some (.mark c, r)) : c :: r <:+ s := by
  obtain ⟨blanks, piece, rfl, _, hspelling⟩ := cut_spelling h
  cases hspelling
  exact List.suffix_append blanks _

theorem IsWord.isName {w : Text} (h : IsWord w) (hnone : Keyword.ofWord? w = none)
    (hdollar : w.head? ≠ some '$') : IsName w :=
  ⟨h.ne_nil, h.inWord, h.head_digit, hdollar, hnone, h.unsplit hnone⟩

end Lexeme

def Reading.Sound (s : Text) : Reading → Prop
  | .token t r _ => t.kind.WellFormed ∧ t.kind.payload ⊆ s ∧ r <:+ s ∧
      ∀ text, t.kind = .comment text → Stops (· != '\n') r
  | .fault .. | .done _ => True

theorem Reading.Sound.mono {s s' : Text} {r : Reading} (h : r.Sound s) (hs : s <:+ s') :
    r.Sound s' := by
  cases r with
  | token =>
    obtain ⟨hwell, hpayload, hrest, hcomment⟩ := h
    exact ⟨hwell, List.Subset.trans hpayload hs.subset, hrest.trans hs, hcomment⟩
  | fault | done => trivial

namespace Lexing

variable {line : Nat} {word rest : Text}

theorem commentBody_sound (line : Nat) (s : Text) :
    (Reading.token ⟨line, .comment (commentBody s).1⟩ (commentBody s).2 line).Sound s := by
  obtain ⟨space, body, -, rfl, hbody⟩ := exists_commentBody s
  have htext : trimReturn (body.takeWhile (· != '\n')) ⊆ body.takeWhile (· != '\n') :=
    trimReturn_subset _
  have hsuffix : body <:+ space ++ body := List.suffix_append space body
  rw [hbody]
  refine ⟨fun hmem => ?_, ?_, (List.dropWhile_suffix _).trans hsuffix,
    fun _ _ => stops_dropWhile _ body⟩
  · simpa using List.mem_takeWhile_imp (htext hmem)
  · exact List.Subset.trans htext (List.Subset.trans (List.takeWhile_subset _) hsuffix.subset)

theorem readKeyword_sound {k : Keyword} (hk : k ≠ .rem) :
    (readKeyword line k rest).Sound rest := by
  unfold readKeyword
  split
  · refine ⟨?_, List.nil_subset _, List.suffix_refl _, by simp⟩
    split <;> simp_all [TokenKind.WellFormed]
  · next mark hmark =>
    split
    · trivial
    · next x r hcut =>
      split
      · refine ⟨⟨hk, ?_⟩, List.nil_subset _, Lexeme.cut_suffix hcut, by simp⟩
        rintro rfl; cases hmark
      · trivial

theorem readIdentifier_sound (hword : IsName word) :
    (readIdentifier line word rest).Sound (word ++ rest) := by
  have hleft := List.subset_append_left word rest
  have hright := List.suffix_append word rest
  unfold readIdentifier
  split
  · next r hcut =>
    have hpayload := List.Subset.trans (Lexeme.cut_payload_subset hcut) hright.subset
    exact ⟨.inr ⟨word, hword, rfl⟩, List.append_subset.2 ⟨hleft, hpayload⟩,
      (Lexeme.cut_suffix hcut).trans hright, by simp⟩
  · exact ⟨.inl hword, hleft, hright, by simp⟩

theorem readWord_sound (hword : (Lexeme.word word).WellFormed) :
    (readWord line word rest).Sound (word ++ rest) := by
  have hright := List.suffix_append word rest
  unfold readWord
  split
  · exact (commentBody_sound line rest).mono hright
  · next k hrem hsome => exact (readKeyword_sound (by simpa using hrem)).mono hright
  · next hnone =>
    have hisWord : Lexeme.IsWord word := by
      refine hword.resolve_left ?_
      rintro rfl
      exact absurd hnone (by decide)
    split
    · next hdollar =>
      exact ⟨⟨hdollar, hisWord.inWord⟩, List.subset_append_left _ _, hright, by simp⟩
    · next hdollar => exact readIdentifier_sound (hisWord.isName hnone hdollar)

theorem readPunctuation_sound {c : Char} (hc : CharClass.ofChar c = .punctuation) :
    (readPunctuation line c rest).Sound (c :: rest) := by
  obtain ⟨hnone, hsome⟩ := Keyword.ofWord?_mark c (CharClass.mem_of_ofChar_punctuation hc)
  unfold readPunctuation
  split
  · next k hk => exact ⟨hsome k hk, List.nil_subset _, List.suffix_cons _ _, by simp⟩
  · next hk =>
    exact ⟨hnone.1 hk, by simp [TokenKind.payload], List.suffix_cons _ _, by simp⟩

theorem readToken_sound (line : Nat) (s : Text) : (readToken line s).Sound s := by
  fun_induction readToken line s with
  | case1 | case7 | case8 | case10 => trivial
  | case2 line s r h => exact ⟨trivial, List.nil_subset _, Lexeme.cut_suffix h, by simp⟩
  | case3 line s value r h =>
    exact ⟨Lexeme.cut_wellFormed h, List.nil_subset _, Lexeme.cut_suffix h, by simp⟩
  | case4 line s text r h =>
    exact ⟨Lexeme.cut_wellFormed h, Lexeme.cut_payload_subset h, Lexeme.cut_suffix h, by simp⟩
  | case5 line s word r h =>
    exact (readWord_sound (Lexeme.cut_wellFormed h)).mono (Lexeme.cut_word_suffix h)
  | case6 line s c r h _ r' h' ih =>
    exact ih.mono ((Lexeme.cut_suffix h').trans (Lexeme.cut_suffix h))
  | case9 line s c r h hc => exact (readPunctuation_sound hc).mono (Lexeme.cut_mark_suffix h)

theorem readToken_suffix {line l : Nat} {s r : Text} {t : Token}
    (h : readToken line s = .token t r l) : r <:+ s := by
  have hsound := readToken_sound line s
  rw [h] at hsound
  exact hsound.2.2.1

theorem Reads.suffix {line l : Nat} {s r : Text} {ts : List Token} (h : Reads line s ts l r) :
    r <:+ s := by
  induction h with
  | nil => exact List.suffix_refl _
  | cons hread _ ih => exact ih.trans (readToken_suffix hread)

theorem lexFrom_sound (line : Nat) (s : Text) :
    ∀ t ∈ (lexFrom line s).tokens, t.kind.WellFormed ∧ t.kind.payload ⊆ s := by
  fun_induction lexFrom line s with
  | case1 | case2 => simp
  | case3 line s t r l hread more ih =>
    have hsound := readToken_sound line s
    rw [hread] at hsound
    rw [List.forall_mem_cons]
    refine ⟨⟨hsound.1, hsound.2.1⟩, fun t' ht' => ?_⟩
    obtain ⟨hwell, hpayload⟩ := ih t' ht'
    exact ⟨hwell, List.Subset.trans hpayload hsound.2.2.1.subset⟩

/-- After text that stops at a line feed only a line end can be read. -/
theorem lexFrom_head_of_stops {line : Nat} {r : Text} (h : Stops (· != '\n') r) :
    ∀ t ∈ (lexFrom line r).tokens.head?, t.isLineEnd = true := by
  cases r with
  | nil => rw [lexFrom_done (readToken_eq line [])]; simp
  | cons c r =>
    obtain rfl : c = '\n' := by simpa using stops_cons.1 h
    rw [lexFrom_token (readToken_lineFeed line r)]
    simp [Lexed.after, Token.isLineEnd]

theorem lexFrom_comments (line : Nat) (s : Text) :
    ((lexFrom line s).tokens.map Token.kind).IsChain TokenKind.EndsLine := by
  fun_induction lexFrom line s with
  | case1 | case2 => exact .nil
  | case3 line s t r l hread more ih =>
    have hsound := readToken_sound line s
    rw [hread] at hsound
    refine ih.cons fun k hk text htext => ?_
    rw [List.head?_map, Option.mem_def, Option.map_eq_some_iff] at hk
    obtain ⟨t', ht', rfl⟩ := hk
    simpa [Token.isLineEnd] using lexFrom_head_of_stops (hsound.2.2.2 text htext) t' ht'

end Lexing

end Applesoft
