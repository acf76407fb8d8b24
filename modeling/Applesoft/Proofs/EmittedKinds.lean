import Applesoft.Proofs.ListedTokens

/-!
# Which tokens a text can have

A token is one that some text reads as if and only if it is well formed. The tokens of a text follow on
one another such that a comment stands at the end of its line.
-/
namespace Applesoft

namespace TokenKind

def source : TokenKind → Text
  | .lineEnd => ['\n']
  | .number value => if value.isInfinite then '1' :: List.replicate 309 '0' else value.listingText
  | .keyword k => k.spelling
  | .identifier name | .directive name => name
  | .quoted text => '"' :: (text ++ ['"'])
  -- the comment loses one carriage return at its end
  | .comment text => Keyword.rem.word ++ ' ' :: (text ++ ['\r'])
  | .punct c => [c]

end TokenKind

namespace Lexing

variable {k : TokenKind} {s : Text} {l : Nat}

theorem lex_of_readToken (h : readToken 1 s = .token ⟨1, k⟩ [] l) : lex s = .ok [⟨1, k⟩] := by
  rw [lex_eq_ok_iff, lexFrom_token h, lexFrom_done (readToken_eq l [])]
  rfl

theorem lex_infinity :
    lex (TokenKind.number .infinity).source = .ok [⟨1, .number .infinity⟩] := by
  decide +kernel

theorem lex_number {value : Binary64} (h : (TokenKind.number value).WellFormed) :
    lex (TokenKind.number value).source = .ok [⟨1, .number value⟩] := by
  obtain ⟨hsign, hrank⟩ := h
  by_cases hinf : value.isInfinite = true
  · obtain ⟨negative, rank⟩ := value
    obtain rfl : negative = false := hsign
    obtain rfl : rank = ⟨Binary64.infinityRank, by decide⟩ := by
      simpa [Binary64.isInfinite, Fin.ext_iff] using hinf
    exact lex_infinity
  · have hne : value.rank.val ≠ Binary64.infinityRank := by simpa [Binary64.isInfinite] using hinf
    have hfinite : value.isFinite = true := by
      simpa [Binary64.isFinite] using Nat.lt_of_le_of_ne hrank hne
    have hread := @readToken_number 1 [] value ⟨hsign, hfinite⟩ (stops_nil _) (by simp)
    rw [TokenKind.source, if_neg hinf]
    rw [List.append_nil] at hread
    exact lex_of_readToken hread

theorem lex_keyword {k : Keyword} (hk : k ≠ .rem ∧ k ≠ .question) :
    lex (TokenKind.keyword k).source = .ok [⟨1, .keyword k⟩] := by
  have hend : (TokenKind.keyword k).EndsBefore [] := fun _ _ => .inl (stops_nil _)
  have hread := @readToken_keyword .upper 1 [] k hk hend
  have hword : LetterCase.upper.apply k.word = k.word := k.toUpper_word
  rw [List.append_nil, Keyword.apply_spelling, hword] at hread
  exact lex_of_readToken hread

theorem lex_identifier {name : Text} (h : IsName name ∨ ∃ w, IsName w ∧ name = w ++ ['(']) :
    lex (TokenKind.identifier name).source = .ok [⟨1, .identifier name⟩] := by
  rcases h with hname | ⟨w, hw, rfl⟩
  · have hread := @readToken_name 1 [] name hname (stops_nil _)
    rw [List.append_nil, readIdentifier_of_ne (fun _ hcut => by cases hcut)] at hread
    exact lex_of_readToken hread
  · exact lex_of_readToken (readToken_array hw)

theorem lex_comment {text : Text} (h : '\n' ∉ text) :
    lex (TokenKind.comment text).source = .ok [⟨1, .comment text⟩] := by
  have hfeed : '\n' ∉ text ++ ['\r'] := by simpa using h
  have hread := @readToken_comment .upper 1 [] _ hfeed (stops_nil _)
  have hword : LetterCase.upper.apply Keyword.rem.word = Keyword.rem.word := Keyword.rem.toUpper_word
  rw [TokenKind.listed_comment, hword, if_neg (by simp), if_pos (by simp), List.dropLast_concat,
    List.append_nil] at hread
  exact lex_of_readToken hread

theorem lex_punct {c : Char} (h : c ∈ ['(', ')', ',', ':', '#', ';']) :
    lex (TokenKind.punct c).source = .ok [⟨1, .punct c⟩] :=
  lex_of_readToken (@readToken_listed .upper 1 [] (.punct c) h trivial rfl (by simp) trivial)

theorem lex_source {k : TokenKind} (h : k.WellFormed) : lex k.source = .ok [⟨1, k⟩] := by
  cases k with
  | lineEnd => exact lex_of_readToken (readToken_lineFeed 1 [])
  | number value => exact lex_number h
  | keyword k => exact lex_keyword h
  | identifier name => exact lex_identifier h
  | quoted text => exact lex_of_readToken (readToken_quoted h)
  | directive name =>
    have hread := @readToken_directive 1 [] name h.1 h.2 (stops_nil _)
    rw [List.append_nil] at hread
    exact lex_of_readToken hread
  | comment text => exact lex_comment h
  | punct c => exact lex_punct h

end Lexing

/-- The tokens of a text are well formed, with nothing but a line end after a comment, and every
well-formed token has a text. -/
theorem lex_tokens_wellFormed :
    (∀ s ts, lex s = .ok ts →
      (∀ t ∈ ts, t.kind.WellFormed) ∧ (ts.map Token.kind).IsChain TokenKind.EndsLine) ∧
    ∀ k : TokenKind, k.WellFormed → lex k.source = .ok [⟨1, k⟩] := by
  refine ⟨fun s ts hlex => ?_, fun k hk => Lexing.lex_source hk⟩
  have hsound := Lexing.lexFrom_sound 1 s
  have hchain := Lexing.lexFrom_comments 1 s
  rw [lex_eq_ok_iff.1 hlex] at hsound hchain
  exact ⟨fun t ht => (hsound t ht).1, hchain⟩

/-- A keyword in front of digits, the alias, an array after a blank, a directive and a comment. -/
theorem lex_tokens_wellFormed_line :
    let s := "FOR1=N% TO5:?A (\r\n$D:REM x\r".toList
    let ts := [⟨1, .keyword .forLoop⟩, ⟨1, .number (.ofNat 1)⟩, ⟨1, .keyword .equal⟩,
      ⟨1, .identifier "N%".toList⟩, ⟨1, .keyword .to⟩, ⟨1, .number (.ofNat 5)⟩, ⟨1, .punct ':'⟩,
      ⟨1, .keyword .print⟩, ⟨1, .identifier "A(".toList⟩, ⟨1, .lineEnd⟩,
      ⟨2, .directive "$D".toList⟩, ⟨2, .punct ':'⟩, ⟨2, .comment "x".toList⟩]
    (lex s = .ok ts ∧ (∀ t ∈ ts, t.kind.WellFormed) ∧
      (ts.map Token.kind).IsChain TokenKind.EndsLine) ∧
    (TokenKind.comment "x\r".toList).WellFormed ∧
      lex "REM x\r\r".toList = .ok [⟨1, .comment "x\r".toList⟩] := by
  intro s ts
  have hlex : lex s = .ok ts := by decide +kernel
  have hcomment : (TokenKind.comment "x\r".toList).WellFormed := by
    show '\n' ∉ "x\r".toList
    decide
  exact ⟨⟨hlex, lex_tokens_wellFormed.1 s ts hlex⟩, hcomment,
    lex_tokens_wellFormed.2 (.comment "x\r".toList) hcomment⟩

end Applesoft
