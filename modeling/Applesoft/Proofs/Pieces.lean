import Applesoft.Proofs.EmittedTokens

/-!
# Source text cut into pieces

Where a text is read without a fault, it falls into consecutive pieces: blanks, continuations, and one
piece for each token that spells it. The line of a token follows from the line feeds before its piece,
and every line feed that is in no continuation spells a line end.
-/
namespace Applesoft

namespace TokenKind

/-- How a token is spelled, where the text `r` follows. -/
inductive Spelling : TokenKind → Text → Text → Prop
  | lineEnd {piece r : Text} : Lexeme.lineEnd.Spelling piece r → Spelling .lineEnd piece r
  | number {value : Binary64} {piece r : Text} : (Lexeme.number value).Spelling piece r →
      Spelling (.number value) piece r
  | quoted {text piece r : Text} : (Lexeme.quoted text).Spelling piece r →
      Spelling (.quoted text) piece r
  | keyword {k : Keyword} {word blanks r : Text} : word.toUpper = k.word →
      (∀ c ∈ blanks, IsBlank c) → (k.mark? = none → blanks = []) →
      Spelling (.keyword k) (word ++ (blanks ++ k.mark?.toList)) r
  | question {r : Text} : Spelling (.keyword .print) ['?'] r
  | identifier {name r : Text} : IsName name → Spelling (.identifier name) name r
  | array {name blanks r : Text} : IsName name → (∀ c ∈ blanks, IsBlank c) →
      Spelling (.identifier (name ++ ['('])) (name ++ (blanks ++ ['('])) r
  | directive {name r : Text} : name.head? = some '$' → (∀ c ∈ name, inWord c = true) →
      Spelling (.directive name) name r
  | comment {word space text r : Text} : word.map Char.toUpper = ['R', 'E', 'M'] →
      space = [] ∨ space = [' '] → '\n' ∉ text → (∀ c ∈ r.head?, c = '\n') →
      Spelling (.comment text) (word ++ (space ++ text)) r
  | punct {c : Char} {r : Text} : c ∈ ['(', ')', ',', ':', '#', ';'] → Spelling (.punct c) [c] r

end TokenKind

theorem lineFeed_not_mem_of_forall {p : Char → Prop} {t : Text} (h : ∀ c ∈ t, p c) (hfeed : ¬ p '\n') :
    '\n' ∉ t := fun hmem => hfeed (h _ hmem)

theorem Keyword.lineFeed_not_mem {word : Text} {k : Keyword} (h : word.toUpper = k.word) :
    '\n' ∉ word := by
  intro hmem
  refine lineFeed_not_mem_word k ?_
  rw [← h]
  exact List.mem_flatMap.2 ⟨'\n', hmem, by decide⟩

namespace TokenKind

theorem Spelling.lineFeed_not_mem {k : TokenKind} {piece r : Text} (h : k.Spelling piece r)
    (hk : k ≠ .lineEnd) : '\n' ∉ piece := by
  cases h with
  | lineEnd => exact absurd rfl hk
  | number h =>
    cases h with
    | whole _ hw => exact lineFeed_not_mem_of_forall hw (by decide)
    | point hw hfraction =>
      have hwhole := lineFeed_not_mem_of_forall hw (by decide)
      have hfraction := lineFeed_not_mem_of_forall hfraction (by decide)
      simp [hwhole, hfraction]
  | quoted h =>
    cases h with
    | quoted htext | unclosed htext =>
      have htext := lineFeed_not_mem_of_forall htext (by decide)
      simp [htext]
  | @keyword k word blanks r hword hblanks _ =>
    have hblanks := lineFeed_not_mem_of_forall hblanks (by decide)
    have hmark : '\n' ∉ k.mark?.toList := by
      intro hmem
      have := (k.spelled.mark _ (Option.mem_toList.1 hmem)).2
      exact absurd this (by decide)
    simp [Keyword.lineFeed_not_mem hword, hblanks, hmark]
  | question => decide
  | identifier hname => exact lineFeed_not_mem_of_forall hname.inWord (by decide)
  | array hname hblanks =>
    have hname := lineFeed_not_mem_of_forall hname.inWord (by decide)
    have hblanks := lineFeed_not_mem_of_forall hblanks (by decide)
    simp [hname, hblanks]
  | directive _ hname => exact lineFeed_not_mem_of_forall hname (by decide)
  | @comment word space text r hrem hspace htext _ =>
    have hword : '\n' ∉ word := by
      intro hmem
      have := List.mem_map_of_mem (f := Char.toUpper) hmem
      rw [hrem] at this
      exact absurd this (by decide)
    rcases hspace with rfl | rfl <;> simp [hword, htext]
  | punct hc => exact lineFeed_not_mem_of_forall (List.forall_mem_singleton.2 hc) (by decide)

theorem Spelling.count_lineFeed {k : TokenKind} {piece r : Text} (h : k.Spelling piece r)
    (hreturn : '\r' ∉ piece) : piece.count '\n' = if k = .lineEnd then 1 else 0 := by
  by_cases hk : k = .lineEnd
  · subst hk
    cases h with
    | lineEnd h =>
      cases h with
      | lineFeed => rfl
      | carriageReturn | returnLineFeed => simp at hreturn
  · rw [if_neg hk, List.count_eq_zero]
    exact h.lineFeed_not_mem hk

end TokenKind

def Reading.Spelled (line : Nat) (s : Text) : Reading → Prop
  | .token t r l => ∃ gap piece, Gap gap ∧ s = gap ++ (piece ++ r) ∧ t.kind.Spelling piece r ∧
      t.line = line + gap.count '\n' ∧ l = t.line + piece.count '\n'
  | .done l => Gap s ∧ l = line + s.count '\n'
  | .fault .. => True

theorem Reading.Spelled.prepend {gap s : Text} {line : Nat} {x : Reading}
    (h : x.Spelled (line + gap.count '\n') s) (hgap : ∀ {s}, Gap s → Gap (gap ++ s)) :
    x.Spelled line (gap ++ s) := by
  cases x with
  | token t r l =>
    obtain ⟨gap', piece, hgap', rfl, hspelling, hline, hl⟩ := h
    refine ⟨gap ++ gap', piece, hgap hgap', by simp, hspelling, ?_, hl⟩
    rw [List.count_append]
    omega
  | done l =>
    refine ⟨hgap h.1, ?_⟩
    rw [List.count_append]
    have := h.2
    omega
  | fault => trivial

def Reading.Completes (line : Nat) (word rest : Text) : Reading → Prop
  | .token t r l => t.line = line ∧ l = line ∧ t.kind ≠ .lineEnd ∧
      ∃ more, rest = more ++ r ∧ t.kind.Spelling (word ++ more) r
  | .fault .. => True
  | .done _ => False

namespace Lexing

variable {line : Nat} {word rest : Text}

theorem completes_of_word {k : TokenKind} (hk : k ≠ .lineEnd) (h : k.Spelling word rest) :
    (Reading.token ⟨line, k⟩ rest line).Completes line word rest :=
  ⟨rfl, rfl, hk, [], rfl, by rwa [List.append_nil]⟩

theorem spelling_keyword {k : Keyword} (hword : Keyword.ofWord? word = some k)
    (hmark : k.mark? = none) : (TokenKind.keyword k).Spelling word rest := by
  have h := TokenKind.Spelling.keyword (r := rest) (Keyword.ofWord?_eq_some_iff.1 hword)
    (List.forall_mem_nil _) fun _ => rfl
  rwa [hmark, Option.toList_none, List.append_nil, List.append_nil] at h

theorem readKeyword_completes {k : Keyword} (hword : Keyword.ofWord? word = some k) :
    (readKeyword line k rest).Completes line word rest := by
  unfold readKeyword
  cases hmark : k.mark? with
  | none =>
    apply completes_of_word (by simp)
    by_cases hquestion : k = .question
    · subst hquestion
      obtain rfl := Keyword.eq_of_question hword
      exact .question
    · rw [if_neg hquestion]
      exact spelling_keyword hword hmark
  | some mark =>
    cases hcut : Lexeme.cut rest with
    | none => trivial
    | some p =>
      obtain ⟨x, r⟩ := p
      by_cases hx : x = .mark mark
      · obtain ⟨blanks, piece, rfl, hblanks, hspelling⟩ := Lexeme.cut_spelling hcut
        subst hx
        cases hspelling
        simp only [if_true]
        refine ⟨rfl, rfl, by simp, blanks ++ [mark], by simp, ?_⟩
        have h := TokenKind.Spelling.keyword (r := r) (Keyword.ofWord?_eq_some_iff.1 hword) hblanks
          (by simp [hmark])
        rwa [hmark, Option.toList_some] at h
      · simp only [if_neg hx]
        trivial

theorem readIdentifier_completes (hword : IsName word) :
    (readIdentifier line word rest).Completes line word rest := by
  unfold readIdentifier
  split
  · next r hcut =>
    obtain ⟨blanks, piece, rfl, hblanks, hspelling⟩ := Lexeme.cut_spelling hcut
    cases hspelling
    exact ⟨rfl, rfl, by simp, blanks ++ ['('], by simp, .array hword hblanks⟩
  · exact completes_of_word (by simp) (.identifier hword)

theorem commentBody_completes (hword : Keyword.ofWord? word = some .rem) (hreturn : '\r' ∉ rest) :
    (Reading.token ⟨line, .comment (commentBody rest).1⟩ (commentBody rest).2 line).Completes
      line word rest := by
  obtain ⟨space, body, hspace, rfl, hbody⟩ := exists_commentBody rest
  have hend : ∀ c ∈ (body.dropWhile (· != '\n')).head?, c = '\n' := fun c hc => by
    simpa using stops_dropWhile (· != '\n') body c hc
  have hfeed : '\n' ∉ body.takeWhile (· != '\n') := fun hmem => by
    simpa using List.mem_takeWhile_imp hmem
  have htrim : '\r' ∉ body.takeWhile (· != '\n') := fun hmem =>
    hreturn (List.mem_append_right _ (List.takeWhile_subset _ hmem))
  rw [hbody, trimReturn_of_not_mem htrim]
  refine ⟨rfl, rfl, by simp, space ++ body.takeWhile (· != '\n'), ?_,
    .comment (Keyword.map_toUpper_of_rem hword) hspace hfeed hend⟩
  rw [List.append_assoc, List.takeWhile_append_dropWhile]

theorem readWord_completes (hword : (Lexeme.word word).WellFormed) (hreturn : '\r' ∉ rest) :
    (readWord line word rest).Completes line word rest := by
  unfold readWord
  split
  · next hrem => exact commentBody_completes hrem hreturn
  · next k _ hsome => exact readKeyword_completes hsome
  · next hnone =>
    have hisWord : Lexeme.IsWord word := by
      refine hword.resolve_left ?_
      rintro rfl
      exact absurd hnone (by decide)
    split
    · next hdollar => exact completes_of_word (by simp) (.directive hdollar hisWord.inWord)
    · next hdollar => exact readIdentifier_completes (hisWord.isName hnone hdollar)

theorem readPunctuation_completes {c : Char} (hc : CharClass.ofChar c = .punctuation) :
    (readPunctuation line c rest).Completes line [c] rest := by
  have hmem := CharClass.mem_of_ofChar_punctuation hc
  unfold readPunctuation
  split
  · next k hsome =>
    have hmark := Keyword.mark?_of_ofWord?_mark hmem hsome
    exact completes_of_word (by simp) (spelling_keyword hsome hmark)
  · next hnone =>
    exact completes_of_word (by simp) (.punct ((Keyword.ofWord?_mark c hmem).1.1 hnone))

theorem spelled_of_cut (line : Nat) {s r r' : Text} {x : Lexeme} {k : TokenKind} (hreturn : '\r' ∉ s)
    (hcut : Lexeme.cut s = some (x, r))
    (hspelling : ∀ piece, x.Spelling piece r →
      ∃ more, r = more ++ r' ∧ k.Spelling (piece ++ more) r') :
    (Reading.token ⟨line, k⟩ r' (line + if k = .lineEnd then 1 else 0)).Spelled line s := by
  obtain ⟨blanks, piece, rfl, hblanks, hlexeme⟩ := Lexeme.cut_spelling hcut
  obtain ⟨more, rfl, hk⟩ := hspelling piece hlexeme
  have hpiece : '\r' ∉ piece ++ more := fun hmem => hreturn (by
    rw [← List.append_assoc piece]
    exact List.mem_append_right _ (List.mem_append_left _ hmem))
  refine ⟨blanks, piece ++ more, .of_blanks hblanks, by simp, hk, ?_, ?_⟩
  · rw [count_blanks hblanks, Nat.add_zero]
  · rw [hk.count_lineFeed hpiece]

theorem spelled_of_completes {s r word : Text} {x : Lexeme} {y : Reading} (hreturn : '\r' ∉ s)
    (hcut : Lexeme.cut s = some (x, r)) (hword : ∀ piece, x.Spelling piece r → piece = word)
    (h : y.Completes line word r) : y.Spelled line s := by
  cases y with
  | token t r' l =>
    obtain ⟨rfl, rfl, hk, more, hr, hspelling⟩ := h
    have hspelled := spelled_of_cut t.line (k := t.kind) hreturn hcut fun piece hpiece =>
      ⟨more, hr, by rwa [hword piece hpiece]⟩
    rwa [if_neg hk] at hspelled
  | fault => trivial
  | done => exact h.elim

theorem not_mem_of_cut {s r : Text} {x : Lexeme} {c : Char} (h : c ∉ s)
    (hcut : Lexeme.cut s = some (x, r)) : c ∉ r :=
  fun hmem => h ((Lexeme.cut_suffix hcut).subset hmem)

/-- A backslash and the line end after it are a gap. -/
theorem gap_of_cut {s r r' : Text} (hreturn : '\r' ∉ s) (hcut : Lexeme.cut s = some (.mark '\\', r))
    (hend : Lexeme.cut r = some (.lineEnd, r')) :
    ∃ gap, s = gap ++ r' ∧ gap.count '\n' = 1 ∧ ∀ {t}, Gap t → Gap (gap ++ t) := by
  obtain ⟨blanks, piece, rfl, hblanks, hmark⟩ := Lexeme.cut_spelling hcut
  obtain ⟨blanks', piece', rfl, hblanks', hlineEnd⟩ := Lexeme.cut_spelling hend
  cases hmark
  cases hlineEnd with
  | lineFeed =>
    refine ⟨blanks ++ '\\' :: (blanks' ++ ['\n']), by simp, ?_, fun hgap => ?_⟩
    · simp [count_blanks hblanks, count_blanks hblanks']
    · simpa using Gap.append_blanks hblanks (.continuation hblanks' hgap)
  | carriageReturn | returnLineFeed => simp at hreturn

/-- What is read off a text without carriage returns is a gap and a spelled token. -/
theorem readToken_spelled (line : Nat) {s : Text} (hreturn : '\r' ∉ s) :
    (readToken line s).Spelled line s := by
  fun_induction readToken line s with
  | case1 line s hcut =>
    have hblanks := Lexeme.cut_eq_none_iff.1 hcut
    exact ⟨.of_blanks hblanks, by rw [count_blanks hblanks, Nat.add_zero]⟩
  | case2 line s r hcut =>
    exact spelled_of_cut line (k := .lineEnd) hreturn hcut fun piece h =>
      ⟨[], rfl, by rw [List.append_nil]; exact .lineEnd h⟩
  | case3 line s value r hcut =>
    exact spelled_of_cut line (k := .number value) hreturn hcut fun piece h =>
      ⟨[], rfl, by rw [List.append_nil]; exact .number h⟩
  | case4 line s text r hcut =>
    exact spelled_of_cut line (k := .quoted text) hreturn hcut fun piece h =>
      ⟨[], rfl, by rw [List.append_nil]; exact .quoted h⟩
  | case5 line s word r hcut =>
    exact spelled_of_completes hreturn hcut (fun piece h => by cases h <;> rfl)
      (readWord_completes (Lexeme.cut_wellFormed hcut) (not_mem_of_cut hreturn hcut))
  | case6 line s c r hcut hc r' hend ih =>
    obtain rfl : c = '\\' := by
      simp only [CharClass.ofChar] at hc
      repeat' split at hc
      all_goals simp_all
    obtain ⟨gap, rfl, hcount, hgap⟩ := gap_of_cut hreturn hcut hend
    refine Reading.Spelled.prepend ?_ hgap
    rw [hcount]
    exact ih fun hmem => hreturn (List.mem_append_right _ hmem)
  | case7 | case8 | case10 => trivial
  | case9 line s c r hcut hc =>
    exact spelled_of_completes hreturn hcut (fun piece h => by cases h; rfl)
      (readPunctuation_completes hc)

end Lexing

inductive Piece
  | blank (c : Char)
  /-- A backslash, blanks and a line feed. -/
  | continuation (blanks : Text)
  | token (t : Token) (spelling : Text)
  deriving DecidableEq, Repr

namespace Piece

def text : Piece → Text
  | .blank c => [c]
  | .continuation blanks => '\\' :: (blanks ++ ['\n'])
  | .token _ spelling => spelling

def token? : Piece → Option Token
  | .token t _ => some t
  | .blank _ | .continuation _ => none

def isContinuation : Piece → Bool
  | .continuation _ => true
  | .blank _ | .token .. => false

/-- What is asked of a piece between the texts `before` and `after`. -/
def Fits (before after : Text) : Piece → Prop
  | .blank c => IsBlank c
  | .continuation blanks => ∀ c ∈ blanks, IsBlank c
  | .token t spelling => t.kind.Spelling spelling after ∧ t.line = 1 + before.count '\n'

def FitFrom (before : Text) : List Piece → Prop
  | [] => True
  | p :: rest => p.Fits before (rest.flatMap text) ∧ FitFrom (before ++ p.text) rest

theorem FitFrom.fits {start : Text} {pieces : List Piece} (h : FitFrom start pieces)
    {before after : List Piece} {p : Piece} (hsplit : pieces = before ++ p :: after) :
    p.Fits (start ++ before.flatMap text) (after.flatMap text) := by
  induction before generalizing start pieces with
  | nil =>
    subst hsplit
    simpa using h.1
  | cons q before ih =>
    subst hsplit
    have := ih h.2 rfl
    rwa [List.append_assoc, ← List.flatMap_cons] at this

theorem exists_of_gap {gap : Text} (hgap : Gap gap) (start : Text) :
    ∃ trivia : List Piece, trivia.flatMap text = gap ∧ trivia.filterMap token? = [] ∧
      trivia.countP isContinuation = gap.count '\n' ∧
      ∀ rest, FitFrom (start ++ gap) rest → FitFrom start (trivia ++ rest) := by
  induction hgap generalizing start with
  | nil => exact ⟨[], rfl, rfl, rfl, fun _ h => by simpa using h⟩
  | @blank c s hc _ ih =>
    obtain ⟨trivia, htext, htokens, hcount, hfit⟩ := ih (start ++ [c])
    refine ⟨.blank c :: trivia, ?_, ?_, ?_, fun _ h => ⟨hc, hfit _ (by simpa using h)⟩⟩
    · rw [List.flatMap_cons, htext]
      rfl
    · rw [List.filterMap_cons_none rfl, htokens]
    · rw [List.countP_cons_of_neg (by simp [isContinuation]), List.count_cons_of_ne hc.2.1, hcount]
  | @continuation blanks s hblanks _ ih =>
    obtain ⟨trivia, htext, htokens, hcount, hfit⟩ :=
      ih (start ++ (Piece.continuation blanks).text)
    refine ⟨.continuation blanks :: trivia, ?_, ?_, ?_, fun _ h =>
      ⟨hblanks, hfit _ (by simpa [text] using h)⟩⟩
    · simp [text, htext]
    · rw [List.filterMap_cons_none rfl, htokens]
    · rw [List.countP_cons_of_pos rfl, hcount]
      simp [count_blanks hblanks]

end Piece

open Piece in
/-- The pieces of a text that is read to its end, where `start` stands before it. -/
theorem Lexing.Reads.exists_pieces {line l l' : Nat} {s r : Text} {tokens : List Token}
    (start : Text) (h : Reads line s tokens l r) (hdone : readToken l r = .done l') (hreturn : '\r' ∉ s)
    (hline : line = 1 + start.count '\n') :
    ∃ pieces : List Piece, pieces.flatMap Piece.text = s ∧ pieces.filterMap Piece.token? = tokens ∧
      FitFrom start pieces ∧
      s.count '\n' = tokens.countP Token.isLineEnd + pieces.countP Piece.isContinuation := by
  induction h generalizing start with
  | @nil line s =>
    have hspelled := readToken_spelled line hreturn
    rw [hdone] at hspelled
    obtain ⟨trivia, htext, htokens, hcount, hfit⟩ := exists_of_gap hspelled.1 start
    refine ⟨trivia, htext, htokens, ?_, by simp [hcount]⟩
    simpa using hfit [] trivial
  | @cons line l _ s s' _ t ts hread _ ih =>
    have hspelled := readToken_spelled line hreturn
    rw [hread] at hspelled
    obtain ⟨gap, piece, hgap, rfl, hspelling, htline, hl⟩ := hspelled
    have hrest : '\r' ∉ s' := fun hmem => hreturn (by simp [hmem])
    have hpiece : '\r' ∉ piece := fun hmem => hreturn (by simp [hmem])
    have hstart : l = 1 + (start ++ gap ++ piece).count '\n' := by
      rw [List.count_append, List.count_append]
      omega
    obtain ⟨pieces, rfl, rfl, hfits, hfeeds⟩ := ih _ hdone hrest hstart
    obtain ⟨trivia, htext, hnone, hcount, hfit⟩ := exists_of_gap hgap start
    refine ⟨trivia ++ .token t piece :: pieces, ?_, ?_, hfit _ ⟨⟨hspelling, ?_⟩, hfits⟩, ?_⟩
    · simp [htext, text]
    · simp [hnone, token?]
    · rw [htline, hline, List.count_append]
      omega
    · have hend := hspelling.count_lineFeed hpiece
      have hcontinues : (Piece.token t piece).isContinuation = false := rfl
      rw [List.count_append, List.count_append, List.countP_append, hfeeds, hend, ← hcount,
        List.countP_cons, List.countP_cons, hcontinues]
      simp only [Token.isLineEnd, decide_eq_true_eq, Bool.false_eq_true, if_false]
      omega

/-- Text without carriage returns that is read without a fault falls into consecutive pieces: blanks,
continuations, and for each token in order one piece that spells it. Its line is one more than the line
feeds before the piece, and each line feed spells a line end or is in a continuation. -/
theorem lex_pieces {s : Text} {tokens : List Token} (hreturn : '\r' ∉ s) (h : lex s = .ok tokens) :
    ∃ pieces : List Piece, pieces.flatMap Piece.text = s ∧
      pieces.filterMap Piece.token? = tokens ∧
      (∀ before p after, pieces = before ++ p :: after →
        p.Fits (before.flatMap Piece.text) (after.flatMap Piece.text)) ∧
      s.count '\n' = tokens.countP Token.isLineEnd + pieces.countP Piece.isContinuation := by
  obtain ⟨_, _, _, hreads, hdone⟩ := Lexing.exists_reads_of_ok (lex_eq_ok_iff.1 h)
  obtain ⟨pieces, htext, htokens, hfits, hfeeds⟩ :=
    hreads.exists_pieces [] hdone hreturn rfl
  refine ⟨pieces, htext, htokens, fun before p after hsplit => ?_, hfeeds⟩
  simpa using hfits.fits hsplit

theorem lex_pieces_continued :
    let s := "10 pr # 1\\ \n:A (?\"HI\nRem x".toList
    let tokens := [⟨1, .number (.ofNat 10)⟩, ⟨1, .keyword .prSlot⟩, ⟨1, .number (.ofNat 1)⟩,
      ⟨2, .punct ':'⟩, ⟨2, .identifier ['A', '(']⟩, ⟨2, .keyword .print⟩, ⟨2, .quoted ['H', 'I']⟩,
      ⟨2, .lineEnd⟩, ⟨3, .comment ['x']⟩]
    '\r' ∉ s ∧ lex s = .ok tokens ∧
      ∃ pieces : List Piece, pieces.flatMap Piece.text = s ∧
        pieces.filterMap Piece.token? = tokens ∧
        (∀ before p after, pieces = before ++ p :: after →
          p.Fits (before.flatMap Piece.text) (after.flatMap Piece.text)) ∧
        s.count '\n' = tokens.countP Token.isLineEnd + pieces.countP Piece.isContinuation := by
  intro s tokens
  have hreturn : '\r' ∉ s := by decide
  have h : lex s = .ok tokens := by decide +kernel
  exact ⟨hreturn, h, lex_pieces hreturn h⟩

end Applesoft
