import Applesoft.Proofs.Flattening
import Applesoft.Proofs.Pieces

/-!
# The physical lines of a program

A line of a program stands on the physical lines from its number up to its line end, or the end of the
text; there are several where it is continued. `lineSpans` reads them off a source, and in a text
without carriage returns they are what counting line feeds gives.
-/
namespace Applesoft

structure Span where
  first : Nat
  last : Nat
  deriving DecidableEq, Repr

namespace Span

def Has (span : Span) (line : Nat) : Prop := span.first ≤ line ∧ line ≤ span.last

instance (span : Span) (line : Nat) : Decidable (span.Has line) :=
  inferInstanceAs (Decidable (_ ∧ _))

end Span

def Text.lineAt (source rest : Text) : Nat :=
  (source.take (source.length - rest.length)).count '\n' + 1

namespace Reading

def readLine : Reading → Nat
  | .token t _ _ => t.line
  | .done line | .fault _ _ line => line

def countedLine (source : Text) : Reading → Nat
  | .token t r _ => if t.isLineEnd then source.lineAt r - 1 else source.lineAt r
  | .done _ => source.lineAt []
  | .fault _ r _ => source.lineAt r

end Reading

namespace Lexing

/-- The spans of the lines from some place on; `first?` is where the line under way has begun. -/
def spansFrom (lineOf : Reading → Nat) (first? : Option Nat) (line : Nat) (s : Text) : List Span :=
  match _h : readToken line s with
  | .fault .. => []
  | .done l => (first?.map fun first => ⟨first, lineOf (.done l)⟩).toList
  | .token t r l =>
    let here := lineOf (.token t r l)
    if t.isLineEnd then
      (first?.map fun first => ⟨first, here⟩).toList ++ spansFrom lineOf none l r
    else spansFrom lineOf (some (first?.getD here)) l r
termination_by s.length
decreasing_by
  all_goals
    have := readToken_shortens line s
    rwa [_h] at this

end Lexing

/-- The physical lines of each line of the program in a source, as the reader counts them. -/
def lineSpans (source : Text) : List Span := Lexing.spansFrom Reading.readLine none 1 source

def countedSpans (source : Text) : List Span :=
  Lexing.spansFrom (Reading.countedLine source) none 1 source

/-- Program lines with spans that ascend from a line on and hold their tokens. -/
inductive Spread : Nat → List Line → List Span → Prop
  | nil {bound : Nat} : Spread bound [] []
  | cons {bound : Nat} {l : Line} {lines : List Line} {span : Span} {spans : List Span} :
      bound ≤ span.first → span.first ≤ span.last → (∀ t ∈ l.tokens, span.Has t.line) →
      Spread (span.last + 1) lines spans → Spread bound (l :: lines) (span :: spans)

namespace Spread

variable {bound bound' : Nat} {before after lines : List Line} {l : Line} {spans : List Span}

theorem mono (h : Spread bound lines spans) (hbound : bound' ≤ bound) :
    Spread bound' lines spans := by
  cases h with
  | nil => exact .nil
  | cons hfirst hlast htokens hrest => exact .cons (Nat.le_trans hbound hfirst) hlast htokens hrest

/-- The span of a line comes after the tokens of the lines before it. -/
theorem exists_span (h : Spread bound (before ++ l :: after) spans) :
    ∃ span, spans[before.length]? = some span ∧ bound ≤ span.first ∧
      (∀ t ∈ l.tokens, span.Has t.line) ∧
      ∀ l' ∈ before, ∀ t ∈ l'.tokens, t.line < span.first := by
  induction before generalizing bound spans with
  | nil =>
    cases h with
    | cons hfirst _ htokens _ => exact ⟨_, rfl, hfirst, htokens, by simp⟩
  | cons l' before ih =>
    cases h with
    | @cons _ _ _ span' _ hfirst hlast htokens hrest =>
      obtain ⟨span, hspan, hbound, hspanTokens, hbefore⟩ := ih hrest
      refine ⟨span, hspan, by omega, hspanTokens, List.forall_mem_cons.2 ⟨fun t ht => ?_, hbefore⟩⟩
      have := (htokens t ht).2
      omega

end Spread

def Reading.Advances (line : Nat) : Reading → Prop
  | .token t _ l => line ≤ t.line ∧ t.line ≤ l ∧ (t.isLineEnd = true → t.line < l)
  | .done l => line ≤ l
  | .fault .. => True

theorem Reading.Advances.mono {x : Reading} {line line' : Nat} (h : x.Advances line)
    (hle : line' ≤ line) : x.Advances line' := by
  cases x with
  | token => exact ⟨Nat.le_trans hle h.1, h.2⟩
  | done => exact Nat.le_trans hle h
  | fault => trivial

namespace Lexing

variable {line : Nat} {s : Text}

theorem advances_here {k : TokenKind} {r : Text} (hk : k ≠ .lineEnd) :
    (Reading.token ⟨line, k⟩ r line).Advances line :=
  ⟨Nat.le_refl _, Nat.le_refl _, fun hend => absurd (by simpa [Token.isLineEnd] using hend) hk⟩

/-- A word comes to a token on its line, or to a keyword without its mark. -/
theorem readWord_cases (line : Nat) (word rest : Text) :
    (∃ k r, k ≠ .lineEnd ∧ readWord line word rest = .token ⟨line, k⟩ r line) ∨
      ∃ k mark r l, readWord line word rest = .fault (.missingMark line k mark) r l := by
  unfold readWord
  split
  · exact .inl ⟨_, _, by simp, rfl⟩
  · unfold readKeyword
    split
    · exact .inl ⟨_, _, by simp, rfl⟩
    · split
      · exact .inr ⟨_, _, _, _, rfl⟩
      · split
        · exact .inl ⟨_, _, by simp, rfl⟩
        · exact .inr ⟨_, _, _, _, rfl⟩
  · split
    · exact .inl ⟨_, _, by simp, rfl⟩
    · unfold readIdentifier
      split <;> exact .inl ⟨_, _, by simp, rfl⟩

theorem readPunctuation_eq_token (line : Nat) (c : Char) (rest : Text) :
    ∃ k, k ≠ .lineEnd ∧ readPunctuation line c rest = .token ⟨line, k⟩ rest line := by
  unfold readPunctuation
  split <;> exact ⟨_, by simp, rfl⟩

theorem readToken_advances (line : Nat) (s : Text) : (readToken line s).Advances line := by
  fun_induction readToken line s with
  | case1 => exact Nat.le_refl _
  | case2 line => exact ⟨Nat.le_refl _, Nat.le_succ _, fun _ => Nat.lt_succ_self _⟩
  | case3 | case4 => exact advances_here (by simp)
  | case5 line _ word r =>
    obtain ⟨k, r', hk, hread⟩ | ⟨k, mark, r', l, hread⟩ := readWord_cases line word r
    · rw [hread]; exact advances_here hk
    · rw [hread]; trivial
  | case6 line _ _ _ _ _ _ _ ih => exact ih.mono (Nat.le_succ line)
  | case7 | case8 | case10 => trivial
  | case9 line _ c r =>
    obtain ⟨k, hk, hread⟩ := readPunctuation_eq_token line c r
    rw [hread]
    exact advances_here hk

theorem spansFrom_done {lineOf : Reading → Nat} {first? : Option Nat} {l : Nat}
    (h : readToken line s = .done l) : spansFrom lineOf first? line s =
      (first?.map fun first => ⟨first, lineOf (.done l)⟩).toList := by
  rw [spansFrom]
  split <;> simp_all

theorem spansFrom_fault {lineOf : Reading → Nat} {first? : Option Nat} {e : Error} {r : Text}
    {l : Nat} (h : readToken line s = .fault e r l) : spansFrom lineOf first? line s = [] := by
  rw [spansFrom]
  split <;> simp_all

theorem spansFrom_token {lineOf : Reading → Nat} {first? : Option Nat} {t : Token} {r : Text}
    {l : Nat} (h : readToken line s = .token t r l) : spansFrom lineOf first? line s =
      if t.isLineEnd then
        (first?.map fun first => ⟨first, lineOf (.token t r l)⟩).toList ++ spansFrom lineOf none l r
      else spansFrom lineOf (some (first?.getD (lineOf (.token t r l)))) l r := by
  rw [spansFrom]
  split <;> simp_all

theorem exists_of_linesOf_cons {id : Nat} {t : Token} {ts : List Token} {lines : List Line}
    (h : Program.linesOf id (t :: ts) = .ok lines) (ht : t.isLineEnd = false) :
    ∃ number more, Program.linesOf id (ts.dropWhile (!·.isLineEnd)) = .ok more ∧
      lines = ⟨number, Program.lineStatements (restOfLine ts), id⟩ :: more := by
  cases hnumber : t.asLineNumber with
  | error e => simp [Program.linesOf, ht, hnumber] at h
  | ok number =>
    rw [Program.linesOf_cons ht hnumber] at h
    cases hmore : Program.linesOf id (ts.dropWhile (!·.isLineEnd)) with
    | error e => simp [hmore, Except.map] at h
    | ok more =>
      rw [hmore] at h
      exact ⟨number, more, rfl, (Except.ok.inj h).symm⟩

/-- The spans from the start of a line on, and those from the middle of one on. -/
theorem spansFrom_spread (id line : Nat) (s : Text) (h : (lexFrom line s).fault = none) :
    (∀ lines, Program.linesOf id (lexFrom line s).tokens = .ok lines →
      Spread line lines (spansFrom Reading.readLine none line s)) ∧
    ∀ first lines,
      Program.linesOf id ((lexFrom line s).tokens.dropWhile (!·.isLineEnd)) = .ok lines →
      ∃ last spans, spansFrom Reading.readLine (some first) line s = ⟨first, last⟩ :: spans ∧
        line ≤ last ∧
        (∀ t ∈ restOfLine (lexFrom line s).tokens, line ≤ t.line ∧ t.line ≤ last) ∧
        Spread (last + 1) lines spans := by
  fun_induction lexFrom line s with
  | case1 line s l hread =>
    have hle := readToken_advances line s
    rw [hread] at hle
    simp only [spansFrom_done hread, List.dropWhile_nil, Program.linesOf, Except.ok.injEq,
      forall_eq']
    exact ⟨.nil, fun first => ⟨l, [], rfl, hle, by simp [restOfLine], .nil⟩⟩
  | case2 => cases h
  | case3 line s t r l hread more ih =>
    obtain ⟨hnext, hwithin⟩ := ih h
    have hadvances := readToken_advances line s
    rw [hread] at hadvances
    obtain ⟨hline, hl, hend⟩ := hadvances
    simp only [spansFrom_token hread]
    cases ht : t.isLineEnd with
    | true =>
      have hstop : (t :: more.tokens).dropWhile (!·.isLineEnd) = t :: more.tokens :=
        List.dropWhile_cons_of_neg (by simp [ht])
      have hrest : restOfLine (t :: more.tokens) = [] := List.takeWhile_cons_of_neg (by simp [ht])
      rw [hstop, hrest, Program.linesOf_lineEnd ht]
      refine ⟨fun lines hlines => ?_, fun first lines hlines => ?_⟩
      · exact (hnext lines hlines).mono (Nat.le_trans hline hl)
      · exact ⟨t.line, _, rfl, hline, by simp, (hnext lines hlines).mono (hend ht)⟩
    | false =>
      have hdrop : (t :: more.tokens).dropWhile (!·.isLineEnd) =
          more.tokens.dropWhile (!·.isLineEnd) := List.dropWhile_cons_of_pos (by simp [ht])
      have hrest : restOfLine (t :: more.tokens) = t :: restOfLine more.tokens :=
        List.takeWhile_cons_of_pos (by simp [ht])
      rw [hdrop, hrest]
      refine ⟨fun lines hlines => ?_, fun first lines hlines => ?_⟩
      · obtain ⟨number, others, hothers, rfl⟩ := exists_of_linesOf_cons hlines ht
        obtain ⟨last, spans, hspans, hle, htokens, hspread⟩ := hwithin t.line others hothers
        rw [if_neg (by simp), Option.getD_none, Reading.readLine, hspans]
        refine .cons hline (Nat.le_trans hl hle) (fun t' ht' => ?_) hspread
        obtain ⟨s', hs', ht'⟩ := List.mem_flatten.1 ht'
        have := htokens t' (Program.mem_of_mem_lineStatements hs' ht').1
        exact ⟨Nat.le_trans hl this.1, this.2⟩
      · obtain ⟨last, spans, hspans, hle, htokens, hspread⟩ := hwithin first lines hlines
        rw [if_neg (by simp), Option.getD_some, hspans]
        refine ⟨last, spans, rfl, by omega, ?_, hspread⟩
        rw [List.forall_mem_cons]
        refine ⟨⟨hline, Nat.le_trans hl hle⟩, fun t' ht' => ?_⟩
        have := htokens t' ht'
        omega

end Lexing

theorem lineSpans_spread {id : Nat} {source : Text} {p : Program}
    (h : Program.parse id source = .ok p) : Spread 1 p.lines (lineSpans source) := by
  obtain ⟨ts, hlex, hlines, -⟩ := Program.parse_eq_ok_iff.1 h
  have hspread := (Lexing.spansFrom_spread id 1 source (by rw [hlex])).1
  rw [hlex] at hspread
  exact hspread p.lines hlines

theorem Text.lineAt_append (before rest : Text) :
    (before ++ rest).lineAt rest = before.count '\n' + 1 := by
  rw [lineAt, List.length_append, Nat.add_sub_cancel, List.take_left]

theorem Text.lineAt_of_suffix {source rest : Text} (h : rest <:+ source) :
    source.lineAt rest + rest.count '\n' = source.count '\n' + 1 := by
  obtain ⟨before, rfl⟩ := h
  rw [lineAt_append, List.count_append]
  omega

namespace Lexing

variable {line l : Nat} {source s r : Text} {t : Token}

/-- In text without carriage returns the reader counts line feeds. -/
theorem countedLine_token (hreturn : '\r' ∉ s) (hsuffix : s <:+ source)
    (hline : line = source.lineAt s) (hread : readToken line s = .token t r l) :
    (Reading.token t r l).countedLine source = t.line ∧ l = source.lineAt r := by
  have hspelled := readToken_spelled line hreturn
  rw [hread] at hspelled
  obtain ⟨gap, piece, -, rfl, hspelling, htline, hl⟩ := hspelled
  have hpiece := hspelling.count_lineFeed fun hmem => hreturn (by simp [hmem])
  have hs := Text.lineAt_of_suffix hsuffix
  have hr := Text.lineAt_of_suffix ((readToken_suffix hread).trans hsuffix)
  rw [List.count_append, List.count_append] at hs
  have hat : l = source.lineAt r := by omega
  refine ⟨?_, hat⟩
  rw [Reading.countedLine, Token.isLineEnd, ← hat, hl, hpiece]
  by_cases hkind : t.kind = .lineEnd <;> simp [hkind]

theorem countedLine_done (hreturn : '\r' ∉ s) (hsuffix : s <:+ source)
    (hline : line = source.lineAt s) (hread : readToken line s = .done l) :
    (Reading.done l).countedLine source = l := by
  have hspelled := readToken_spelled line hreturn
  rw [hread] at hspelled
  have hs := Text.lineAt_of_suffix hsuffix
  have hend := Text.lineAt_of_suffix (List.nil_suffix (l := source))
  rw [List.count_nil] at hend
  have := hspelled.2
  rw [Reading.countedLine]
  omega

theorem spansFrom_countedLine (first? : Option Nat) (line : Nat) (s : Text) (hreturn : '\r' ∉ s)
    (hsuffix : s <:+ source) (hline : line = source.lineAt s) :
    spansFrom (Reading.countedLine source) first? line s =
      spansFrom Reading.readLine first? line s := by
  fun_induction lexFrom line s generalizing first? with
  | case1 line s l hread =>
    rw [spansFrom_done hread, spansFrom_done hread, countedLine_done hreturn hsuffix hline hread]
    rfl
  | case2 line s e r l hread => rw [spansFrom_fault hread, spansFrom_fault hread]
  | case3 line s t r l hread more ih =>
    obtain ⟨hcounted, hl⟩ := countedLine_token hreturn hsuffix hline hread
    have hrest := readToken_suffix hread
    have hmore (first? : Option Nat) :=
      ih first? (fun hmem => hreturn (hrest.subset hmem)) (hrest.trans hsuffix) hl
    rw [spansFrom_token hread, spansFrom_token hread, hcounted, hmore, hmore]
    rfl

end Lexing

theorem countedSpans_eq {source : Text} (hreturn : '\r' ∉ source) :
    countedSpans source = lineSpans source :=
  Lexing.spansFrom_countedLine none 1 source hreturn (List.suffix_refl source)
    (Text.lineAt_append [] source).symm

end Applesoft
