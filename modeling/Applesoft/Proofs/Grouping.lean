import Applesoft.Outline
import Applesoft.Proofs.EmittedTokens

/-!
# Tokens grouped into lines

The statements of a line are its tokens split at the colons, and `Line.kinds` puts the colons back.
What a parse makes of well-formed tokens is a program of well-formed lines.
-/
namespace Applesoft

abbrev TokenKind.colon : TokenKind := .punct ':'

def Line.kinds (l : Line) : List TokenKind :=
  [TokenKind.colon].intercalate (l.statements.map (·.map Token.kind))

/-- The number that a token can give to a line. -/
def TokenKind.IsLineNumber (k : TokenKind) (n : UInt16) : Prop :=
  ∃ value, k = .number value ∧ value.toInt? = some (n.toNat : Int) ∧ n.toNat ≤ largestLineNumber

theorem Token.asLineNumber_eq_ok_iff {t : Token} {n : UInt16} :
    t.asLineNumber = .ok n ↔ t.kind.IsLineNumber n := by
  unfold Token.asLineNumber TokenKind.IsLineNumber
  constructor
  · intro h
    split at h
    · next value hkind =>
      split at h
      · next i hi =>
        split at h
        · next hbounds =>
          obtain ⟨hlow, hhigh⟩ := hbounds
          have hword : i.toNat < 2 ^ 16 := by
            unfold largestLineNumber at hhigh
            omega
          have hn : n.toNat = i.toNat := by
            rw [← Except.ok.inj h]
            exact UInt16.toNat_ofNat_of_lt' hword
          exact ⟨value, hkind, by rw [hi, hn, Int.toNat_of_nonneg hlow], by omega⟩
        · cases h
      · cases h
    · cases h
  · rintro ⟨value, hkind, hvalue, hle⟩
    have hbounds : (0 : Int) ≤ n.toNat ∧ (n.toNat : Int) ≤ largestLineNumber :=
      ⟨Int.natCast_nonneg _, Int.ofNat_le.2 hle⟩
    simp only [hkind, hvalue, hbounds, and_self, if_true, Int.toNat_natCast, UInt16.ofNat_toNat]

theorem TokenKind.IsLineNumber.le {k : TokenKind} {n : UInt16} (h : k.IsLineNumber n) :
    n.toNat ≤ largestLineNumber := by
  obtain ⟨_, -, -, hle⟩ := h
  exact hle

namespace Program

theorem splitStatements_eq_splitOnP (body : List Token) :
    splitStatements body = body.splitOnP (·.kind = .colon) := by
  induction body with
  | nil => rfl
  | cons t rest ih =>
    rw [splitStatements, List.splitOnP_cons_eq_if_modifyHead, ih]
    by_cases hcolon : t.kind = .colon
    · simp [hcolon]
    · simp only [hcolon, decide_false, Bool.false_eq_true, if_false]
      cases hsplit : rest.splitOnP (·.kind = .colon) with
      | nil => exact absurd hsplit (List.splitOnP_ne_nil _ _)
      | cons s ss => rfl

theorem splitStatements_cons_colon {s : Statement} {t : Token} {rest : List Token}
    (hs : ∀ t ∈ s, t.kind ≠ .colon) (ht : t.kind = .colon) :
    splitStatements (s ++ t :: rest) = s :: splitStatements rest := by
  simp only [splitStatements_eq_splitOnP]
  exact List.splitOnP_append_cons_of_forall_mem (by simpa using hs) t (by simpa using ht) rest

theorem splitStatements_of_no_colon {s : Statement} (hs : ∀ t ∈ s, t.kind ≠ .colon) :
    splitStatements s = [s] := by
  rw [splitStatements_eq_splitOnP]
  exact List.splitOnP_eq_singleton (by simpa using hs)

theorem kinds_splitStatements (body : List Token) :
    (splitStatements body).map (·.map Token.kind) = (body.map Token.kind).splitOn .colon := by
  rw [splitStatements_eq_splitOnP, List.splitOn_eq_splitOnP]
  induction body with
  | nil => rfl
  | cons t rest ih =>
    rw [List.splitOnP_cons_eq_if_modifyHead, List.map_cons, List.splitOnP_cons_eq_if_modifyHead,
      ← ih]
    by_cases hcolon : t.kind = .colon
    · simp [hcolon]
    · cases rest.splitOnP (·.kind = .colon) <;> simp [hcolon]

theorem lineStatements_eq {body : List Token} (hne : body ≠ []) :
    lineStatements body = splitStatements body := by
  rw [lineStatements, if_neg (by simpa using hne)]

/-- Nothing is lost when the tokens of a line are split into statements. -/
theorem kinds_lineStatements (number : UInt16) (id : Nat) (body : List Token) :
    (⟨number, lineStatements body, id⟩ : Line).kinds = body.map Token.kind := by
  by_cases hne : body = []
  · rw [hne]; rfl
  · rw [Line.kinds]
    dsimp only
    rw [lineStatements_eq hne, kinds_splitStatements, List.intercalate_splitOn]

theorem lineStatements_ne_blank (body : List Token) : lineStatements body ≠ [[]] := by
  by_cases hne : body = []
  · simp [hne, lineStatements]
  · intro hblank
    have hkinds := kinds_lineStatements 0 0 body
    rw [hblank] at hkinds
    exact hne (by simpa [Line.kinds, List.intercalate] using hkinds.symm)

theorem mem_of_mem_splitStatements {body : List Token} {s : Statement} {t : Token}
    (hs : s ∈ splitStatements body) (ht : t ∈ s) : t ∈ body ∧ t.kind ≠ .colon := by
  induction body generalizing s with
  | nil =>
    obtain rfl : s = [] := by simpa [splitStatements] using hs
    cases ht
  | cons t' rest ih =>
    have htail : s ∈ splitStatements rest → t ∈ t' :: rest ∧ t.kind ≠ .colon := fun h =>
      ⟨List.mem_cons_of_mem _ (ih h ht).1, (ih h ht).2⟩
    rw [splitStatements] at hs
    split at hs
    · rcases List.mem_cons.1 hs with rfl | hs
      · cases ht
      · exact htail hs
    · next hcolon =>
      split at hs
      · next s' ss hsplit =>
        rcases List.mem_cons.1 hs with rfl | hs
        · rcases List.mem_cons.1 ht with rfl | ht
          · exact ⟨List.mem_cons_self, hcolon⟩
          · obtain ⟨hmem, hkind⟩ := ih (hsplit ▸ List.mem_cons_self) ht
            exact ⟨List.mem_cons_of_mem _ hmem, hkind⟩
        · exact htail (hsplit ▸ List.mem_cons_of_mem _ hs)
      · obtain rfl := List.mem_singleton.1 hs
        obtain rfl := List.mem_singleton.1 ht
        exact ⟨List.mem_cons_self, hcolon⟩

theorem mem_of_mem_lineStatements {body : List Token} {s : Statement} {t : Token}
    (hs : s ∈ lineStatements body) (ht : t ∈ s) : t ∈ body ∧ t.kind ≠ .colon := by
  unfold lineStatements at hs
  split at hs
  · cases hs
  · exact mem_of_mem_splitStatements hs ht

theorem mem_linesOf {id : Nat} {ts : List Token} {lines : List Line}
    (h : linesOf id ts = .ok lines) {l : Line} (hl : l ∈ lines) :
    ∃ body, body <:+: ts ∧ (∀ t ∈ body, t.isLineEnd = false) ∧
      l.statements = lineStatements body ∧ l.number.toNat ≤ largestLineNumber := by
  fun_induction linesOf id ts generalizing lines with
  | case1 =>
    obtain rfl := Except.ok.inj h
    cases hl
  | case2 t rest _ ih =>
    obtain ⟨body, hbetween, hbody⟩ := ih h hl
    exact ⟨body, hbetween.trans (List.suffix_cons _ _).isInfix, hbody⟩
  | case3 => cases h
  | case4 => cases h
  | case5 t rest _ number hnumber more hmore ih =>
    obtain rfl := Except.ok.inj h
    rcases List.mem_cons.1 hl with rfl | hl
    · refine ⟨rest.takeWhile (!·.isLineEnd), ?_, fun t ht => ?_, rfl,
        (Token.asLineNumber_eq_ok_iff.1 hnumber).le⟩
      · exact (List.takeWhile_prefix _).isInfix.trans (List.suffix_cons _ _).isInfix
      · simpa using List.mem_takeWhile_imp ht
    · obtain ⟨body, hbetween, hbody⟩ := ih hmore hl
      refine ⟨body, hbetween.trans ?_, hbody⟩
      exact ((List.dropWhile_suffix _).trans (List.suffix_cons _ _)).isInfix

end Program

/-- A line as it comes from source text. -/
structure Line.WellFormed (l : Line) : Prop where
  number_le : l.number.toNat ≤ largestLineNumber
  token : ∀ s ∈ l.statements, ∀ t ∈ s,
    t.kind.WellFormed ∧ t.kind ≠ .lineEnd ∧ t.kind ≠ .colon
  comments : l.kinds.IsChain TokenKind.EndsLine
  ne_blank : l.statements ≠ [[]]

theorem Program.parse_eq_ok_iff {id : Nat} {source : Text} {p : Program} :
    parse id source = .ok p ↔ ∃ ts, Lexing.lexFrom 1 source = ⟨ts, none⟩ ∧
      linesOf id ts = .ok p.lines ∧ p.id = id := by
  obtain ⟨id', lines⟩ := p
  unfold parse lex Lexing.Lexed.result
  obtain ⟨ts, _ | e⟩ := Lexing.lexFrom 1 source
  · cases hlines : linesOf id ts <;> simp [ofTokens, Except.map, hlines, eq_comm, and_comm]
  · simp

/-- The lines of a parsed program are well formed and made of characters of the source. -/
theorem Program.parse_wellFormed {id : Nat} {source : Text} {p : Program}
    (h : parse id source = .ok p) {l : Line} (hl : l ∈ p.lines) :
    l.WellFormed ∧ ∀ s ∈ l.statements, ∀ t ∈ s, t.kind.payload ⊆ source := by
  obtain ⟨ts, hlex, hlines, -⟩ := parse_eq_ok_iff.1 h
  have htokens := Lexing.lexFrom_sound 1 source
  have hcomments := Lexing.lexFrom_comments 1 source
  rw [hlex] at htokens hcomments
  obtain ⟨body, hbetween, hends, hstatements, hnumber⟩ := mem_linesOf hlines hl
  have hmem : ∀ s ∈ l.statements, ∀ t ∈ s, t ∈ body ∧ t.kind ≠ .colon := fun s hs t ht =>
    mem_of_mem_lineStatements (hstatements ▸ hs) ht
  refine ⟨⟨hnumber, fun s hs t ht => ?_, ?_, ?_⟩, fun s hs t ht => ?_⟩
  · obtain ⟨hbody, hcolon⟩ := hmem s hs t ht
    refine ⟨(htokens t (hbetween.subset hbody)).1, ?_, hcolon⟩
    simpa [Token.isLineEnd] using hends t hbody
  · have hkinds : l.kinds = body.map Token.kind := by
      rw [← kinds_lineStatements l.number l.owner body, ← hstatements]
    rw [hkinds]
    exact hcomments.infix (hbetween.map _)
  · rw [hstatements]; exact lineStatements_ne_blank body
  · exact (htokens t (hbetween.subset (hmem s hs t ht).1)).2

end Applesoft
