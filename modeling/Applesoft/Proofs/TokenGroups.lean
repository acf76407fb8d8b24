import Mathlib.Data.List.Forall2
import Applesoft.Proofs.Flattening

/-!
# Token lists as programs

A token list is cut at its line ends. Each piece that is not empty is a line of the program, and the
first piece that does not start with a line number is the fault.
-/
namespace Applesoft

variable {id : Nat} {ts rest : List Token} {t : Token}

def linePieces (ts : List Token) : List (List Token) :=
  (ts.splitOnP Token.isLineEnd).filter (· ≠ [])

def IsNumbered (piece : List Token) : Prop :=
  ∃ t ∈ piece.head?, ∃ n, t.kind.IsLineNumber n

/-- A line as it stands in a piece: its number and, unless nothing follows that, its statements
between the colons. -/
def Line.StandsIn (id : Nat) (piece : List Token) (l : Line) : Prop :=
  ∃ t rest, piece = t :: rest ∧ t.kind.IsLineNumber l.number ∧ l.owner = id ∧
    l.statements = if rest = [] then [] else rest.splitOnP (·.kind = .colon)

/-- The first piece without a line number starts with a token that is refused for `e`. -/
def FirstRefusal (e : Error) (pieces : List (List Token)) : Prop :=
  ∃ before t rest after, pieces = before ++ (t :: rest) :: after ∧
    (∀ piece ∈ before, IsNumbered piece) ∧ t.asLineNumber = .error e

theorem linePieces_nil : linePieces [] = [] := rfl

theorem linePieces_lineEnd (ht : t.isLineEnd = true) : linePieces (t :: rest) = linePieces rest := by
  rw [linePieces, linePieces, List.splitOnP_cons_eq_if_modifyHead, if_pos ht]
  simp

theorem linePieces_cons (ht : t.isLineEnd = false) :
    linePieces (t :: rest) =
      (t :: Lexing.restOfLine rest) :: linePieces (rest.dropWhile (!·.isLineEnd)) := by
  have hbody : ∀ u ∈ t :: Lexing.restOfLine rest, u.isLineEnd = false := by
    intro u hu
    rcases List.mem_cons.1 hu with rfl | hu
    · exact ht
    · simpa using List.mem_takeWhile_imp hu
  have hrest : t :: rest =
      t :: Lexing.restOfLine rest ++ rest.dropWhile (!·.isLineEnd) := by
    rw [List.cons_append, Lexing.restOfLine, List.takeWhile_append_dropWhile]
  cases hdrop : rest.dropWhile (!·.isLineEnd) with
  | nil =>
    rw [hrest, hdrop, List.append_nil, linePieces, List.splitOnP_eq_singleton hbody, linePieces_nil]
    simp
  | cons e more =>
    have he : e.isLineEnd = true := by
      have hhead := List.head?_dropWhile_not (!·.isLineEnd) rest
      rw [hdrop] at hhead
      simpa using hhead
    rw [hrest, hdrop, linePieces_lineEnd he, linePieces,
      List.splitOnP_append_cons_of_forall_mem hbody e he, linePieces]
    simp

theorem lineStatements_eq_splitOnP (body : List Token) :
    Program.lineStatements body =
      if body = [] then [] else body.splitOnP (·.kind = .colon) := by
  by_cases hne : body = []
  · rw [if_pos hne, hne]; rfl
  · rw [if_neg hne, Program.lineStatements_eq hne, Program.splitStatements_eq_splitOnP]

theorem isNumbered_cons : IsNumbered (t :: rest) ↔ ∃ n, t.asLineNumber = .ok n := by
  simp [IsNumbered, Token.asLineNumber_eq_ok_iff]

theorem Line.standsIn_cons {number : UInt16} {l : Line} (ht : t.asLineNumber = .ok number) :
    l.StandsIn id (t :: rest) ↔ l = ⟨number, Program.lineStatements rest, id⟩ := by
  rw [lineStatements_eq_splitOnP]
  constructor
  · rintro ⟨t', rest', hpiece, hnumber, howner, hstatements⟩
    obtain ⟨rfl, rfl⟩ := List.cons_eq_cons.1 hpiece
    rw [← Token.asLineNumber_eq_ok_iff, ht, Except.ok.injEq] at hnumber
    rw [hnumber, ← howner, ← hstatements]
  · rintro rfl
    exact ⟨t, rest, rfl, Token.asLineNumber_eq_ok_iff.1 ht, rfl, rfl⟩

theorem not_firstRefusal_nil {e : Error} : ¬ FirstRefusal e [] := by
  rintro ⟨before, t, rest, after, hpieces, -⟩
  simp at hpieces

theorem firstRefusal_cons {e : Error} {pieces : List (List Token)} :
    FirstRefusal e ((t :: rest) :: pieces) ↔
      t.asLineNumber = .error e ∨ IsNumbered (t :: rest) ∧ FirstRefusal e pieces := by
  constructor
  · rintro ⟨before, t', rest', after, hpieces, hbefore, ht'⟩
    cases before with
    | nil =>
      obtain ⟨hhead, -⟩ := List.cons_eq_cons.1 hpieces
      obtain ⟨rfl, -⟩ := List.cons_eq_cons.1 hhead
      exact .inl ht'
    | cons piece before =>
      obtain ⟨rfl, rfl⟩ := List.cons_eq_cons.1 hpieces
      rw [List.forall_mem_cons] at hbefore
      exact .inr ⟨hbefore.1, before, t', rest', after, rfl, hbefore.2, ht'⟩
  · rintro (ht | ⟨hnumbered, before, t', rest', after, rfl, hbefore, ht'⟩)
    · exact ⟨[], t, rest, pieces, rfl, by simp, ht⟩
    · exact ⟨(t :: rest) :: before, t', rest', after, rfl,
        List.forall_mem_cons.2 ⟨hnumbered, hbefore⟩, ht'⟩

namespace Program

theorem linesOf_eq_ok_iff {lines : List Line} :
    linesOf id ts = .ok lines ↔ List.Forall₂ (Line.StandsIn id) (linePieces ts) lines := by
  fun_induction linesOf id ts generalizing lines with
  | case1 => rw [linePieces_nil, List.forall₂_nil_left_iff, Except.ok.injEq, eq_comm]
  | case2 t rest ht ih => rw [linePieces_lineEnd ht, ih]
  | case3 t rest ht e he =>
    rw [linePieces_cons (by simpa using ht), List.forall₂_cons_left_iff]
    simp only [reduceCtorEq, false_iff]
    rintro ⟨l, lines, ⟨t', rest', hpiece, hnumber, -⟩, -⟩
    obtain ⟨rfl, -⟩ := List.cons_eq_cons.1 hpiece
    rw [← Token.asLineNumber_eq_ok_iff, he] at hnumber
    cases hnumber
  | case4 t rest ht number hnumber e he ih =>
    rw [linePieces_cons (by simpa using ht), List.forall₂_cons_left_iff]
    simp only [reduceCtorEq, false_iff]
    rintro ⟨l, lines, -, hlines, -⟩
    rw [← ih, he] at hlines
    cases hlines
  | case5 t rest ht number hnumber more hmore ih =>
    rw [linePieces_cons (by simpa using ht), List.forall₂_cons_left_iff, Except.ok.injEq]
    simp only [Line.standsIn_cons hnumber, ← ih, hmore, Except.ok.injEq]
    constructor
    · rintro rfl
      exact ⟨_, _, rfl, rfl, rfl⟩
    · rintro ⟨l, lines, rfl, rfl, rfl⟩
      rfl

theorem linesOf_eq_error_iff {e : Error} :
    linesOf id ts = .error e ↔ FirstRefusal e (linePieces ts) := by
  fun_induction linesOf id ts with
  | case1 => simp [linePieces_nil, not_firstRefusal_nil]
  | case2 t rest ht ih => rw [linePieces_lineEnd ht, ih]
  | case3 t rest ht e' he =>
    rw [linePieces_cons (by simpa using ht), firstRefusal_cons, isNumbered_cons, he]
    simp
  | case4 t rest ht number hnumber e' he ih =>
    rw [linePieces_cons (by simpa using ht), firstRefusal_cons, isNumbered_cons, ← ih, hnumber, he]
    simp
  | case5 t rest ht number hnumber more hmore ih =>
    rw [linePieces_cons (by simpa using ht), firstRefusal_cons, isNumbered_cons, ← ih, hnumber,
      hmore]
    simp

/-- A token list is refused if and only if some piece does not start with a line number. -/
theorem exists_linesOf_iff :
    (∃ lines, linesOf id ts = .ok lines) ↔ ∀ piece ∈ linePieces ts, IsNumbered piece := by
  constructor
  · rintro ⟨lines, hlines⟩
    rw [linesOf_eq_ok_iff] at hlines
    generalize linePieces ts = pieces at hlines ⊢
    induction hlines with
    | nil => simp
    | cons hline _ ih =>
      obtain ⟨t, rest, rfl, hnumber, -⟩ := hline
      exact List.forall_mem_cons.2 ⟨⟨t, rfl, _, hnumber⟩, ih⟩
  · intro hnumbered
    cases hlines : linesOf id ts with
    | ok lines => exact ⟨lines, rfl⟩
    | error e =>
      obtain ⟨before, t, rest, after, hpieces, -, ht⟩ := linesOf_eq_error_iff.1 hlines
      have hpiece := hnumbered (t :: rest) (by rw [hpieces]; simp)
      obtain ⟨n, hn⟩ := isNumbered_cons.1 hpiece
      rw [ht] at hn
      cases hn

/-- Tokens make up a program exactly if every piece between line ends starts with a line number, and
then each piece is one of its lines; otherwise the first piece that does not tells the fault. The
tokens of a program without blank statements or stray separators make up that program again. -/
theorem ofTokens_pieces (id : Nat) (ts : List Token) :
    ((∃ p, ofTokens id ts = .ok p) ↔ ∀ piece ∈ linePieces ts, IsNumbered piece) ∧
    (∀ p, ofTokens id ts = .ok p ↔
      p.id = id ∧ List.Forall₂ (Line.StandsIn id) (linePieces ts) p.lines) ∧
    (∀ e, ofTokens id ts = .error e ↔ FirstRefusal e (linePieces ts)) ∧
    ∀ (p : Program) (stamp : Line → Nat), (∀ l ∈ p.lines, l.Regroups) →
      ofTokens id (p.lines.flatMap fun l => l.flatten (stamp l)) =
        .ok ⟨id, p.lines.map fun l => { l with owner := id }⟩ := by
  refine ⟨?_, ?_, ?_, ?_⟩
  · rw [← @exists_linesOf_iff id, ofTokens]
    cases linesOf id ts <;> simp [Except.map]
  · rintro ⟨id', lines⟩
    rw [← linesOf_eq_ok_iff, ofTokens]
    cases linesOf id ts <;> simp [Except.map, eq_comm]
  · intro e
    rw [← @linesOf_eq_error_iff id, ofTokens]
    cases linesOf id ts <;> simp [Except.map]
  · intro p stamp h
    rw [ofTokens, linesOf_flatMap_flatten stamp h]
    rfl

/-- A blank statement between two others, and a line that is nothing but its number. -/
theorem ofTokens_pieces_bare_number :
    let p : Program := ⟨3, [⟨10, [[⟨4, .keyword .home⟩], [], [⟨5, .keyword .endRun⟩]], 3⟩, ⟨5, [], 3⟩]⟩
    (∀ l ∈ p.lines, l.Regroups) ∧
      ofTokens 7 (p.lines.flatMap fun l => l.flatten 4) =
        .ok ⟨7, p.lines.map fun l => { l with owner := 7 }⟩ := by
  intro p
  have h : ∀ l ∈ p.lines, l.Regroups := by
    simp only [p, List.forall_mem_cons]
    exact ⟨⟨by decide, by decide, by decide⟩, ⟨by decide, by decide, by decide⟩, by simp⟩
  exact ⟨h, (ofTokens_pieces 7 []).2.2.2 p (fun _ => 4) h⟩

end Program

end Applesoft
