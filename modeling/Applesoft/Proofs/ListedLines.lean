import Applesoft.Proofs.Flattening
import Applesoft.Proofs.KeptBytes

/-!
# Listed lines read back

A line whose statements keep their bytes is read back as its number, its statements with their names
merged, and its end. A line that is read back with its bytes has such statements.
-/
namespace Applesoft

variable {letters : LetterCase} {line : Nat} {r : Text}

namespace Listing

def after (letters : LetterCase) (rest : List Statement) (r : Text) : Text :=
  rest.flatMap (fun s => ':' :: statement letters s) ++ '\n' :: r

theorem after_cons (s : Statement) (rest : List Statement) :
    after letters (s :: rest) r = ':' :: (statement letters s ++ after letters rest r) := by
  simp [after]

theorem statements_cons (s : Statement) (rest : List Statement) :
    statements letters (s :: rest) ++ '\n' :: r =
      ' ' :: (statement letters s ++ after letters rest r) := by
  simp [statements, after]

theorem line_append (l : Line) : Listing.line letters l ++ r =
    Text.ofNat l.number.toNat ++ (statements letters l.statements ++ '\n' :: r) := by
  simp [Listing.line]

theorem closes_after (rest : List Statement) : TokenKind.Closes (after letters rest r) := by
  cases rest with
  | nil => exact .inr rfl
  | cons s rest => exact .inl (by rw [after_cons]; rfl)

end Listing

structure ProperStatements (ss : List Statement) : Prop where
  token : ∀ s ∈ ss, ∀ t ∈ s, t.kind.Proper
  comments : ([TokenKind.colon].intercalate (ss.map (·.map Token.kind))).IsChain TokenKind.EndsLine

theorem Statement.commentLast_of_isChain {s : Statement} {more : List TokenKind}
    (h : (s.map Token.kind ++ more).IsChain TokenKind.EndsLine) (hs : ∀ t ∈ s, t.kind ≠ .lineEnd)
    (hmore : ∀ k ∈ more.head?, k ≠ .lineEnd) (hr : more = [] → r.head? = some '\n') :
    s.CommentLast r := by
  induction s with
  | nil => trivial
  | cons t rest ih =>
    cases rest with
    | nil =>
      intro text htext
      cases more with
      | nil => exact hr rfl
      | cons k more => exact absurd ((List.isChain_cons_cons.1 h).1 text htext) (hmore k rfl)
    | cons t' rest =>
      refine ⟨fun text htext => ?_, ih h.tail fun t ht => hs t (List.mem_cons_of_mem _ ht)⟩
      exact hs t' (by simp) ((List.isChain_cons_cons.1 h).1 text htext)

theorem ProperStatements.head {s : Statement} {rest : List Statement}
    (h : ProperStatements (s :: rest)) : s.Proper (Listing.after letters rest r) where
  token := h.token s List.mem_cons_self
  closes := Listing.closes_after rest
  comment := by
    have hends : ∀ t ∈ s, t.kind ≠ .lineEnd := fun t ht =>
      (h.token s List.mem_cons_self t ht).ne_lineEnd
    have hchain := h.comments
    cases rest with
    | nil =>
      have hkinds : (s.map Token.kind ++ []).IsChain TokenKind.EndsLine := by
        simpa [List.intercalate] using hchain
      exact Statement.commentLast_of_isChain hkinds hends (by simp) fun _ => rfl
    | cons s' rest =>
      rw [List.map_cons, List.map_cons, List.intercalate_cons_cons, List.append_assoc] at hchain
      exact Statement.commentLast_of_isChain hchain hends (by simp) (by simp)

theorem ProperStatements.tail {s : Statement} {rest : List Statement}
    (h : ProperStatements (s :: rest)) : ProperStatements rest where
  token s' hs' := h.token s' (List.mem_cons_of_mem _ hs')
  comments := by
    cases rest with
    | nil => exact .nil
    | cons s' rest =>
      have hchain := h.comments
      rw [List.map_cons, List.map_cons, List.intercalate_cons_cons, List.append_assoc] at hchain
      exact hchain.right_of_append.right_of_append

/-- A line whose listing can be read back at all. -/
structure Line.Proper (l : Line) : Prop where
  number_le : l.number.toNat ≤ largestLineNumber
  statements : ProperStatements l.statements
  ne_blank : l.statements ≠ [[]]

theorem Line.WellFormed.proper {l : Line} (h : l.WellFormed)
    (hplain : ∀ s ∈ l.statements, ∀ t ∈ s, t.kind.IsPlain) : l.Proper where
  number_le := h.number_le
  ne_blank := h.ne_blank
  statements :=
    { token := fun s hs t ht =>
        ⟨(h.token s hs t ht).1, hplain s hs t ht, (h.token s hs t ht).2.1, (h.token s hs t ht).2.2⟩
      comments := h.comments }

def Line.reread (letters : LetterCase) (id line : Nat) (l : Line) : Line :=
  ⟨l.number, l.statements.map (Statement.reread letters line), id⟩

namespace Statement

theorem mem_reread {s : Statement} (h : ∀ t ∈ s, t.kind.Proper) :
    ∀ t ∈ s.reread letters line, t.kind ≠ .lineEnd ∧ t.kind ≠ .colon := by
  intro t ht
  obtain ⟨u, hu, rfl⟩ := List.mem_map.1 ht
  have hproper := proper_of_mem_merged h u hu
  have hcolon : u.kind.recased letters = .colon ↔ u.kind = .colon := by
    cases u.kind <;> simp [TokenKind.recased]
  exact ⟨mt Lexing.recased_eq_lineEnd.1 hproper.ne_lineEnd, mt hcolon.1 hproper.ne_colon⟩

theorem bytesOf_reread {s : Statement} (h : ∀ t ∈ s, t.kind.Proper) :
    bytesOf (s.reread letters line) = bytesOf s := by
  rw [← bytesOf_merged s, reread, bytesOf, bytesOf, List.map_map, List.flatMap_map, List.flatMap_map]
  exact List.flatMap_congr fun t ht => Lexing.bytes_recased (proper_of_mem_merged h t ht).plain

theorem reread_eq_nil {s : Statement} : s.reread letters line = [] ↔ s = [] := by
  rw [reread, List.map_eq_nil_iff, merged_eq_nil]

end Statement

namespace Lexing

theorem reads_after {rest : List Statement} (hproper : ProperStatements rest)
    (hkeeps : ∀ s ∈ rest, s.KeepsBytes) :
    Reads line (Listing.after letters rest r)
      ((rest.map (Statement.reread letters line)).flatMap (⟨line, .colon⟩ :: ·)) line ('\n' :: r) := by
  induction rest with
  | nil => exact .nil
  | cons s rest ih =>
    rw [List.forall_mem_cons] at hkeeps
    rw [Listing.after_cons]
    exact .cons (readToken_colon _ _)
      ((reads_merged hproper.head hkeeps.1).trans (ih hproper.tail hkeeps.2))

theorem reads_statements {ss : List Statement} (hproper : ProperStatements ss)
    (hkeeps : ∀ s ∈ ss, s.KeepsBytes) :
    Reads line (Listing.statements letters ss ++ '\n' :: r)
      (join line (ss.map (Statement.reread letters line)) ++ [⟨line, .lineEnd⟩]) (line + 1) r := by
  cases ss with
  | nil => exact .single (readToken_lineFeed _ r)
  | cons s rest =>
    rw [List.forall_mem_cons] at hkeeps
    have hread : Reads line
        (Listing.statement letters s ++ Listing.after letters rest r)
        (join line ((s :: rest).map (Statement.reread letters line))) line ('\n' :: r) :=
      (reads_merged hproper.head hkeeps.1).trans (reads_after hproper.tail hkeeps.2)
    rw [Listing.statements_cons]
    exact (hread.trans (.single (readToken_lineFeed _ r))).blank (by simp)

theorem reads_number (number : UInt16) (ss : List Statement) :
    readToken line
      (Text.ofNat number.toNat ++ (Listing.statements letters ss ++ '\n' :: r)) =
      .token (numberToken line number) (Listing.statements letters ss ++ '\n' :: r) line := by
  obtain ⟨c, rest, htext, hdigit, hpoint⟩ : ∃ c rest,
      Listing.statements letters ss ++ '\n' :: r = c :: rest ∧ c.isDigit = false ∧ c ≠ '.' := by
    cases ss with
    | nil => exact ⟨'\n', r, rfl, by decide, by decide⟩
    | cons s ss =>
      exact ⟨' ', _, Listing.statements_cons s ss, by decide, by decide⟩
  obtain ⟨d, hd, hnumber⟩ := Binary64.isDigit_head_ofNat number.toNat (c :: rest)
  have hcut : Lexeme.cut (Text.ofNat number.toNat ++ c :: rest) =
      some (.number (.ofDecimal (Text.ofNat number.toNat) []), c :: rest) := by
    obtain ⟨more, hmore⟩ := List.head?_eq_some_iff.1 hd
    rw [hmore, Lexeme.cut_numeric (ofChar_of_isDigit hnumber), ← hmore]
    exact congrArg some (Lexeme.cutNumber_whole (Decimal.isDigit_ofNat _)
      (stops_cons.2 hdigit) (by simpa using hpoint))
  rw [htext, readToken_eq, hcut, readLexeme]
  rfl

theorem reads_line {l : Line} (hproper : ProperStatements l.statements)
    (hkeeps : ∀ s ∈ l.statements, s.KeepsBytes) :
    Reads line (Listing.line letters l ++ r)
      (numberToken line l.number ::
        (join line (l.statements.map (Statement.reread letters line)) ++ [⟨line, .lineEnd⟩]))
      (line + 1) r := by
  rw [Listing.line_append]
  exact .cons (reads_number l.number l.statements) (reads_statements hproper hkeeps)

end Lexing

namespace Program

open Lexing

theorem linesOf_reread {id : Nat} {l : Line} (hproper : l.Proper) (us : List Token) :
    linesOf id (numberToken line l.number ::
        (join line (l.statements.map (Statement.reread letters line)) ++ [⟨line, .lineEnd⟩]) ++ us) =
      (linesOf id us).map (l.reread letters id line :: ·) := by
  have hmem : ∀ s ∈ l.statements.map (Statement.reread letters line), ∀ t ∈ s,
      t.kind ≠ .lineEnd ∧ t.kind ≠ .colon := by
    rw [List.forall_mem_map]
    exact fun s hs => Statement.mem_reread (hproper.statements.token s hs)
  have hne : l.statements.map (Statement.reread letters line) ≠ [[]] := by
    intro h
    obtain ⟨s, hs, hnil⟩ := List.map_eq_singleton_iff.1 h
    exact hproper.ne_blank (by rw [hs, Statement.reread_eq_nil.1 hnil])
  have hflat := @linesOf_flatten line id (l.reread letters id line)
    ⟨hproper.number_le, hmem, hne⟩ us
  rwa [Line.flatten, ← numberToken_eq] at hflat

end Program

end Applesoft
