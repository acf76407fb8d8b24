import Applesoft.Proofs.Grouping

/-!
# Lines laid flat

The tokens of a line are its number, its statements with colons between them, and its end. Grouped
again they are that line, unless its only statement is an empty one: a line with nothing after its
number has no statement.
-/
namespace Applesoft

variable {line : Nat}

namespace Lexing

def restOfLine (ts : List Token) : List Token := ts.takeWhile (!·.isLineEnd)

theorem restOfLine_cons {t : Token} (ht : t.kind ≠ .lineEnd) (ts : List Token) :
    restOfLine (t :: ts) = t :: restOfLine ts :=
  List.takeWhile_cons_of_pos (by simpa [Token.isLineEnd] using ht)

def join (line : Nat) : List Statement → List Token
  | [] => []
  | s :: rest => s ++ rest.flatMap (⟨line, .colon⟩ :: ·)

theorem isLineEnd_join {ss : List Statement} (h : ∀ s ∈ ss, ∀ t ∈ s, t.kind ≠ .lineEnd) :
    ∀ t ∈ join line ss, t.isLineEnd = false := by
  intro t ht
  cases ss with
  | nil => cases ht
  | cons s rest =>
    rw [List.forall_mem_cons] at h
    rcases List.mem_append.1 ht with ht | ht
    · simpa [Token.isLineEnd] using h.1 t ht
    · obtain ⟨s', hs', ht⟩ := List.mem_flatMap.1 ht
      rcases List.mem_cons.1 ht with rfl | ht
      · rfl
      · simpa [Token.isLineEnd] using h.2 s' hs' t ht

def numberToken (line : Nat) (number : UInt16) : Token :=
  ⟨line, .number (.ofDecimal (Text.ofNat number.toNat) [])⟩

theorem numberToken_eq (line : Nat) (number : UInt16) :
    numberToken line number = ⟨line, .number (.ofNat number.toNat)⟩ := by
  rw [numberToken, Binary64.ofDecimal_ofNat]

end Lexing

theorem TokenKind.isLineNumber_ofNat {n : UInt16} (h : n.toNat ≤ largestLineNumber) :
    (TokenKind.number (.ofNat n.toNat)).IsLineNumber n := by
  have hexact : n.toNat < 2 ^ 53 := by
    unfold largestLineNumber at h
    omega
  exact ⟨_, rfl, Binary64.toInt?_ofNat hexact, h⟩

theorem Lexing.asLineNumber_numberToken {number : UInt16}
    (h : number.toNat ≤ largestLineNumber) :
    (numberToken line number).asLineNumber = .ok number := by
  rw [numberToken_eq]
  exact Token.asLineNumber_eq_ok_iff.2 (TokenKind.isLineNumber_ofNat h)

def Line.flatten (line : Nat) (l : Line) : List Token :=
  ⟨line, .number (.ofNat l.number.toNat)⟩ ::
    (Lexing.join line l.statements ++ [⟨line, .lineEnd⟩])

structure Line.Regroups (l : Line) : Prop where
  number_le : l.number.toNat ≤ largestLineNumber
  token : ∀ s ∈ l.statements, ∀ t ∈ s, t.kind ≠ .lineEnd ∧ t.kind ≠ .colon
  ne_blank : l.statements ≠ [[]]

namespace Program

open Lexing

theorem splitStatements_join {s : Statement} {rest : List Statement}
    (h : ∀ s' ∈ s :: rest, ∀ t ∈ s', t.kind ≠ .colon) :
    splitStatements (s ++ rest.flatMap (⟨line, .colon⟩ :: ·)) = s :: rest := by
  induction rest generalizing s with
  | nil =>
    rw [List.flatMap_nil, List.append_nil]
    exact splitStatements_of_no_colon (h s List.mem_cons_self)
  | cons s' rest ih =>
    rw [List.flatMap_cons, List.cons_append,
      splitStatements_cons_colon (h s List.mem_cons_self) rfl,
      ih fun s'' hs'' => h s'' (List.mem_cons_of_mem _ hs'')]

theorem lineStatements_join {ss : List Statement} (hne : ss ≠ [[]])
    (h : ∀ s ∈ ss, ∀ t ∈ s, t.kind ≠ .colon) : lineStatements (join line ss) = ss := by
  cases ss with
  | nil => rfl
  | cons s rest =>
    rw [lineStatements_eq, join, splitStatements_join h]
    intro hnil
    obtain ⟨rfl, hrest⟩ := List.append_eq_nil_iff.1 hnil
    cases rest with
    | nil => exact hne rfl
    | cons s' rest => cases hrest

theorem linesOf_cons {id : Nat} {t : Token} {number : UInt16} {rest : List Token}
    (ht : t.isLineEnd = false) (hnumber : t.asLineNumber = .ok number) :
    linesOf id (t :: rest) = (linesOf id (rest.dropWhile (!·.isLineEnd))).map
      (⟨number, lineStatements (restOfLine rest), id⟩ :: ·) := by
  rw [linesOf, if_neg (by simp [ht]), hnumber]
  cases linesOf id (rest.dropWhile (!·.isLineEnd)) <;> rfl

theorem linesOf_lineEnd {id : Nat} {t : Token} {rest : List Token} (ht : t.isLineEnd = true) :
    linesOf id (t :: rest) = linesOf id rest := by
  rw [linesOf, if_pos ht]

/-- The tokens of a line are read as that line, whatever follows them. -/
theorem linesOf_flatten {id : Nat} {l : Line} (h : l.Regroups) (us : List Token) :
    linesOf id (l.flatten line ++ us) =
      (linesOf id us).map (⟨l.number, l.statements, id⟩ :: ·) := by
  have hends : ∀ t ∈ join line l.statements, (!t.isLineEnd) = true := by
    simpa using isLineEnd_join fun s hs t ht => (h.token s hs t ht).1
  have hend : (⟨line, .lineEnd⟩ : Token).isLineEnd = true := rfl
  have hnumber : Token.asLineNumber ⟨line, .number (.ofNat l.number.toNat)⟩ = .ok l.number :=
    Token.asLineNumber_eq_ok_iff.2 (TokenKind.isLineNumber_ofNat h.number_le)
  rw [Line.flatten, List.cons_append, List.append_assoc, List.singleton_append,
    linesOf_cons rfl hnumber, restOfLine, List.takeWhile_append_of_pos hends,
    List.dropWhile_append_of_pos hends, List.takeWhile_cons_of_neg (by simp [hend]),
    List.dropWhile_cons_of_neg (by simp [hend]), List.append_nil, linesOf_lineEnd hend,
    lineStatements_join h.ne_blank fun s hs t ht => (h.token s hs t ht).2]

theorem linesOf_flatMap_flatten {id : Nat} (stamp : Line → Nat) {lines : List Line}
    (h : ∀ l ∈ lines, l.Regroups) :
    linesOf id (lines.flatMap fun l => l.flatten (stamp l)) =
      .ok (lines.map fun l => { l with owner := id }) := by
  induction lines with
  | nil => rw [List.flatMap_nil, linesOf, List.map_nil]
  | cons l rest ih =>
    rw [List.forall_mem_cons] at h
    rw [List.flatMap_cons, linesOf_flatten h.1, ih h.2]
    rfl

end Program

end Applesoft
