import Applesoft.Proofs.References

/-!
# Where references stand

Looking back over a statement, a reference stands at an odd distance after a keyword that takes line
numbers, with numbers at the odd distances on the way and separators at the even ones. This tells what
relabelling does at each place of a program: it changes references and nothing else.
-/
namespace Applesoft

/-- Numbers at the odd distances after a start, and separators at the even ones. -/
def AlternatesAfter (ks : List TokenKind) (start distance : Nat) : Prop :=
  ∀ d, 1 ≤ d → d ≤ distance →
    (d % 2 = 1 → ∃ value, ks[start + d]? = some (.number value)) ∧
    (d % 2 = 0 → ∃ k, ks[start + d]? = some k ∧ k.IsSeparator)

def Statement.kinds (s : Statement) : List TokenKind := s.map Token.kind

/-- A number at an odd distance after a keyword that takes line numbers, with nothing on the way but
numbers and, between one and the next, separators. -/
def Statement.IsReference (s : Statement) (place : Nat) : Prop :=
  ∃ start distance w, place = start + distance ∧ distance % 2 = 1 ∧
    s.kinds[start]? = some (.keyword w) ∧ w.takesReferences = true ∧
    AlternatesAfter s.kinds start distance

section Alternation

variable {ks : List TokenKind} {start distance : Nat}

theorem getElem?_append_of_eq_some {α : Type} {xs : List α} {i : Nat} {a : α} (h : xs[i]? = some a)
    (ys : List α) : (xs ++ ys)[i]? = some a := by
  have hi := (List.getElem?_eq_some_iff.1 h).1
  rw [List.getElem?_append_left hi, h]

theorem alternatesAfter_zero (ks : List TokenKind) (start : Nat) : AlternatesAfter ks start 0 := by
  intro d hlow hhigh
  omega

theorem AlternatesAfter.append (h : AlternatesAfter ks start distance) (more : List TokenKind) :
    AlternatesAfter (ks ++ more) start distance := by
  intro d hlow hhigh
  obtain ⟨hodd, heven⟩ := h d hlow hhigh
  constructor
  · intro hd
    obtain ⟨value, hvalue⟩ := hodd hd
    exact ⟨value, getElem?_append_of_eq_some hvalue more⟩
  · intro hd
    obtain ⟨k, hk, hseparator⟩ := heven hd
    exact ⟨k, getElem?_append_of_eq_some hk more, hseparator⟩

theorem AlternatesAfter.mono {distance' : Nat} (h : AlternatesAfter ks start distance)
    (hle : distance' ≤ distance) : AlternatesAfter ks start distance' := by
  intro d hlow hhigh
  exact h d hlow (hhigh.trans hle)

theorem AlternatesAfter.number {value : Binary64} (h : AlternatesAfter ks start distance)
    (heven : distance % 2 = 0) (hvalue : ks[start + (distance + 1)]? = some (.number value)) :
    AlternatesAfter ks start (distance + 1) := by
  intro d hlow hhigh
  by_cases hd : d ≤ distance
  · exact h d hlow hd
  · obtain rfl : d = distance + 1 := by omega
    exact ⟨fun _ => ⟨value, hvalue⟩, fun hd => by omega⟩

theorem AlternatesAfter.separator {k : TokenKind} (h : AlternatesAfter ks start distance)
    (hodd : distance % 2 = 1) (hk : ks[start + (distance + 1)]? = some k) (hseparator : k.IsSeparator) :
    AlternatesAfter ks start (distance + 1) := by
  intro d hlow hhigh
  by_cases hd : d ≤ distance
  · exact h d hlow hd
  · obtain rfl : d = distance + 1 := by omega
    exact ⟨fun hd => by omega, fun _ => ⟨k, hk, hseparator⟩⟩

/-- What leads to a reference goes back to a keyword at an even distance from its last token. -/
theorem exists_alternates_of_leadsToReference (h : LeadsToReference ks) :
    ∃ start distance w, ks.length = start + distance + 1 ∧ distance % 2 = 0 ∧
      ks[start]? = some (.keyword w) ∧ w.takesReferences = true ∧
      AlternatesAfter ks start distance := by
  induction h with
  | keyword before w hw =>
    exact ⟨before.length, 0, w, by simp, rfl, by simp, hw, alternatesAfter_zero _ _⟩
  | separator before value k _ hk ih =>
    obtain ⟨start, distance, w, hlength, heven, hkeyword, hw, halternates⟩ := ih
    have hvalue : (before ++ [.number value] ++ [k])[start + (distance + 1)]? =
        some (.number value) := by
      rw [← Nat.add_assoc, ← hlength]
      simp
    have hlast : (before ++ [.number value] ++ [k])[start + (distance + 1 + 1)]? = some k := by
      rw [← Nat.add_assoc, ← Nat.add_assoc, ← hlength]
      simp
    have hkeyword' := getElem?_append_of_eq_some
      (getElem?_append_of_eq_some hkeyword [.number value]) [k]
    refine ⟨start, distance + 2, w, ?_, by omega, hkeyword', hw, ?_⟩
    · simp only [List.length_append, List.length_singleton, hlength]
      omega
    · have hnumber := ((halternates.append [.number value]).append [k]).number heven hvalue
      exact hnumber.separator (by omega) hlast hk

/-- A keyword and pairs of a number and a separator after it lead to a reference. -/
theorem leadsToReference_of_alternates {w : Keyword} (hkeyword : ks[start]? = some (.keyword w))
    (hw : w.takesReferences = true) (pairs : Nat) (h : AlternatesAfter ks start (2 * pairs)) :
    LeadsToReference (ks.take (start + 2 * pairs + 1)) := by
  induction pairs with
  | zero =>
    rw [List.take_add_one, hkeyword]
    exact .keyword _ w hw
  | succ pairs ih =>
    obtain ⟨value, hvalue⟩ := (h (2 * pairs + 1) (by omega) (by omega)).1 (by omega)
    obtain ⟨k, hk, hseparator⟩ := (h (2 * pairs + 2) (by omega) (by omega)).2 (by omega)
    have hbefore := ih (h.mono (by omega))
    have htake : ks.take (start + 2 * (pairs + 1) + 1) =
        ks.take (start + 2 * pairs + 1) ++ [.number value] ++ [k] := by
      rw [show start + 2 * (pairs + 1) + 1 = start + (2 * pairs + 2) + 1 by omega,
        List.take_add_one, hk, show start + (2 * pairs + 2) = start + (2 * pairs + 1) + 1 by omega,
        List.take_add_one, hvalue]
      rfl
    rw [htake]
    exact .separator _ value k hbefore hseparator

end Alternation

namespace Statement

variable {s : Statement} {place : Nat}

theorem kinds_take_append (s : Statement) (place : Nat) :
    s.kinds = (s.take place).map Token.kind ++ (s.drop place).map Token.kind := by
  rw [kinds, ← List.map_append, List.take_append_drop]

/-- The numbers that are awaited as references are those at odd distances after their keyword. -/
theorem isReference_iff : s.IsReference place ↔ ∃ value, s.RefersAt place value := by
  constructor
  · rintro ⟨start, distance, w, rfl, hodd, hkeyword, hw, halternates⟩
    have hdistance : 2 * (distance / 2) + 1 = distance := by omega
    obtain ⟨value, hvalue⟩ := (halternates distance (by omega) (Nat.le_refl _)).1 hodd
    have hleads := leadsToReference_of_alternates hkeyword hw (distance / 2)
      (halternates.mono (by omega))
    rw [Nat.add_assoc, hdistance, kinds, ← List.map_take] at hleads
    rw [kinds, List.getElem?_map] at hvalue
    exact ⟨value, hvalue, hleads⟩
  · rintro ⟨value, hvalue, hleads⟩
    obtain ⟨start, distance, w, hlength, heven, hkeyword, hw, halternates⟩ :=
      exists_alternates_of_leadsToReference hleads
    have hplace : place = start + (distance + 1) := by
      obtain ⟨t, ht, -⟩ := Option.map_eq_some_iff.1 hvalue
      have hlt := (List.getElem?_eq_some_iff.1 ht).1
      rw [List.length_map, List.length_take] at hlength
      omega
    have hnumber : s.kinds[start + (distance + 1)]? = some (.number value) := by
      rw [← hplace, kinds, List.getElem?_map, hvalue]
    refine ⟨start, distance + 1, w, hplace, by omega, ?_, hw, ?_⟩
    · rw [kinds_take_append s place]
      exact getElem?_append_of_eq_some hkeyword _
    · refine AlternatesAfter.number ?_ heven hnumber
      rw [kinds_take_append s place]
      exact halternates.append _

end Statement

namespace Renumbering

variable (move : UInt16 → Option UInt16) {s : Statement} {place : Nat}

theorem length_relabelStatement (s : Statement) :
    List.length (relabelStatement move s) = List.length s := by
  have hlength (awaiting : Awaiting) (ts : List Token) :
      (relabelTokens move awaiting ts).length = ts.length := by
    induction ts generalizing awaiting with
    | nil => rfl
    | cons t rest ih => rw [relabelTokens_cons, List.length_cons, List.length_cons, ih]
  exact hlength .nothing s

theorem getElem?_relabelStatement_of_isReference (h : s.IsReference place) :
    (relabelStatement move s)[place]? =
      s[place]?.map fun t => { t with kind := relabelKind move t.kind } := by
  obtain ⟨value, -, hleads⟩ := Statement.isReference_iff.1 h
  exact getElem?_relabelStatement_reference move hleads

theorem getElem?_relabelStatement_of_not_isReference (h : ¬ s.IsReference place) :
    (relabelStatement move s)[place]? = s[place]? := by
  by_cases hleads : LeadsToReference ((s.take place).map Token.kind)
  · -- what is awaited as a reference but is no number is not touched
    rw [getElem?_relabelStatement_reference move hleads]
    cases ht : s[place]? with
    | none => rfl
    | some t =>
      obtain ⟨line, k⟩ := t
      cases k with
      | number value =>
        have hvalue : s[place]?.map Token.kind = some (.number value) := by
          rw [ht]
          rfl
        exact absurd (Statement.isReference_iff.2 ⟨value, hvalue, hleads⟩) h
      | _ => rfl
  · exact getElem?_relabelStatement_other move hleads

end Renumbering

open Renumbering

namespace Program

variable {p : Program} {move : UInt16 → Option UInt16} {line statement place : Nat}

def statementAt? (p : Program) (line statement : Nat) : Option Statement :=
  p.lines[line]?.bind fun l => l.statements[statement]?

def tokenAt? (p : Program) (line statement place : Nat) : Option Token :=
  (p.statementAt? line statement).bind fun s => s[place]?

def shape (p : Program) : List (List Nat) :=
  p.lines.map fun l => l.statements.map List.length

def IsReference (p : Program) (line statement place : Nat) : Prop :=
  ∃ s, p.statementAt? line statement = some s ∧ s.IsReference place

theorem refersAt_iff {value : Binary64} : p.RefersAt line statement place value ↔
    p.IsReference line statement place ∧
      ∃ t, p.tokenAt? line statement place = some t ∧ t.kind = .number value := by
  constructor
  · rintro ⟨l, s, hl, hs, hrefers⟩
    have hstatement : p.statementAt? line statement = some s := by
      rw [statementAt?, hl, Option.bind_some, hs]
    obtain ⟨t, ht, hkind⟩ := Option.map_eq_some_iff.1 hrefers.1
    refine ⟨⟨s, hstatement, Statement.isReference_iff.2 ⟨value, hrefers⟩⟩, t, ?_, hkind⟩
    rw [tokenAt?, hstatement, Option.bind_some, ht]
  · rintro ⟨⟨s, hstatement, hreference⟩, t, ht, hkind⟩
    obtain ⟨value', -, hleads⟩ := Statement.isReference_iff.1 hreference
    obtain ⟨l, hl, hs⟩ := Option.bind_eq_some_iff.1 hstatement
    rw [tokenAt?, hstatement, Option.bind_some] at ht
    exact ⟨l, s, hl, hs, by rw [ht, Option.map_some, hkind], hleads⟩

theorem shape_relabel (p : Program) (move : UInt16 → Option UInt16) :
    (p.relabel move).shape = p.shape := by
  simp [shape, relabel, relabelLine, Function.comp_def, length_relabelStatement]

theorem statementAt?_relabel :
    (p.relabel move).statementAt? line statement =
      (p.statementAt? line statement).map (relabelStatement move) := by
  rw [statementAt?, statementAt?, relabel, List.getElem?_map]
  cases p.lines[line]? with
  | none => rfl
  | some l => exact List.getElem?_map

theorem tokenAt?_relabel_of_isReference (h : p.IsReference line statement place) :
    (p.relabel move).tokenAt? line statement place =
      (p.tokenAt? line statement place).map fun t =>
        { t with kind := relabelKind move t.kind } := by
  obtain ⟨s, hs, hreference⟩ := h
  rw [tokenAt?, tokenAt?, statementAt?_relabel, hs]
  exact getElem?_relabelStatement_of_isReference move hreference

theorem tokenAt?_relabel_of_not_isReference (h : ¬ p.IsReference line statement place) :
    (p.relabel move).tokenAt? line statement place = p.tokenAt? line statement place := by
  rw [tokenAt?, tokenAt?, statementAt?_relabel]
  cases hs : p.statementAt? line statement with
  | none => rfl
  | some s =>
    refine getElem?_relabelStatement_of_not_isReference move fun hreference => ?_
    exact h ⟨s, hs, hreference⟩

end Program

end Applesoft
