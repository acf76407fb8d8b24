import Mathlib.Data.List.Induction
import Applesoft.Proofs.RenumberedNumbers

/-!
# References

Whether a number of a statement is a reference depends on the kinds of the tokens before it alone.
So relabelling leaves the references where they are, and nothing but their values changes.
-/
namespace Applesoft

def TokenKind.IsSeparator (k : TokenKind) : Prop := k = .punct ',' ∨ k = .keyword .minus

/-- What stands before a reference in its statement: a keyword that takes line numbers, or another
reference and a comma or minus. -/
inductive LeadsToReference : List TokenKind → Prop
  | keyword (before : List TokenKind) (w : Keyword) (hw : w.takesReferences = true) :
      LeadsToReference (before ++ [.keyword w])
  | separator (before : List TokenKind) (value : Binary64) (k : TokenKind)
      (hbefore : LeadsToReference before) (hk : k.IsSeparator) :
      LeadsToReference (before ++ [.number value] ++ [k])

def Statement.RefersAt (s : Statement) (i : Nat) (value : Binary64) : Prop :=
  s[i]?.map Token.kind = some (.number value) ∧ LeadsToReference ((s.take i).map Token.kind)

def Program.RefersAt (p : Program) (line statement place : Nat) (value : Binary64) : Prop :=
  ∃ l s, p.lines[line]? = some l ∧ l.statements[statement]? = some s ∧ s.RefersAt place value

theorem not_leadsToReference_nil : ¬ LeadsToReference [] := by
  intro h
  generalize hks : ([] : List TokenKind) = ks at h
  cases h <;> simp at hks

theorem leadsToReference_concat {ks : List TokenKind} {k : TokenKind} :
    LeadsToReference (ks ++ [k]) ↔ (∃ w, k = .keyword w ∧ w.takesReferences = true) ∨
      k.IsSeparator ∧ ∃ before value, ks = before ++ [.number value] ∧ LeadsToReference before := by
  constructor
  · intro h
    generalize hks : ks ++ [k] = all at h
    cases h with
    | keyword before w hw =>
      obtain ⟨-, hk⟩ := List.append_inj' hks rfl
      exact .inl ⟨w, List.singleton_inj.1 hk, hw⟩
    | separator before value k' hbefore hk' =>
      obtain ⟨rfl, hk⟩ := List.append_inj' hks rfl
      obtain rfl := List.singleton_inj.1 hk
      exact .inr ⟨hk', before, value, rfl, hbefore⟩
  · rintro (⟨w, rfl, hw⟩ | ⟨hk, before, value, rfl, hbefore⟩)
    · exact .keyword ks w hw
    · exact .separator before value k hbefore hk

namespace Renumbering

variable (move : UInt16 → Option UInt16)

def Awaiting.after (awaiting : Awaiting) : TokenKind → Awaiting
  | .keyword w =>
    if w.takesReferences = true ∨ w = .minus ∧ awaiting = .separator then .reference else .nothing
  | .number _ => if awaiting = .reference then .separator else .nothing
  | .punct c => if c = ',' ∧ awaiting = .separator then .reference else .nothing
  | _ => .nothing

def awaitingAfter (ks : List TokenKind) : Awaiting := ks.foldl Awaiting.after .nothing

def relabelKind : TokenKind → TokenKind
  | .number value => .number (relabelNumber move value)
  | k => k

theorem relabelToken_eq (awaiting : Awaiting) (t : Token) :
    relabelToken move awaiting t =
      (if awaiting = .reference then { t with kind := relabelKind move t.kind } else t,
        awaiting.after t.kind) := by
  obtain ⟨line, k⟩ := t
  cases k with
  | keyword w =>
    by_cases htakes : w.takesReferences = true
    · simp [relabelToken, relabelKind, Awaiting.after, htakes]
    · by_cases hminus : w = .minus ∧ awaiting = .separator
      · obtain ⟨rfl, rfl⟩ := hminus
        rfl
      · simp [relabelToken, relabelKind, Awaiting.after, htakes, hminus]
  | number value => cases awaiting <;> rfl
  | punct c =>
    by_cases hcomma : c = ','
    · subst hcomma
      cases awaiting <;> rfl
    · cases awaiting <;> simp [relabelToken, relabelKind, Awaiting.after, hcomma]
  | lineEnd | identifier | quoted | directive | comment => cases awaiting <;> rfl

theorem after_relabelKind (awaiting : Awaiting) (k : TokenKind) :
    awaiting.after (relabelKind move k) = awaiting.after k := by
  cases k <;> rfl

theorem relabelTokens_cons (awaiting : Awaiting) (t : Token) (rest : List Token) :
    relabelTokens move awaiting (t :: rest) =
      (if awaiting = .reference then { t with kind := relabelKind move t.kind } else t) ::
        relabelTokens move (awaiting.after t.kind) rest := by
  rw [relabelTokens, relabelToken_eq]

theorem take_relabelTokens (awaiting : Awaiting) (ts : List Token) (i : Nat) :
    (relabelTokens move awaiting ts).take i = relabelTokens move awaiting (ts.take i) := by
  induction ts generalizing awaiting i with
  | nil => simp [relabelTokens]
  | cons t rest ih =>
    cases i with
    | zero => rfl
    | succ i => rw [relabelTokens_cons, List.take_succ_cons, ih, List.take_succ_cons, relabelTokens_cons]

/-- The numbers put in do not matter for what comes after them. -/
theorem foldl_after_relabelTokens (awaiting start : Awaiting) (ts : List Token) :
    ((relabelTokens move awaiting ts).map Token.kind).foldl Awaiting.after start =
      (ts.map Token.kind).foldl Awaiting.after start := by
  induction ts generalizing awaiting start with
  | nil => rfl
  | cons t rest ih =>
    rw [relabelTokens_cons, List.map_cons, List.map_cons, List.foldl_cons, List.foldl_cons, ih]
    split
    · rw [after_relabelKind]
    · rfl

theorem getElem?_relabelTokens (awaiting : Awaiting) (ts : List Token) (i : Nat) :
    (relabelTokens move awaiting ts)[i]? = ts[i]?.map fun t =>
      if ((ts.take i).map Token.kind).foldl Awaiting.after awaiting = .reference then
        { t with kind := relabelKind move t.kind } else t := by
  induction ts generalizing awaiting i with
  | nil => simp [relabelTokens]
  | cons t rest ih =>
    rw [relabelTokens_cons]
    cases i with
    | zero => rfl
    | succ i => rw [List.getElem?_cons_succ, ih]; rfl

theorem awaitingAfter_concat (ks : List TokenKind) (k : TokenKind) :
    awaitingAfter (ks ++ [k]) = (awaitingAfter ks).after k := by
  rw [awaitingAfter, List.foldl_append]
  rfl

theorem after_eq_reference_iff {awaiting : Awaiting} {k : TokenKind} :
    awaiting.after k = .reference ↔ (∃ w, k = .keyword w ∧ w.takesReferences = true) ∨
      k.IsSeparator ∧ awaiting = .separator := by
  unfold Awaiting.after TokenKind.IsSeparator
  cases k with
  | keyword w => by_cases htakes : w.takesReferences = true <;> simp [htakes]
  | number value => cases awaiting <;> simp
  | punct c => simp
  | lineEnd | identifier | quoted | directive | comment => simp

theorem after_eq_separator_iff {awaiting : Awaiting} {k : TokenKind} :
    awaiting.after k = .separator ↔ awaiting = .reference ∧ ∃ value, k = .number value := by
  unfold Awaiting.after
  cases k with
  | number value => cases awaiting <;> simp
  | keyword w => dsimp only; split <;> simp
  | punct c => dsimp only; split <;> simp
  | lineEnd | identifier | quoted | directive | comment => simp

/-- A number is awaited as a reference after exactly the kinds that lead to one; the state after such
a number is carried along. -/
theorem awaitingAfter_iff (ks : List TokenKind) :
    (awaitingAfter ks = .reference ↔ LeadsToReference ks) ∧
      (awaitingAfter ks = .separator ↔
        ∃ before value, ks = before ++ [.number value] ∧ LeadsToReference before) := by
  -- from the end: both the state and what leads to a reference are told by the last kind
  induction ks using List.reverseRecOn with
  | nil =>
    constructor
    · simp [awaitingAfter, not_leadsToReference_nil]
    · simp [awaitingAfter]
  | append_singleton ks k ih =>
    obtain ⟨hreference, hseparator⟩ := ih
    rw [awaitingAfter_concat]
    constructor
    · rw [after_eq_reference_iff, leadsToReference_concat, hseparator]
    · rw [after_eq_separator_iff, hreference]
      constructor
      · rintro ⟨hleads, value, rfl⟩
        exact ⟨ks, value, rfl, hleads⟩
      · rintro ⟨before, value, hks, hleads⟩
        obtain ⟨rfl, hk⟩ := List.append_inj' hks rfl
        exact ⟨hleads, value, List.singleton_inj.1 hk⟩

theorem leadsToReference_iff {ks : List TokenKind} :
    LeadsToReference ks ↔ awaitingAfter ks = .reference :=
  (awaitingAfter_iff ks).1.symm

variable {s : Statement} {i : Nat}

theorem leadsToReference_relabelStatement :
    LeadsToReference (((relabelStatement move s).take i).map Token.kind) ↔
      LeadsToReference ((s.take i).map Token.kind) := by
  rw [leadsToReference_iff, leadsToReference_iff, relabelStatement, take_relabelTokens,
    awaitingAfter, awaitingAfter, foldl_after_relabelTokens]

theorem getElem?_relabelStatement_reference (h : LeadsToReference ((s.take i).map Token.kind)) :
    (relabelStatement move s)[i]? =
      s[i]?.map fun t => { t with kind := relabelKind move t.kind } := by
  rw [leadsToReference_iff] at h
  rw [relabelStatement, getElem?_relabelTokens, ← awaitingAfter, h]
  rfl

theorem getElem?_relabelStatement_other (h : ¬ LeadsToReference ((s.take i).map Token.kind)) :
    (relabelStatement move s)[i]? = s[i]? := by
  rw [leadsToReference_iff] at h
  rw [relabelStatement, getElem?_relabelTokens, ← awaitingAfter]
  simp only [h, if_false, Option.map_id']

/-- Relabelling replaces the references of a statement by their own new values. -/
theorem refersAt_relabelStatement {value' : Binary64} :
    Statement.RefersAt (relabelStatement move s) i value' ↔
      ∃ value, s.RefersAt i value ∧ value' = relabelNumber move value := by
  unfold Statement.RefersAt
  rw [leadsToReference_relabelStatement]
  constructor
  · rintro ⟨hnumber, hleads⟩
    rw [getElem?_relabelStatement_reference move hleads] at hnumber
    cases ht : s[i]? with
    | none => simp [ht] at hnumber
    | some t =>
      rw [ht, Option.map_some, Option.map_some, Option.some.injEq] at hnumber
      obtain ⟨line, k⟩ := t
      cases k with
      | number value =>
        obtain rfl := TokenKind.number.inj hnumber
        exact ⟨value, ⟨rfl, hleads⟩, rfl⟩
      | _ => cases hnumber
  · rintro ⟨value, ⟨hnumber, hleads⟩, rfl⟩
    refine ⟨?_, hleads⟩
    obtain ⟨t, ht, hkind⟩ := Option.map_eq_some_iff.1 hnumber
    rw [getElem?_relabelStatement_reference move hleads, ht, Option.map_some, Option.map_some, hkind]
    rfl

end Renumbering

open Renumbering

theorem Program.refersAt_relabel {p : Program} {move : UInt16 → Option UInt16}
    {line statement place : Nat} {value' : Binary64} :
    (p.relabel move).RefersAt line statement place value' ↔
      ∃ value, p.RefersAt line statement place value ∧ value' = relabelNumber move value := by
  unfold Program.RefersAt Program.relabel
  simp only [List.getElem?_map, Option.map_eq_some_iff]
  constructor
  · rintro ⟨_, s', ⟨l, hl, rfl⟩, hs', hrefers⟩
    simp only [relabelLine, List.getElem?_map, Option.map_eq_some_iff] at hs'
    obtain ⟨s, hs, rfl⟩ := hs'
    obtain ⟨value, hvalue, rfl⟩ := (refersAt_relabelStatement move).1 hrefers
    exact ⟨value, ⟨l, s, hl, hs, hvalue⟩, rfl⟩
  · rintro ⟨value, ⟨l, s, hl, hs, hvalue⟩, rfl⟩
    refine ⟨_, relabelStatement move s, ⟨l, hl, rfl⟩, ?_,
      (refersAt_relabelStatement move).2 ⟨value, hvalue, rfl⟩⟩
    simp only [relabelLine, List.getElem?_map, hs, Option.map_some]

end Applesoft
