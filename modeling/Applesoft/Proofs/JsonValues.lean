import Mathlib.Algebra.Group.Nat.Defs
import Mathlib.Data.Char
import Mathlib.Data.List.Lex
import Applesoft.Json

/-!
# Values in order

A value has whole numbers of 64 bits only, and each object in it has one value for a key and its keys in
order. What is looked up under a key is then all there is under it.
-/
namespace Applesoft.Json

/-- The form that values of a text have. -/
inductive WellFormed : Json → Prop
  | null : WellFormed .null
  | bool (b : Bool) : WellFormed (.bool b)
  | natural {n : Nat} (h : n < 2 ^ 64) : WellFormed (.natural n)
  | number (text : Text) : WellFormed (.number text)
  | string (text : Text) : WellFormed (.string text)
  | array {items : List Json} (h : ∀ v ∈ items, WellFormed v) : WellFormed (.array items)
  | object {fields : List (Text × Json)} (hkeys : fields.Pairwise (·.1 < ·.1))
      (h : ∀ field ∈ fields, WellFormed field.2) : WellFormed (.object fields)

inductive Holds : Json → List Text → Json → Prop
  | here (v : Json) : Holds v [] v
  | within {fields : List (Text × Json)} {key : Text} {value x : Json} {path : List Text}
      (hmem : (key, value) ∈ fields) (h : Holds value path x) : Holds (.object fields) (key :: path) x

def fields : Json → List (Text × Json)
  | .object fields => fields
  | _ => []

section Paths

variable {v x : Json} {path : List Text}

theorem Holds.wellFormed (h : v.Holds path x) (hv : v.WellFormed) : x.WellFormed := by
  induction h with
  | here => exact hv
  | within hmem _ ih =>
    cases hv with
    | object _ hvalues => exact ih (hvalues _ hmem)

theorem holds_nil : v.Holds [] x ↔ x = v := by
  constructor
  · rintro ⟨⟩
    rfl
  · rintro rfl
    exact .here x

theorem holds_cons {key : Text} :
    v.Holds (key :: path) x ↔ ∃ value, (key, value) ∈ v.fields ∧ value.Holds path x := by
  constructor
  · rintro ⟨⟩
    next hmem h => exact ⟨_, hmem, h⟩
  · rintro ⟨value, hmem, h⟩
    cases v with
    | object fields => exact .within hmem h
    | _ => exact absurd hmem List.not_mem_nil

theorem WellFormed.pairwise_fields (h : v.WellFormed) : v.fields.Pairwise (·.1 < ·.1) := by
  cases h with
  | object hkeys _ => exact hkeys
  | _ => exact .nil

theorem WellFormed.of_mem_fields {field : Text × Json} (h : v.WellFormed) (hmem : field ∈ v.fields) :
    field.2.WellFormed :=
  (holds_cons.2 ⟨field.2, hmem, .here field.2⟩ : v.Holds [field.1] field.2).wellFormed h

/-- Where keys are in order, the only value for a key is the one that is looked up. -/
theorem WellFormed.lookup_fields (h : v.WellFormed) {key : Text} {value : Json} :
    v.fields.lookup key = some value ↔ (key, value) ∈ v.fields := by
  rw [List.lookup_eq_some_iff]
  constructor
  · rintro ⟨before, after, hfields, -⟩
    rw [hfields]
    exact List.mem_append_right before List.mem_cons_self
  · intro hmem
    obtain ⟨before, after, hfields⟩ := List.append_of_mem hmem
    refine ⟨before, after, hfields, fun field hfield => bne_iff_ne.2 (Ne.symm ?_)⟩
    have hkeys := h.pairwise_fields
    rw [hfields, List.pairwise_append] at hkeys
    exact (hkeys.2.2 field hfield (key, value) List.mem_cons_self).ne

theorem WellFormed.lookup_fields_holds (h : v.WellFormed) {key : Text} :
    v.fields.lookup key = some x ↔ v.Holds [key] x := by
  rw [h.lookup_fields]
  simp only [holds_cons, holds_nil, exists_eq_right']

/-- Where keys are in order, those below a key are the ones before it. -/
theorem filter_keys_lt {before after : List (Text × Json)} {field : Text × Json}
    (h : (before ++ field :: after).Pairwise (·.1 < ·.1)) :
    (before ++ field :: after).filter (·.1 < field.1) = before := by
  obtain ⟨-, hafter, hbefore⟩ := List.pairwise_append.1 h
  have hearlier : ∀ earlier ∈ before, decide (earlier.1 < field.1) = true := fun earlier hmem =>
    decide_eq_true (hbefore earlier hmem field List.mem_cons_self)
  have hlater : ∀ later ∈ field :: after, ¬ decide (later.1 < field.1) = true := by
    simp only [decide_eq_true_iff, List.forall_mem_cons]
    exact ⟨lt_irrefl field.1, fun later hmem => ((List.pairwise_cons.1 hafter).1 later hmem).not_gt⟩
  rw [List.filter_append, List.filter_eq_self.2 hearlier, List.filter_eq_nil_iff.2 hlater, List.append_nil]

end Paths

end Applesoft.Json
