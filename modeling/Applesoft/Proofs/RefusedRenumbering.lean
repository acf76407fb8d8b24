import Applesoft.Proofs.RenumberedNumbers

/-!
# Refused renumberings

A renumbering in place is refused exactly if the intended numbers are bad, counted without a stop,
and then it has changed nothing: all faults come from the check that goes before the pass.
-/
namespace Applesoft
namespace Renumbering

variable {r : Renumbering} {numbers : List UInt16}

theorem fits_none_iff {new : List Nat} :
    Fits none new ↔ new.Pairwise (· < ·) ∧ ∀ n ∈ new, n ≤ largestLineNumber := by
  rw [Fits, Option.toList_none, List.nil_append, List.isChain_iff_pairwise]

theorem not_fits_none_iff {new : List Nat} :
    ¬ Fits none new ↔ (∃ n ∈ new, largestLineNumber < n) ∨ ¬ new.Pairwise (· < ·) := by
  rw [fits_none_iff]
  constructor
  · intro hfits
    by_cases hascend : new.Pairwise (· < ·)
    · refine .inl ?_
      by_contra hnone
      refine hfits ⟨hascend, fun n hn => ?_⟩
      by_contra hlarge
      exact hnone ⟨n, hn, by omega⟩
    · exact .inr hascend
  · rintro (⟨n, hn, hlarge⟩ | hascend) ⟨hchain, hle⟩
    · have := hle n hn
      omega
    · exact hascend hchain

theorem exists_moves_error_iff :
    (∃ e, r.moves numbers = .error e) ↔ ¬ Fits none (r.intended numbers) := by
  constructor
  · rintro ⟨e, he⟩ hfits
    have hok := r.moves_eq_ok_iff.2 ⟨hfits, rfl⟩
    rw [he] at hok
    cases hok
  · intro hfits
    cases hmoves : r.moves numbers with
    | error e => exact ⟨e, rfl⟩
    | ok moves => exact absurd (r.moves_eq_ok_iff.1 hmoves).1 hfits

end Renumbering

open Renumbering

namespace Program

theorem renumberInPlace_fault_iff {r : Renumbering} {awaiting : Awaiting} {p : Program} {e : Error} :
    (p.renumberInPlace r awaiting).fault = some e ↔ r.moves p.numbers = .error e := by
  cases hmoves : r.moves p.numbers with
  | error e' =>
    rw [(renumberInPlace_of_error hmoves).2]
    simp
  | ok moves =>
    rw [(renumberInPlace_of_ok hmoves).2]
    simp

/-- A renumbering is refused if and only if an intended number is too large or the intended numbers do
not ascend, and a refused renumbering leaves the program as it was. -/
theorem renumberInPlace_refused (r : Renumbering) (awaiting : Awaiting) (p : Program) :
    ((∃ e, (p.renumberInPlace r awaiting).fault = some e) ↔
      (∃ n ∈ r.intended p.numbers, largestLineNumber < n) ∨
        ¬ (r.intended p.numbers).Pairwise (· < ·)) ∧
    ∀ e, (p.renumberInPlace r awaiting).fault = some e →
      (p.renumberInPlace r awaiting).value = p := by
  constructor
  · rw [← not_fits_none_iff, ← exists_moves_error_iff]
    simp only [renumberInPlace_fault_iff]
  · intro e he
    exact (renumberInPlace_of_error (renumberInPlace_fault_iff.1 he)).1

/-- The last number may be followed by a step to where no line is. -/
example : let p : Program := ⟨0, [⟨10, [], 0⟩, ⟨40, [], 0⟩]⟩
    (p.renumberInPlace ⟨0, 20, 30, maxCount⟩ .nothing).fault = none ∧
      (p.renumberInPlace ⟨0, 50, 30, maxCount⟩ .nothing).fault =
        some (.numberOutOfRange 40 maxCount) := by
  decide

end Program

end Applesoft
