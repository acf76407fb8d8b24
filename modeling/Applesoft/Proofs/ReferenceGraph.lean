import Applesoft.Proofs.MovedNumbers

/-!
# The lines that references name

Where every line has a number of its own, a renumbering keeps which line each reference names. A
reference that names no line is not changed, so it names one afterwards if a line is given just that
number.
-/
namespace Applesoft

open Renumbering

namespace Program

variable {p p' : Program} {r : Renumbering} {value : Binary64}

theorem numbers_renumbered (hnodup : p.numbers.Nodup) (h : p.renumber r = .ok p') :
    p'.numbers.map UInt16.toNat = r.intended p.numbers := by
  obtain ⟨hfits, rfl⟩ := renumber_eq_ok_iff.1 h
  rw [numbers_relabel]
  exact map_target_changes hnodup (by simp [intended]) hfits

theorem nodup_renumbered (hnodup : p.numbers.Nodup) (h : p.renumber r = .ok p') :
    p'.numbers.Nodup := by
  obtain ⟨hfits, -⟩ := renumber_eq_ok_iff.1 h
  have hascend := List.isChain_iff_pairwise.1 hfits.1
  rw [Option.toList_none, List.nil_append, ← numbers_renumbered hnodup h] at hascend
  apply List.Nodup.of_map UInt16.toNat
  exact hascend.imp fun hlt => Nat.ne_of_lt hlt

/-- A reference to a line becomes a reference to that line. -/
theorem lineFor?_relabelNumber {move : UInt16 → Option UInt16} (hnodup : p.numbers.Nodup)
    (hnodup' : (p.relabel move).numbers.Nodup) (hpositive : value.negative = false) {i : Nat}
    (hline : p.lineFor? value = some i) :
    (p.relabel move).lineFor? (relabelNumber move value) = some i := by
  obtain ⟨n, hn, hvalue⟩ := (lineFor?_eq_some_iff hnodup).1 hline
  refine (lineFor?_eq_some_iff hnodup').2 ⟨(move n).getD n, ?_, ?_⟩
  · rw [numbers_relabel, List.getElem?_map, hn, Option.map_some]
  · rw [relabelNumber_of_isNumber hpositive hvalue]
    have hexact := ((move n).getD n).toNat_lt
    exact Binary64.toInt?_ofNat (by omega)

/-- A reference to no line stays. -/
theorem relabelNumber_of_lineFor?_eq_none {new : List Nat} (hpositive : value.negative = false)
    (hle : ∀ n ∈ p.numbers, n.toNat ≤ largestLineNumber) (hline : p.lineFor? value = none) :
    relabelNumber (target (changes p.numbers new)) value = value := by
  rw [lineFor?_eq_none_iff] at hline
  apply relabelNumber_eq_self hpositive
  intro n v hmove
  have hn := mem_of_target hmove
  exact ⟨hle n hn, hline n hn⟩

theorem lineFor?_renumbered_eq_none_iff (hnodup : p.numbers.Nodup) (h : p.renumber r = .ok p') :
    p'.lineFor? value = none ↔ ∀ n ∈ r.intended p.numbers, value.toInt? ≠ some (n : Int) := by
  rw [lineFor?_eq_none_iff, ← numbers_renumbered hnodup h]
  simp

/-- A renumbering of source text with no number twice keeps the places of the references and the line
that each of them names. A reference that names no line keeps its value, and names a line afterwards
if and only if that value is among the new numbers. -/
theorem renumber_references {id : Nat} {source : Text} (hparse : parse id source = .ok p)
    (hnodup : p.numbers.Nodup) (h : p.renumber r = .ok p') (line statement place : Nat) :
    (∀ value, p.RefersAt line statement place value →
      ∃ value', p'.RefersAt line statement place value' ∧
        (∀ i, p.lineFor? value = some i → p'.lineFor? value' = some i) ∧
        (p.lineFor? value = none → value' = value ∧
          (p'.lineFor? value' = none ↔
            ∀ n ∈ r.intended p.numbers, value.toInt? ≠ some (n : Int)))) ∧
    ∀ value', p'.RefersAt line statement place value' →
      ∃ value, p.RefersAt line statement place value := by
  have hnodup' := nodup_renumbered hnodup h
  have hnone := @lineFor?_renumbered_eq_none_iff p p' r
  obtain ⟨-, rfl⟩ := renumber_eq_ok_iff.1 h
  constructor
  · intro value hvalue
    have hpositive := not_negative_of_parse hparse hvalue
    refine ⟨relabelNumber _ value, refersAt_relabel.2 ⟨value, hvalue, rfl⟩, ?_, ?_⟩
    · intro i hline
      exact lineFor?_relabelNumber hnodup hnodup' hpositive hline
    · intro hline
      have hsame := @relabelNumber_of_lineFor?_eq_none p value (r.intended p.numbers) hpositive
        (fun n => number_le_of_parse hparse) hline
      rw [hsame]
      exact ⟨rfl, hnone hnodup h⟩
  · intro value' hvalue'
    obtain ⟨value, hvalue, -⟩ := refersAt_relabel.1 hvalue'
    exact ⟨value, hvalue⟩

/-- Part of a program is renumbered. In a list the number before names no line, and the reference
follows the line that it names. -/
theorem renumber_references_list :
    ∃ p p', parse 0 "10 ON X GOTO 7,30\n30 END\n90 END\n".toList = .ok p ∧ p.numbers.Nodup ∧
      p.renumber ⟨0, 50, 20, 5⟩ = .ok p' ∧ p.RefersAt 0 0 5 (.ofNat 30) ∧
      p.lineFor? (.ofNat 30) = some 1 ∧
      ∃ value', p'.RefersAt 0 0 5 value' ∧ p'.lineFor? value' = some 1 := by
  let list (last : Nat) : Statement :=
    [⟨1, .keyword .on⟩, ⟨1, .identifier ['X']⟩, ⟨1, .keyword .goto⟩, ⟨1, .number (.ofNat 7)⟩,
      ⟨1, .punct ','⟩, ⟨1, .number (.ofNat last)⟩]
  let p : Program := ⟨0, [⟨10, [list 30], 0⟩, ⟨30, [[⟨2, .keyword .endRun⟩]], 0⟩,
    ⟨90, [[⟨3, .keyword .endRun⟩]], 0⟩]⟩
  let p' : Program := ⟨0, [⟨20, [list 25], 0⟩, ⟨25, [[⟨2, .keyword .endRun⟩]], 0⟩,
    ⟨90, [[⟨3, .keyword .endRun⟩]], 0⟩]⟩
  have hparse : parse 0 "10 ON X GOTO 7,30\n30 END\n90 END\n".toList = .ok p := by
    decide +kernel
  have hnodup : p.numbers.Nodup := by decide
  have h : p.renumber ⟨0, 50, 20, 5⟩ = .ok p' := by decide +kernel
  have hrefers : p.RefersAt 0 0 5 (.ofNat 30) :=
    ⟨_, list 30, rfl, rfl, rfl, .separator [_, _, _] (.ofNat 7) _
      (.keyword [.keyword .on, .identifier ['X']] .goto rfl) (.inl rfl)⟩
  have hline : p.lineFor? (.ofNat 30) = some 1 := by decide +kernel
  obtain ⟨value', hvalue', hkeeps, -⟩ :=
    (renumber_references hparse hnodup h 0 0 5).1 (.ofNat 30) hrefers
  exact ⟨p, p', hparse, hnodup, h, hrefers, hline, value', hvalue', hkeeps 1 hline⟩

/-- A line that is given the number of a reference to no line comes to be named by it. -/
theorem renumber_onto_dangling_reference :
    ∃ p p', parse 0 "10 GOTO 20\n".toList = .ok p ∧ p.numbers.Nodup ∧
      p.renumber ⟨0, maxCount, 20, 10⟩ = .ok p' ∧
      p.RefersAt 0 0 1 (.ofNat 20) ∧ p.lineFor? (.ofNat 20) = none ∧
      p'.RefersAt 0 0 1 (.ofNat 20) ∧ p'.lineFor? (.ofNat 20) = some 0 := by
  let s : Statement := [⟨1, .keyword .goto⟩, ⟨1, .number (.ofNat 20)⟩]
  have hrefers : s.RefersAt 1 (.ofNat 20) := ⟨rfl, .keyword [] .goto rfl⟩
  refine ⟨⟨0, [⟨10, [s], 0⟩]⟩, ⟨0, [⟨20, [s], 0⟩]⟩, ?_, ?_, ?_, ?_, ?_, ?_, ?_⟩
  · decide +kernel
  · decide
  · decide +kernel
  · exact ⟨_, s, rfl, rfl, hrefers⟩
  · decide +kernel
  · exact ⟨_, s, rfl, rfl, hrefers⟩
  · decide +kernel

end Program

end Applesoft
