import Applesoft.Proofs.ReferenceGraph
import Applesoft.Proofs.ReferencePositions
import Applesoft.Proofs.RenumbererRuns

/-!
# What a renumbering rewrites

Beside the line numbers a renumbering changes the references to lines and nothing else: each of them
becomes the new number of its line, and every other token stays as it is.
-/
namespace Applesoft

open Renumbering

/-- A renumberer that does not refuse makes of a program what a renumbering makes of it. -/
theorem Renumberer.renumber_of_fault_eq_none {x : Renumberer} {r : Renumbering} {p : Program}
    (h : (x.renumber r p).fault = none) : p.renumber r = .ok (x.renumber r p).value := by
  obtain ⟨hvalue, hfault⟩ := x.renumber_eq r p .nothing
  rw [hfault] at h
  rw [Program.renumber, h, hvalue]

namespace Program

variable {p p' : Program} {r : Renumbering} {t : Token} {line statement place i : Nat}

def NumbersLine (p : Program) (t : Token) (i : Nat) : Prop :=
  ∃ value n, t.kind = .number value ∧ value.toInt? = some (n.toNat : Int) ∧ p.numbers[i]? = some n

/-- One program is another with the numbers meant for its lines. Of its tokens only the references to
lines differ, and each of them is the new number of its line. -/
structure IsRewritten (r : Renumbering) (p p' : Program) : Prop where
  numbers : p'.numbers.map UInt16.toNat = r.intended p.numbers
  shape : p'.shape = p.shape
  reference : ∀ line statement place t i, p.IsReference line statement place →
    p.tokenAt? line statement place = some t → p.NumbersLine t i →
    ∃ n, p'.numbers[i]? = some n ∧
      p'.tokenAt? line statement place = some ⟨t.line, .number (.ofNat n.toNat)⟩
  other : ∀ line statement place, ¬ (p.IsReference line statement place ∧
      ∃ t i, p.tokenAt? line statement place = some t ∧ p.NumbersLine t i) →
    p'.tokenAt? line statement place = p.tokenAt? line statement place

section Relabelled

variable {id : Nat} {source : Text} {move : UInt16 → Option UInt16}

/-- A reference to a line becomes the number that the line gets. -/
theorem tokenAt?_relabel_of_numbersLine (hparse : parse id source = .ok p)
    (hreference : p.IsReference line statement place)
    (ht : p.tokenAt? line statement place = some t) (hline : p.NumbersLine t i) :
    ∃ n, (p.relabel move).numbers[i]? = some n ∧
      (p.relabel move).tokenAt? line statement place = some ⟨t.line, .number (.ofNat n.toNat)⟩ := by
  obtain ⟨value, n, hkind, hvalue, hn⟩ := hline
  have hpositive := not_negative_of_parse hparse (refersAt_iff.2 ⟨hreference, t, ht, hkind⟩)
  refine ⟨(move n).getD n, ?_, ?_⟩
  · rw [numbers_relabel, List.getElem?_map, hn, Option.map_some]
  · rw [tokenAt?_relabel_of_isReference hreference, ht, Option.map_some, hkind, relabelKind,
      relabelNumber_of_isNumber hpositive hvalue]

/-- A reference to no line stays. -/
theorem tokenAt?_relabel_of_not_numbersLine {new : List Nat} (hparse : parse id source = .ok p)
    (hreference : p.IsReference line statement place)
    (ht : p.tokenAt? line statement place = some t) (hline : ∀ i, ¬ p.NumbersLine t i) :
    (p.relabel (target (changes p.numbers new))).tokenAt? line statement place = some t := by
  rw [tokenAt?_relabel_of_isReference hreference, ht, Option.map_some]
  obtain ⟨sourceLine, kind⟩ := t
  cases kind with
  | number value =>
    have hpositive := not_negative_of_parse hparse (refersAt_iff.2 ⟨hreference, _, ht, rfl⟩)
    have hnone : p.lineFor? value = none := by
      refine lineFor?_eq_none_iff.2 fun n hn hvalue => ?_
      obtain ⟨i, hi⟩ := List.mem_iff_getElem?.1 hn
      exact hline i ⟨value, n, rfl, hvalue, hi⟩
    rw [relabelKind, relabelNumber_of_lineFor?_eq_none hpositive
      (fun n hn => number_le_of_parse hparse hn) hnone]
  | _ => rfl

end Relabelled

end Program

open Program

/-- A renumbering of source text with no number twice rewrites the line numbers and the references to
lines, whatever the renumberer has done before. -/
theorem Renumberer.isRewritten_renumber {id : Nat} {source : Text} {p : Program} {x : Renumberer}
    {r : Renumbering} (hparse : parse id source = .ok p) (hnodup : p.numbers.Nodup)
    (h : (x.renumber r p).fault = none) : p.IsRewritten r (x.renumber r p).value := by
  have hrenumber := renumber_of_fault_eq_none h
  have hnumbers := numbers_renumbered hnodup hrenumber
  obtain ⟨-, hvalue⟩ := renumber_eq_ok_iff.1 hrenumber
  rw [hvalue] at hnumbers ⊢
  refine ⟨hnumbers, shape_relabel p _, ?_, ?_⟩
  · intro line statement place t i hreference ht hline
    exact tokenAt?_relabel_of_numbersLine hparse hreference ht hline
  · intro line statement place hother
    by_cases hreference : p.IsReference line statement place
    · cases ht : p.tokenAt? line statement place with
      | none =>
        rw [tokenAt?_relabel_of_isReference hreference, ht]
        rfl
      | some t =>
        refine tokenAt?_relabel_of_not_numbersLine hparse hreference ht fun i hline => ?_
        exact hother ⟨hreference, t, i, ht, hline⟩
    · exact tokenAt?_relabel_of_not_isReference hreference

/-- A list with a number that is no line's and one that is not whole, and a second keyword with a
number behind its reference. -/
theorem Renumberer.isRewritten_renumber_list :
    let text := "10 GOTO 30,7-30.5,30 RUN 30 30\n30\n".toList
    let p (n : UInt16) : Program :=
      let reference : Token := ⟨1, .number (.ofNat n.toNat)⟩
      ⟨0, [⟨10, [[⟨1, .keyword .goto⟩, reference, ⟨1, .punct ','⟩, ⟨1, .number (.ofNat 7)⟩,
        ⟨1, .keyword .minus⟩, ⟨1, .number (.ofDecimal ['3', '0'] ['5'])⟩, ⟨1, .punct ','⟩, reference,
        ⟨1, .keyword .run⟩, reference, ⟨1, .number (.ofNat 30)⟩]], 0⟩, ⟨n, [], 0⟩]⟩
    let x : Renumberer := ⟨[(10, 3)], .reference⟩
    let r : Renumbering := ⟨20, 50, 25, 5⟩
    parse 0 text = .ok (p 30) ∧ (p 30).numbers.Nodup ∧ (x.renumber r (p 30)).fault = none ∧
      (x.renumber r (p 30)).value = p 25 ∧ (p 30).IsRewritten r (x.renumber r (p 30)).value := by
  intro text p x r
  have hparse : parse 0 text = .ok (p 30) := by decide +kernel
  have hnodup : (p 30).numbers.Nodup := by decide
  have h : (x.renumber r (p 30)).fault = none := by decide +kernel
  exact ⟨hparse, hnodup, h, by decide +kernel, isRewritten_renumber hparse hnodup h⟩

end Applesoft
