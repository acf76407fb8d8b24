import Applesoft.Proofs.Grouping
import Applesoft.Proofs.References

/-!
# What becomes of a number

A reference that names a line comes to name it by its new number, and one that names no line stays as
it is. Both need that line numbers stop below `2 ^ 16 - 1`, where numbers too large for 16 bits are
looked up, and that a reference is not negative; source text sees to both.
-/
namespace Applesoft

namespace Binary64

variable {x : Binary64} {n : Nat}

theorem toInt?_of_not_negative (hpositive : x.negative = false) :
    x.toInt? = if x.isWhole = true then some (x.wholePart : Int) else none := by
  rw [toInt?, hpositive]
  rfl

theorem wholePart_of_toInt? (hpositive : x.negative = false) (h : x.toInt? = some (n : Int)) :
    x.isWhole = true ∧ x.wholePart = n := by
  rw [toInt?_of_not_negative hpositive] at h
  by_cases hwhole : x.isWhole = true
  · rw [if_pos hwhole, Option.some.injEq, Int.natCast_inj] at h
    exact ⟨hwhole, h⟩
  · rw [if_neg hwhole] at h
    cases h

theorem isFinite_of_isWhole (h : x.isWhole = true) : x.isFinite = true := by
  unfold isWhole at h
  exact (Bool.and_eq_true_iff.1 h).1

/-- There is one double for each number, a negative zero apart. -/
theorem eq_ofNat_of_toInt? (hpositive : x.negative = false) (h : x.toInt? = some (n : Int)) :
    x = ofNat n := by
  obtain ⟨hwhole, rfl⟩ := wholePart_of_toInt? hpositive h
  rw [← ofDecimal_ofNat, ofDecimal_wholePart ⟨hpositive, isFinite_of_isWhole hwhole⟩ hwhole]

theorem toNat_toWord (hpositive : x.negative = false) (hwhole : x.isWhole = true) :
    x.toWord.toNat = min 65535 x.wholePart := by
  have hfinite := isFinite_of_isWhole hwhole
  have hnan : x.isNaN = false := by
    simp only [isFinite, decide_eq_true_eq] at hfinite
    simp only [isNaN, decide_eq_false_iff_not]
    omega
  rw [toWord, hnan, hpositive]
  exact UInt16.toNat_ofNat_of_lt' (show min 65535 x.wholePart < 2 ^ 16 by omega)

end Binary64

namespace Renumbering

variable {move : UInt16 → Option UInt16} {value : Binary64}

theorem relabelNumber_of_isNumber {n : UInt16} (hpositive : value.negative = false)
    (h : value.toInt? = some (n.toNat : Int)) :
    relabelNumber move value = .ofNat ((move n).getD n).toNat := by
  obtain ⟨hwhole, hpart⟩ := Binary64.wholePart_of_toInt? hpositive h
  have hword : value.toWord = n := by
    apply UInt16.toNat_inj.1
    rw [Binary64.toNat_toWord hpositive hwhole, hpart]
    have := n.toNat_lt
    omega
  unfold relabelNumber
  rw [hword]
  cases hmove : move n with
  | none => exact Binary64.eq_ofNat_of_toInt? hpositive h
  | some new => rw [hwhole]; rfl

theorem relabelNumber_ofNat (n : UInt16) :
    relabelNumber move (.ofNat n.toNat) = .ofNat ((move n).getD n).toNat := by
  have hexact := n.toNat_lt
  exact relabelNumber_of_isNumber rfl (Binary64.toInt?_ofNat (by omega))

/-- A number that is none of those that move stays. -/
theorem relabelNumber_eq_self (hpositive : value.negative = false)
    (hmove : ∀ n v, move n = some v → n.toNat ≤ largestLineNumber ∧
      value.toInt? ≠ some (n.toNat : Int)) : relabelNumber move value = value := by
  unfold relabelNumber
  cases hword : move value.toWord with
  | none => rfl
  | some new =>
    obtain ⟨hle, hne⟩ := hmove _ _ hword
    by_cases hwhole : value.isWhole = true
    · rw [Binary64.toNat_toWord hpositive hwhole] at hle hne
      have hsmall : min 65535 value.wholePart = value.wholePart := by
        unfold largestLineNumber at hle
        omega
      rw [hsmall, Binary64.toInt?_of_not_negative hpositive, if_pos hwhole] at hne
      exact absurd rfl hne
    · simp only [hwhole, Bool.false_eq_true, if_false]

theorem mem_of_target {old : List UInt16} {new : List Nat} {o v : UInt16}
    (h : target (changes old new) o = some v) : o ∈ old := by
  obtain ⟨before, after, hsplit, -⟩ := List.lookup_eq_some_iff.1 h
  have hmem : (o, v) ∈ changes old new := by
    rw [← List.mem_reverse, hsplit]
    simp
  obtain ⟨m, hzip, -⟩ := mem_changes.1 hmem
  exact (List.of_mem_zip hzip).1

end Renumbering

namespace Program

variable {id : Nat} {source : Text} {p : Program} {value : Binary64}

/-- The first place at which a line has the number that a reference gives. -/
def lineFor? (p : Program) (value : Binary64) : Option Nat :=
  p.lines.findIdx? fun l => value.toInt? = some (l.number.toNat : Int)

theorem lineFor?_eq_none_iff :
    p.lineFor? value = none ↔ ∀ n ∈ p.numbers, value.toInt? ≠ some (n.toNat : Int) := by
  simp [lineFor?, numbers, List.findIdx?_eq_none_iff]

/-- Where every line has a number of its own, the first line with a number is the only one. -/
theorem lineFor?_eq_some_iff (hnodup : p.numbers.Nodup) {i : Nat} :
    p.lineFor? value = some i ↔
      ∃ n, p.numbers[i]? = some n ∧ value.toInt? = some (n.toNat : Int) := by
  rw [lineFor?, List.findIdx?_eq_some_iff_getElem]
  constructor
  · rintro ⟨hi, hnumber, -⟩
    exact ⟨p.lines[i].number, by simp [numbers, hi], by simpa using hnumber⟩
  · rintro ⟨n, hn, hvalue⟩
    obtain ⟨hi, hin⟩ := List.getElem?_eq_some_iff.1 hn
    have hlength : i < p.lines.length := by simpa [numbers] using hi
    have hline : p.lines[i].number = n := by simpa [numbers] using hin
    refine ⟨hlength, by simpa [hline] using hvalue, ?_⟩
    intro j hji hj
    have hjn : p.lines[j].number = n := by
      simp only [decide_eq_true_eq, hvalue, Option.some.injEq, Int.natCast_inj] at hj
      exact (UInt16.toNat_inj.1 hj).symm
    have hjlength : j < p.lines.length := by omega
    have hsame : p.numbers[i]? = p.numbers[j]? := by
      rw [hn]
      simp [numbers, hjlength, hjn]
    have := (List.getElem?_inj hi hnodup).1 hsame
    omega

theorem number_le_of_parse (h : parse id source = .ok p) {n : UInt16} (hn : n ∈ p.numbers) :
    n.toNat ≤ largestLineNumber := by
  obtain ⟨l, hl, rfl⟩ := List.mem_map.1 hn
  exact (parse_wellFormed h hl).1.number_le

theorem not_negative_of_parse (h : parse id source = .ok p) {line statement place : Nat}
    (hvalue : p.RefersAt line statement place value) : value.negative = false := by
  obtain ⟨l, s, hl, hs, hnumber, -⟩ := hvalue
  obtain ⟨t, ht, hkind⟩ := Option.map_eq_some_iff.1 hnumber
  have hwell := ((parse_wellFormed h (List.mem_of_getElem? hl)).1.token s
    (List.mem_of_getElem? hs) t (List.mem_of_getElem? ht)).1
  rw [hkind] at hwell
  exact hwell.1

end Program

end Applesoft
