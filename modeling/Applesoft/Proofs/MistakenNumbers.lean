import Applesoft.Proofs.RewrittenReferences

/-!
# Numbers mistaken for line numbers

A reference is looked up by its 16-bit form, which is 0 for every negative number and 65535 for every
number above that. So a whole number that no line has is replaced if it lies outside these bounds and
the line with the number at the bound gets another one, and it is kept otherwise.
-/
namespace Applesoft

open Renumbering

namespace Binary64

variable {x : Binary64} {v : Int}

theorem isWhole_of_toInt? (h : x.toInt? = some v) : x.isWhole = true := by
  unfold toInt? at h
  split at h
  · assumption
  · cases h

theorem exists_toInt?_of_isWhole (h : x.isWhole = true) : ∃ v, x.toInt? = some v := by
  rw [toInt?, if_pos h]
  exact ⟨_, rfl⟩

theorem toInt?_neg (x : Binary64) : x.neg.toInt? = x.toInt?.map (- ·) := by
  have hwhole : x.neg.isWhole = x.isWhole := rfl
  have hpart : x.neg.wholePart = x.wholePart := rfl
  have hsign : x.neg.negative = !x.negative := rfl
  rw [toInt?, toInt?, hwhole, hpart, hsign]
  by_cases h : x.isWhole = true
  · rw [if_pos h, if_pos h, Option.map_some]
    cases x.negative with
    | false => rfl
    | true => exact congrArg some (Int.neg_neg _).symm
  · rw [if_neg h, if_neg h, Option.map_none]

/-- The 16-bit form of a whole number is the nearest number of 16 bits. -/
theorem toNat_toWord_of_toInt? (h : x.toInt? = some v) : x.toWord.toNat = min 65535 v.toNat := by
  have hwhole := isWhole_of_toInt? h
  rw [toInt?, if_pos hwhole, Option.some.injEq] at h
  by_cases hnegative : x.negative = true
  · rw [if_pos hnegative] at h
    have hzero : x.toWord = 0 := by
      rw [toWord, hnegative, Bool.or_true, if_pos rfl]
    rw [hzero]
    change 0 = _
    omega
  · rw [if_neg hnegative] at h
    rw [toNat_toWord (by simpa using hnegative) hwhole]
    omega

theorem toWord_of_neg (h : x.toInt? = some v) (hv : v < 0) : x.toWord = 0 := by
  apply UInt16.toNat_inj.1
  rw [toNat_toWord_of_toInt? h]
  change _ = 0
  omega

theorem toWord_of_large (h : x.toInt? = some v) (hv : 65535 < v) : x.toWord = 65535 := by
  apply UInt16.toNat_inj.1
  rw [toNat_toWord_of_toInt? h]
  change _ = 65535
  omega

end Binary64

namespace Renumbering

variable {move : UInt16 → Option UInt16} {value : Binary64} {v : Int}

/-- A number is replaced only if it is whole and its 16-bit form moves. -/
theorem exists_of_relabelNumber_ne (h : relabelNumber move value ≠ value) :
    ∃ v new, value.toInt? = some v ∧ move value.toWord = some new := by
  unfold relabelNumber at h
  split at h
  · next new hmove =>
    by_cases hwhole : value.isWhole = true
    · obtain ⟨v, hv⟩ := Binary64.exists_toInt?_of_isWhole hwhole
      exact ⟨v, new, hv, hmove⟩
    · rw [if_neg hwhole] at h
      exact absurd rfl h
  · exact absurd rfl h

/-- A whole number that is no number of 16 bits is replaced if its 16-bit form moves. -/
theorem relabelNumber_ne {new : UInt16} (hv : value.toInt? = some v)
    (hout : ∀ n : UInt16, v ≠ (n.toNat : Int)) (hmove : move value.toWord = some new) :
    relabelNumber move value ≠ value := by
  have hexact := new.toNat_lt
  intro hsame
  rw [relabelNumber, hmove, Binary64.isWhole_of_toInt? hv] at hsame
  have hnew : value.toInt? = some (new.toNat : Int) := by
    rw [← hsame]
    exact Binary64.toInt?_ofNat (by omega)
  exact hout new (Option.some.inj (hv.symm.trans hnew))

/-- A move leads to another number. -/
theorem target_changes_ne {old : List UInt16} {new : List Nat} (hfits : Fits none new) {o n : UInt16}
    (h : target (changes old new) o = some n) : n ≠ o := by
  obtain ⟨before, after, hsplit, -⟩ := List.lookup_eq_some_iff.1 h
  have hmem : (o, n) ∈ changes old new := by
    rw [← List.mem_reverse, hsplit]
    simp
  obtain ⟨m, hzip, hne, rfl⟩ := mem_changes.1 hmem
  have hle := hfits.2 m (List.of_mem_zip hzip).2
  unfold largestLineNumber at hle
  intro hsame
  apply hne
  rw [← hsame]
  exact (UInt16.toNat_ofNat_of_lt' (Nat.lt_of_le_of_lt hle (by decide))).symm

end Renumbering

namespace Program

variable {p p' : Program} {line statement place : Nat} {value : Binary64} {v : Int}

def Moves (p p' : Program) (n : UInt16) : Prop :=
  ∃ (i : Nat) (n' : UInt16), p.numbers[i]? = some n ∧ p'.numbers[i]? = some n' ∧ n' ≠ n

/-- A token that is a number is changed only if this was the number of a line. -/
def ChangesLineNumbersOnly (p p' : Program) : Prop :=
  ∀ line statement place t value, p.tokenAt? line statement place = some t →
    t.kind = .number value → p'.tokenAt? line statement place ≠ some t →
    ∃ n ∈ p.numbers, value.toInt? = some (n.toNat : Int)

theorem moves_relabel_iff {new : List Nat} (hfits : Fits none new) {n : UInt16} :
    p.Moves (p.relabel (target (changes p.numbers new))) n ↔
      ∃ n', target (changes p.numbers new) n = some n' := by
  constructor
  · rintro ⟨i, n', hn, hn', hne⟩
    rw [numbers_relabel, List.getElem?_map, hn, Option.map_some, Option.some.injEq] at hn'
    cases htarget : target (changes p.numbers new) n with
    | none =>
      rw [htarget] at hn'
      exact absurd hn'.symm hne
    | some m => exact ⟨m, rfl⟩
  · rintro ⟨n', htarget⟩
    obtain ⟨i, hi⟩ := List.mem_iff_getElem?.1 (mem_of_target htarget)
    refine ⟨i, n', hi, ?_, target_changes_ne hfits htarget⟩
    rw [numbers_relabel, List.getElem?_map, hi, Option.map_some, htarget, Option.getD_some]

/-- A reference that is no number of 16 bits is a mistake if its 16-bit form moves. -/
theorem not_moves_toWord {new : List Nat} (hfits : Fits none new)
    (honly : p.ChangesLineNumbersOnly (p.relabel (target (changes p.numbers new))))
    (hrefers : p.RefersAt line statement place value) (hv : value.toInt? = some v)
    (hout : ∀ n : UInt16, v ≠ (n.toNat : Int)) :
    ¬ p.Moves (p.relabel (target (changes p.numbers new))) value.toWord := by
  intro hmoves
  obtain ⟨n', hmove⟩ := (moves_relabel_iff hfits).1 hmoves
  obtain ⟨hreference, t, ht, hkind⟩ := refersAt_iff.1 hrefers
  have hchanged : (p.relabel (target (changes p.numbers new))).tokenAt? line statement place ≠
      some t := by
    rw [tokenAt?_relabel_of_isReference hreference, ht, Option.map_some, hkind, relabelKind]
    intro hsame
    have hkinds := congrArg Token.kind (Option.some.inj hsame)
    rw [hkind] at hkinds
    exact relabelNumber_ne hv hout hmove (TokenKind.number.inj hkinds)
  obtain ⟨n, -, hn⟩ := honly line statement place t value ht hkind hchanged
  rw [hv, Option.some.injEq] at hn
  exact hout n hn

/-- What is changed is a reference, and the line with its 16-bit form moves. -/
theorem exists_of_changed {new : List Nat} (hfits : Fits none new) {t : Token}
    (ht : p.tokenAt? line statement place = some t) (hkind : t.kind = .number value)
    (hchanged : (p.relabel (target (changes p.numbers new))).tokenAt? line statement place ≠ some t) :
    ∃ v, p.RefersAt line statement place value ∧ value.toInt? = some v ∧
      value.toWord ∈ p.numbers ∧
      p.Moves (p.relabel (target (changes p.numbers new))) value.toWord := by
  by_cases hreference : p.IsReference line statement place
  · have hne : relabelNumber (target (changes p.numbers new)) value ≠ value := by
      intro hsame
      apply hchanged
      rw [tokenAt?_relabel_of_isReference hreference, ht, Option.map_some, hkind, relabelKind, hsame,
        ← hkind]
    obtain ⟨v, n', hv, hmove⟩ := exists_of_relabelNumber_ne hne
    exact ⟨v, refersAt_iff.2 ⟨hreference, t, ht, hkind⟩, hv, mem_of_target hmove,
      (moves_relabel_iff hfits).2 ⟨n', hmove⟩⟩
  · rw [tokenAt?_relabel_of_not_isReference hreference] at hchanged
    exact absurd ht hchanged

end Program

open Program

/-- A renumbering changes no number but those of lines exactly if no reference is a negative whole
number while a line 0 gets another number, or a whole number above 65535 while a line 65535 does. -/
theorem Renumberer.changesLineNumbersOnly_iff {x : Renumberer} {r : Renumbering} {p : Program}
    (h : (x.renumber r p).fault = none) :
    let p' := (x.renumber r p).value
    p.ChangesLineNumbersOnly p' ↔
      ∀ line statement place value v, p.RefersAt line statement place value →
        value.toInt? = some v → (v < 0 → ¬ p.Moves p' 0) ∧ (65535 < v → ¬ p.Moves p' 65535) := by
  intro p'
  obtain ⟨hfits, hvalue⟩ := renumber_eq_ok_iff.1 (renumber_of_fault_eq_none h)
  rw [show p' = p.relabel _ from hvalue]
  constructor
  · intro honly line statement place value v hrefers hv
    constructor
    · intro hlow
      rw [← Binary64.toWord_of_neg hv hlow]
      exact not_moves_toWord hfits honly hrefers hv fun n => by omega
    · intro hhigh
      rw [← Binary64.toWord_of_large hv hhigh]
      refine not_moves_toWord hfits honly hrefers hv fun n => ?_
      have := n.toNat_lt
      omega
  · intro hnone line statement place t value ht hkind hchanged
    obtain ⟨v, hrefers, hv, hmem, hmoves⟩ := exists_of_changed hfits ht hkind hchanged
    obtain ⟨hlow, hhigh⟩ := hnone line statement place value v hrefers hv
    by_cases hnegative : v < 0
    · rw [Binary64.toWord_of_neg hv hnegative] at hmoves
      exact absurd hmoves (hlow hnegative)
    by_cases hlarge : 65535 < v
    · rw [Binary64.toWord_of_large hv hlarge] at hmoves
      exact absurd hmoves (hhigh hlarge)
    refine ⟨value.toWord, hmem, ?_⟩
    rw [hv, Binary64.toNat_toWord_of_toInt? hv, Option.some.injEq]
    omega

/-- A negative reference and one that is too large, while the first line keeps the number 0. -/
theorem Renumberer.changesLineNumbersOnly_first_line_kept :
    let x : Renumberer := ⟨[(0, 3)], .separator⟩
    let r : Renumbering := ⟨1, 100, 30, 5⟩
    let p : Program := ⟨0, [⟨0, [[⟨1, .keyword .list⟩, ⟨1, .number (.neg (.ofNat 5))⟩,
      ⟨1, .punct ','⟩, ⟨1, .number (.ofNat 70000)⟩]], 0⟩, ⟨10, [], 0⟩]⟩
    let p' := (x.renumber r p).value
    (x.renumber r p).fault = none ∧ p'.numbers = [0, 30] ∧
      (p.ChangesLineNumbersOnly p' ↔
        ∀ line statement place value v, p.RefersAt line statement place value →
          value.toInt? = some v → (v < 0 → ¬ p.Moves p' 0) ∧ (65535 < v → ¬ p.Moves p' 65535)) := by
  intro x r p p'
  have h : (x.renumber r p).fault = none := by decide +kernel
  exact ⟨h, by decide +kernel, changesLineNumbersOnly_iff h⟩

/-- A reference to -5 becomes the new number of line 0. -/
theorem Renumberer.renumber_negative_reference :
    let p (n : UInt16) (value : Binary64) : Program :=
      ⟨0, [⟨n, [[⟨1, .keyword .endRun⟩]], 0⟩,
        ⟨n + 10, [[⟨2, .keyword .goto⟩, ⟨2, .number value⟩]], 0⟩]⟩
    let edited := Renumberer.new.renumber ⟨0, maxCount, 7, 10⟩ (p 0 (.neg (.ofNat 5)))
    edited.fault = none ∧ edited.value = p 7 (.ofNat 7) ∧
      ¬ (p 0 (.neg (.ofNat 5))).ChangesLineNumbersOnly edited.value := by
  intro p edited
  have hvalue : edited.value = p 7 (.ofNat 7) := by decide +kernel
  refine ⟨by decide +kernel, hvalue, fun honly => ?_⟩
  have hfive : (Binary64.neg (.ofNat 5)).toInt? = some (-5) := by
    rw [Binary64.toInt?_neg, Binary64.toInt?_ofNat (by decide), Option.map_some]
    rfl
  have hchanged : edited.value.tokenAt? 1 0 1 ≠ some ⟨2, .number (.neg (.ofNat 5))⟩ := by
    rw [hvalue]
    decide +kernel
  obtain ⟨n, -, hn⟩ := honly 1 0 1 _ _ rfl rfl hchanged
  rw [hfive, Option.some.injEq] at hn
  omega

end Applesoft
