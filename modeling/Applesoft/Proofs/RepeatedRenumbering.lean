import Applesoft.Proofs.ReferenceGraph
import Applesoft.Proofs.RefusedRenumbering

/-!
# Renumbering again

Relabelling twice is relabelling once where the two moves compose at every number that is met: those
of the lines and those of the references. When every line is renumbered and every reference names a
line, only the last renumbering counts.
-/
namespace Applesoft
namespace Renumbering

variable {f g h : UInt16 → Option UInt16}

def everyLine (first step : Nat) : Renumbering := ⟨0, maxCount, first, step⟩

theorem relabelStatement_relabelStatement {s : Statement}
    (hrefs : ∀ i value, s.RefersAt i value →
      relabelNumber g (relabelNumber f value) = relabelNumber h value) :
    relabelStatement g (relabelStatement f s) = relabelStatement h s := by
  apply List.ext_getElem?
  intro i
  by_cases hleads : LeadsToReference ((s.take i).map Token.kind)
  · rw [getElem?_relabelStatement_reference g ((leadsToReference_relabelStatement f).2 hleads),
      getElem?_relabelStatement_reference f hleads, getElem?_relabelStatement_reference h hleads,
      Option.map_map]
    apply Option.map_congr
    rintro ⟨line, k⟩ ht
    cases k with
    | number value =>
      have hvalue := hrefs i value ⟨by rw [ht]; rfl, hleads⟩
      simp only [Function.comp_apply, relabelKind, hvalue]
    | _ => rfl
  · rw [getElem?_relabelStatement_other g (mt (leadsToReference_relabelStatement f).1 hleads),
      getElem?_relabelStatement_other f hleads, getElem?_relabelStatement_other h hleads]

theorem relabelStatement_none (s : Statement) : relabelStatement (fun _ => none) s = s := by
  apply List.ext_getElem?
  intro i
  have hkind (k : TokenKind) : relabelKind (fun _ => none) k = k := by cases k <;> rfl
  by_cases hleads : LeadsToReference ((s.take i).map Token.kind)
  · rw [getElem?_relabelStatement_reference _ hleads]
    simp only [hkind, Option.map_id']
  · rw [getElem?_relabelStatement_other _ hleads]

theorem covers_everyLine (first step : Nat) (n : UInt16) : (everyLine first step).covers n = true := by
  have hword := n.toNat_lt
  have hcount : n.toNat < maxCount := by
    unfold maxCount
    omega
  simp [covers, everyLine, hcount]

/-- The numbers meant for all lines do not depend on the old ones. -/
theorem intended_everyLine (first step : Nat) (numbers : List UInt16) :
    (everyLine first step).intended numbers =
      (List.range numbers.length).map fun k => first + k * step := by
  have hcount (i : Nat) : (numbers.take i).countP (everyLine first step).covers =
      min i numbers.length := by
    rw [List.countP_eq_length.2 fun n _ => covers_everyLine first step n, List.length_take]
  apply List.ext_getElem
  · simp [intended]
  · intro i hi hi'
    have hlength : i < numbers.length := by simpa [intended] using hi
    simp only [intended, List.getElem_mapIdx, covers_everyLine, if_true, hcount, List.getElem_map,
      List.getElem_range, Nat.min_eq_left (Nat.le_of_lt hlength)]
    rfl

theorem changes_self (numbers : List UInt16) : changes numbers (numbers.map UInt16.toNat) = [] := by
  induction numbers with
  | nil => rfl
  | cons n rest ih => rw [List.map_cons, changes_cons, if_pos rfl, ih]

/-- Numbers in equal steps ascend if there are not two that are equal. -/
theorem ascending_of_steps {first step count : Nat}
    (hnodup : ((List.range count).map fun k => first + k * step).Nodup) :
    ((List.range count).map fun k => first + k * step).Pairwise (· < ·) := by
  rw [List.pairwise_map]
  by_cases hstep : step = 0
  · rw [List.Nodup, List.pairwise_map] at hnodup
    apply hnodup.imp
    intro i j hne
    simp [hstep] at hne
  · apply List.pairwise_lt_range.imp
    intro i j hij
    have := Nat.mul_lt_mul_of_pos_right hij (Nat.pos_of_ne_zero hstep)
    omega

end Renumbering

open Renumbering

namespace Program

variable {f g h : UInt16 → Option UInt16} {p p₁ p₂ : Program} {r : Renumbering} {first step : Nat}

/-- Two moves that compose at the numbers of all lines and references make one. -/
theorem relabel_relabel
    (hnumbers : ∀ n ∈ p.numbers, (g ((f n).getD n)).getD ((f n).getD n) = (h n).getD n)
    (hrefs : ∀ line statement place value, p.RefersAt line statement place value →
      relabelNumber g (relabelNumber f value) = relabelNumber h value) :
    (p.relabel f).relabel g = p.relabel h := by
  have hline (l : Line) (hl : l ∈ p.lines) :
      relabelLine g (relabelLine f l) = relabelLine h l := by
    obtain ⟨i, hi⟩ := List.getElem?_of_mem hl
    have hstatements : (l.statements.map (relabelStatement f)).map (relabelStatement g) =
        l.statements.map (relabelStatement h) := by
      rw [List.map_map]
      apply List.map_congr_left
      intro s hs
      obtain ⟨j, hj⟩ := List.getElem?_of_mem hs
      exact relabelStatement_relabelStatement fun place value hvalue =>
        hrefs i j place value ⟨l, s, hi, hj, hvalue⟩
    have hnumber := hnumbers l.number (List.mem_map_of_mem hl)
    simp only [relabelLine, hnumber, hstatements]
  simp only [relabel, List.map_map, Program.mk.injEq, true_and]
  exact List.map_congr_left hline

theorem relabel_none (p : Program) : p.relabel (fun _ => none) = p := by
  have hline (l : Line) : relabelLine (fun _ => none) l = l := by
    have hstatements : l.statements.map (relabelStatement fun _ => none) = l.statements :=
      (List.map_congr_left fun s _ => relabelStatement_none s).trans (List.map_id _)
    rw [relabelLine, hstatements]
    rfl
  have hlines : p.lines.map (relabelLine fun _ => none) = p.lines :=
    (List.map_congr_left fun l _ => hline l).trans (List.map_id _)
  rw [relabel, hlines]

theorem length_numbers_renumbered (h₁ : p.renumber r = .ok p₁) :
    p₁.numbers.length = p.numbers.length := by
  obtain ⟨-, rfl⟩ := renumber_eq_ok_iff.1 h₁
  rw [numbers_relabel, List.length_map]

/-- Whether all lines can be renumbered hangs on how many there are. -/
theorem fits_everyLine_iff (h₁ : p.renumber r = .ok p₁) :
    Fits none ((everyLine first step).intended p₁.numbers) ↔
      Fits none ((everyLine first step).intended p.numbers) := by
  rw [intended_everyLine, intended_everyLine, length_numbers_renumbered h₁]

def Resolved (p : Program) : Prop :=
  ∀ line statement place value, p.RefersAt line statement place value →
    ∃ n ∈ p.numbers, value.toInt? = some (n.toNat : Int)

/-- Where every reference names a line, the new numbers of the lines decide all. -/
theorem relabel_relabel_of_numbers {id : Nat} {source : Text} (hparse : parse id source = .ok p)
    (hrefs : p.Resolved) (hsame : ((p.relabel f).relabel g).numbers = (p.relabel h).numbers) :
    (p.relabel f).relabel g = p.relabel h := by
  have hnumbers : ∀ n ∈ p.numbers,
      (g ((f n).getD n)).getD ((f n).getD n) = (h n).getD n := by
    rw [numbers_relabel, numbers_relabel, numbers_relabel, List.map_map, List.map_inj_left] at hsame
    exact hsame
  apply relabel_relabel hnumbers
  intro line statement place value hvalue
  have hpositive := not_negative_of_parse hparse hvalue
  -- what becomes of the reference is what becomes of the number of its line
  obtain ⟨n, hn, hnumber⟩ := hrefs line statement place value hvalue
  rw [relabelNumber_of_isNumber hpositive hnumber, relabelNumber_of_isNumber hpositive hnumber,
    relabelNumber_ofNat, hnumbers n hn]

/-- After any renumbering, renumbering every line does what it would have done at first. -/
theorem renumber_everyLine_after {id : Nat} {source : Text} (hparse : parse id source = .ok p)
    (hnodup : p.numbers.Nodup) (hrefs : p.Resolved) (h₁ : p.renumber r = .ok p₁)
    (h₂ : p₁.renumber (everyLine first step) = .ok p₂) :
    p.renumber (everyLine first step) = .ok p₂ := by
  obtain ⟨-, hp₁⟩ := renumber_eq_ok_iff.1 h₁
  obtain ⟨hfits, hp₂⟩ := renumber_eq_ok_iff.1 h₂
  obtain ⟨p₃, h₃⟩ : ∃ p₃, p.renumber (everyLine first step) = .ok p₃ :=
    ⟨_, renumber_eq_ok_iff.2 ⟨(fits_everyLine_iff h₁).1 hfits, rfl⟩⟩
  obtain ⟨-, hp₃⟩ := renumber_eq_ok_iff.1 h₃
  have hinjective : Function.Injective (List.map UInt16.toNat) :=
    List.map_injective_iff.2 fun _ _ => UInt16.toNat_inj.1
  have hnumbers : p₂.numbers = p₃.numbers := by
    apply hinjective
    rw [numbers_renumbered (nodup_renumbered hnodup h₁) h₂, numbers_renumbered hnodup h₃,
      intended_everyLine, intended_everyLine, length_numbers_renumbered h₁]
  have hsame : p₂ = p₃ := by
    rw [hp₂, hp₁, hp₃] at hnumbers ⊢
    exact relabel_relabel_of_numbers hparse hrefs hnumbers
  rw [h₃, hsame]

/-- Giving the lines the numbers that they have changes nothing. -/
theorem renumber_everyLine_self (hnodup : p.numbers.Nodup)
    (hle : ∀ n ∈ p.numbers, n.toNat ≤ largestLineNumber)
    (hsteps : (everyLine first step).intended p.numbers = p.numbers.map UInt16.toNat) :
    p.renumber (everyLine first step) = .ok p := by
  have hnodup' : (p.numbers.map UInt16.toNat).Nodup :=
    hnodup.map fun _ _ => UInt16.toNat_inj.1
  rw [renumber_eq_ok_iff, fits_none_iff, hsteps, changes_self]
  refine ⟨⟨?_, ?_⟩, ?_⟩
  · rw [← hsteps, intended_everyLine] at hnodup' ⊢
    exact ascending_of_steps hnodup'
  · intro m hm
    obtain ⟨n, hn, rfl⟩ := List.mem_map.1 hm
    exact hle n hn
  · exact p.relabel_none.symm

/-- Where every reference names a line, the last renumbering of every line counts alone. So lines
numbered in equal steps get their old numbers back, and the references with them. -/
theorem renumber_twice {id : Nat} {source : Text} (hparse : parse id source = .ok p)
    (hnodup : p.numbers.Nodup) (hrefs : p.Resolved) (h₁ : p.renumber r = .ok p₁) :
    (∀ first step p₂, p₁.renumber (everyLine first step) = .ok p₂ →
      p.renumber (everyLine first step) = .ok p₂) ∧
    ∀ first step, p.numbers.map UInt16.toNat =
        (List.range p.numbers.length).map (fun k => first + k * step) →
      p₁.renumber (everyLine first step) = .ok p := by
  constructor
  · intro first step p₂ h₂
    exact renumber_everyLine_after hparse hnodup hrefs h₁ h₂
  · intro first step hsteps
    rw [← intended_everyLine] at hsteps
    have hself := renumber_everyLine_self hnodup (fun n => number_le_of_parse hparse) hsteps.symm
    have hfits := (renumber_eq_ok_iff.1 hself).1
    obtain ⟨p₂, h₂⟩ : ∃ p₂, p₁.renumber (everyLine first step) = .ok p₂ :=
      ⟨_, renumber_eq_ok_iff.2 ⟨(fits_everyLine_iff h₁).2 hfits, rfl⟩⟩
    have hdirect := renumber_everyLine_after hparse hnodup hrefs h₁ h₂
    rw [hself, Except.ok.injEq] at hdirect
    rw [h₂, hdirect]

/-- The second line takes over the number that the first had. -/
theorem renumber_twice_overlapping :
    ∃ p p₁ p₂, parse 0 "20 GOTO 30
30 GOTO 20
".toList = .ok p ∧ p.numbers.Nodup ∧ p.Resolved ∧
      p.renumber (everyLine 10 10) = .ok p₁ ∧ p₁.renumber (everyLine 5 15) = .ok p₂ ∧
      p.renumber (everyLine 5 15) = .ok p₂ ∧ p₁.renumber (everyLine 20 10) = .ok p := by
  let jump (line : Nat) (number : UInt16) (goal : Nat) : Line :=
    ⟨number, [[⟨line, .keyword .goto⟩, ⟨line, .number (.ofNat goal)⟩]], 0⟩
  let p : Program := ⟨0, [jump 1 20 30, jump 2 30 20]⟩
  let p₁ : Program := ⟨0, [jump 1 10 20, jump 2 20 10]⟩
  let p₂ : Program := ⟨0, [jump 1 5 20, jump 2 20 5]⟩
  have hparse : parse 0 "20 GOTO 30
30 GOTO 20
".toList = .ok p := by decide +kernel
  have hnodup : p.numbers.Nodup := by decide
  have hkinds : ∀ l ∈ p.lines, ∀ s ∈ l.statements, ∀ t ∈ s,
      t.kind = .keyword .goto ∨ ∃ n ∈ p.numbers, t.kind = .number (.ofNat n.toNat) := by
    decide +kernel
  have hrefs : p.Resolved := by
    rintro line statement place value ⟨l, s, hl, hs, hnumber, -⟩
    obtain ⟨t, ht, hvalue⟩ := Option.map_eq_some_iff.1 hnumber
    obtain hword | ⟨n, hn, hkind⟩ := hkinds l (List.mem_of_getElem? hl) s
      (List.mem_of_getElem? hs) t (List.mem_of_getElem? ht)
    · rw [hword] at hvalue
      cases hvalue
    · rw [hkind, TokenKind.number.injEq] at hvalue
      have hexact := n.toNat_lt
      exact ⟨n, hn, by rw [← hvalue, Binary64.toInt?_ofNat (by omega)]⟩
  have h₁ : p.renumber (everyLine 10 10) = .ok p₁ := by decide +kernel
  have h₂ : p₁.renumber (everyLine 5 15) = .ok p₂ := by decide +kernel
  obtain ⟨hlast, hback⟩ := renumber_twice hparse hnodup hrefs h₁
  exact ⟨p, p₁, p₂, hparse, hnodup, hrefs, h₁, h₂, hlast 5 15 p₂ h₂, hback 20 10 (by decide)⟩

end Program

end Applesoft
