import Mathlib.Data.List.Chain
import Mathlib.Data.List.Nodup
import Applesoft.Proofs.RenumberingPass

/-!
# The numbers after a renumbering

`intended` says which number each line is meant to get, by its place alone. The moves are checked
against it place by place but carried out by old number, so the two agree exactly when no two lines
have one number.
-/
namespace Applesoft
namespace Renumbering

variable (r : Renumbering)

def intendedFrom (given : Nat) (numbers : List UInt16) : List Nat :=
  numbers.mapIdx fun i n =>
    if r.covers n then r.first + (given + (numbers.take i).countP r.covers) * r.step else n.toNat

/-- The number meant for each line: the lines of the range count from `first` in equal steps, and
the others keep theirs. -/
def intended (numbers : List UInt16) : List Nat :=
  numbers.mapIdx fun i n =>
    if r.covers n then r.first + (numbers.take i).countP r.covers * r.step else n.toNat

/-- New numbers that ascend, also after the number before them, and are not too large. -/
def Fits (previous : Option Nat) (new : List Nat) : Prop :=
  (previous.toList ++ new).IsChain (· < ·) ∧ ∀ n ∈ new, n ≤ largestLineNumber

def changes (old : List UInt16) (new : List Nat) : List (UInt16 × UInt16) :=
  (old.zip new).filterMap fun (o, n) => if n = o.toNat then none else some (o, UInt16.ofNat n)

theorem intended_eq_intendedFrom (numbers : List UInt16) :
    r.intended numbers = r.intendedFrom 0 numbers := by
  simp [intended, intendedFrom]

theorem intendedFrom_cons (given : Nat) (n : UInt16) (rest : List UInt16) :
    r.intendedFrom given (n :: rest) =
      (if r.covers n then r.first + given * r.step else n.toNat) ::
        r.intendedFrom (given + if r.covers n then 1 else 0) rest := by
  simp only [intendedFrom, List.mapIdx_cons, List.take_zero, List.countP_nil, List.take_succ_cons,
    List.countP_cons, Nat.add_zero]
  congr 2
  funext i m
  rw [Nat.add_assoc, Nat.add_comm (List.countP _ _)]

theorem fits_cons {previous : Option Nat} {n : Nat} {rest : List Nat} :
    Fits previous (n :: rest) ↔
      n ≤ largestLineNumber ∧ (∀ p, previous = some p → p < n) ∧ Fits (some n) rest := by
  cases previous with
  | none => simp [Fits]; tauto
  | some p => simp [Fits, List.isChain_cons_cons]; tauto

def CountsLike (next count : Nat) : Prop :=
  min (largestLineNumber + 1) next = min (largestLineNumber + 1) count

theorem CountsLike.eq_of_le {next count : Nat} (h : CountsLike next count)
    (hle : count ≤ largestLineNumber) : next = count := by
  unfold CountsLike at h
  omega

theorem CountsLike.le_iff {next count : Nat} (h : CountsLike next count) :
    next ≤ largestLineNumber ↔ count ≤ largestLineNumber := by
  unfold CountsLike at h
  omega

theorem CountsLike.add {next count : Nat} (h : CountsLike next count) (step : Nat) :
    CountsLike (min maxCount (next + step)) (count + step) := by
  unfold CountsLike maxCount largestLineNumber at *
  omega

theorem filter_new_le_eq_none_iff {previous : Option Nat} {n : Nat} :
    previous.filter (n ≤ ·) = none ↔ ∀ p, previous = some p → p < n := by
  cases previous <;> simp [Option.filter_eq_none_iff]

theorem changes_cons (o : UInt16) (n : Nat) (old : List UInt16) (new : List Nat) :
    changes (o :: old) (n :: new) =
      if n = o.toNat then changes old new else (o, UInt16.ofNat n) :: changes old new := by
  simp only [changes, List.zip_cons_cons, List.filterMap_cons]
  split <;> simp_all

/-- Moves are made exactly if the intended numbers fit, and then they are the changes. -/
theorem movesFrom_eq_ok_iff {given next : Nat} {previous : Option Nat} {numbers : List UInt16}
    {moves : List (UInt16 × UInt16)} (hnext : CountsLike next (r.first + given * r.step)) :
    r.movesFrom next previous numbers = .ok moves ↔
      Fits previous (r.intendedFrom given numbers) ∧
        moves = changes numbers (r.intendedFrom given numbers) := by
  induction numbers generalizing given next previous moves with
  | nil =>
    have hnil : r.intendedFrom given [] = [] := rfl
    rw [movesFrom, hnil]
    cases previous <;> simp [changes, Fits, eq_comm]
  | cons n rest ih =>
    have hstep : CountsLike (if r.covers n then min maxCount (next + r.step) else next)
        (r.first + (given + if r.covers n then 1 else 0) * r.step) := by
      split
      · have := hnext.add r.step
        rwa [Nat.add_assoc, ← Nat.succ_mul] at this
      · exact hnext
    have hnew : CountsLike (if r.covers n then next else n.toNat)
        (if r.covers n then r.first + given * r.step else n.toNat) := by
      split
      · exact hnext
      · rfl
    rw [movesFrom, intendedFrom_cons, fits_cons, changes_cons]
    generalize (if r.covers n then r.first + given * r.step else n.toNat) = meant at hnew ⊢
    by_cases hle : meant ≤ largestLineNumber
    · rw [hnew.eq_of_le hle, if_neg (by omega)]
      cases hfilter : previous.filter (meant ≤ ·) with
      | some p =>
        have hno : ¬ ∀ p, previous = some p → p < meant := by
          rw [← filter_new_le_eq_none_iff, hfilter]; exact Option.some_ne_none p
        simp [hno]
      | none =>
        rw [filter_new_le_eq_none_iff] at hfilter
        cases hmoves : r.movesFrom (if r.covers n then min maxCount (next + r.step) else next)
            (some meant) rest with
        | error e =>
          simp only [reduceCtorEq, false_iff]
          rintro ⟨⟨-, -, hfits⟩, -⟩
          have hrest := (ih hstep).2 ⟨hfits, rfl⟩
          rw [hmoves] at hrest
          cases hrest
        | ok more =>
          obtain ⟨hfits, rfl⟩ := (ih hstep).1 hmoves
          simp only [Except.ok.injEq]
          constructor
          · rintro rfl; exact ⟨⟨hle, hfilter, hfits⟩, rfl⟩
          · rintro ⟨-, rfl⟩; rfl
    · rw [if_pos (by have := hnew.le_iff; omega)]
      simp [hle]

theorem moves_eq_ok_iff {numbers : List UInt16} {moves : List (UInt16 × UInt16)} :
    r.moves numbers = .ok moves ↔
      Fits none (r.intended numbers) ∧ moves = changes numbers (r.intended numbers) := by
  rw [Renumbering.moves, intended_eq_intendedFrom]
  exact r.movesFrom_eq_ok_iff (by rw [Nat.zero_mul]; rfl)

theorem mem_changes {old : List UInt16} {new : List Nat} {o n : UInt16} :
    (o, n) ∈ changes old new ↔ ∃ m, (o, m) ∈ old.zip new ∧ m ≠ o.toNat ∧ n = UInt16.ofNat m := by
  simp only [changes, List.mem_filterMap, Prod.exists]
  constructor
  · rintro ⟨o', m, hmem, h⟩
    split at h
    · cases h
    · next hne =>
      obtain ⟨rfl, rfl⟩ := Prod.mk.inj (Option.some.inj h)
      exact ⟨m, hmem, hne, rfl⟩
  · rintro ⟨m, hmem, hne, rfl⟩
    exact ⟨o, m, hmem, by rw [if_neg hne]⟩

theorem eq_of_mem_zip {old : List UInt16} {new : List Nat} {o : UInt16} {m n : Nat}
    (hnodup : old.Nodup) (hm : (o, m) ∈ old.zip new) (hn : (o, n) ∈ old.zip new) : m = n := by
  obtain ⟨i, hi, him⟩ := List.mem_iff_getElem.1 hm
  obtain ⟨j, hj, hjn⟩ := List.mem_iff_getElem.1 hn
  rw [List.getElem_zip, Prod.mk.injEq] at him hjn
  have hij : i = j := hnodup.getElem_inj_iff.1 (him.1.trans hjn.1.symm)
  subst hij
  exact him.2.symm.trans hjn.2

/-- Where every line has a number of its own, each gets the number meant for it. -/
theorem target_changes {old : List UInt16} {new : List Nat} {o : UInt16} {m : Nat}
    (hnodup : old.Nodup) (hmem : (o, m) ∈ old.zip new) :
    (target (changes old new) o).getD o = UInt16.ofNat m := by
  unfold target
  cases hlookup : (changes old new).reverse.lookup o with
  | none =>
    rw [List.lookup_eq_none_iff] at hlookup
    by_cases hm : m = o.toNat
    · simp [hm]
    · have hchange : (o, UInt16.ofNat m) ∈ changes old new := mem_changes.2 ⟨m, hmem, hm, rfl⟩
      simpa using hlookup _ (List.mem_reverse.2 hchange)
  | some v =>
    obtain ⟨before, after, hsplit, -⟩ := List.lookup_eq_some_iff.1 hlookup
    have hv : (o, v) ∈ changes old new := by
      rw [← List.mem_reverse, hsplit]; simp
    obtain ⟨n, hn, -, rfl⟩ := mem_changes.1 hv
    rw [eq_of_mem_zip hnodup hmem hn]
    rfl

theorem map_target_changes {old : List UInt16} {new : List Nat} (hnodup : old.Nodup)
    (hlength : new.length = old.length) (hfits : Fits none new) :
    (old.map fun o => (target (changes old new) o).getD o).map UInt16.toNat = new := by
  apply List.ext_getElem
  · simp [hlength]
  · intro i hi hi'
    have hold : i < old.length := by simpa using hi
    have hmem : (old[i], new[i]) ∈ old.zip new := by
      rw [List.mem_iff_getElem]
      exact ⟨i, by rw [List.length_zip]; omega, by simp⟩
    have hle := hfits.2 new[i] (List.getElem_mem hi')
    unfold largestLineNumber at hle
    simp only [List.getElem_map, target_changes hnodup hmem]
    exact UInt16.toNat_ofNat_of_lt' (Nat.lt_of_le_of_lt hle (by decide))

end Renumbering

open Renumbering

theorem Program.numbers_relabel (p : Program) (move : UInt16 → Option UInt16) :
    (p.relabel move).numbers = p.numbers.map fun n => (move n).getD n := by
  simp [Program.numbers, Program.relabel, relabelLine, Function.comp_def]

theorem Program.renumber_eq_ok_iff {p p' : Program} {r : Renumbering} :
    p.renumber r = .ok p' ↔ Fits none (r.intended p.numbers) ∧
      p' = p.relabel (target (changes p.numbers (r.intended p.numbers))) := by
  cases hmoves : r.moves p.numbers with
  | error e =>
    rw [renumber_of_error hmoves]
    simp only [reduceCtorEq, false_iff]
    rintro ⟨hfits, -⟩
    have hok := r.moves_eq_ok_iff.2 ⟨hfits, rfl⟩
    rw [hmoves] at hok
    cases hok
  | ok moves =>
    rw [renumber_of_ok hmoves]
    obtain ⟨hfits, rfl⟩ := r.moves_eq_ok_iff.1 hmoves
    simp [hfits, eq_comm]

/-- After a renumbering every line has the number meant for it, and these ascend and are not too
large, exactly if no two lines had one number before. -/
theorem Program.renumber_numbers_iff {p p' : Program} {r : Renumbering}
    (h : p.renumber r = .ok p') :
    (p'.numbers.map UInt16.toNat = r.intended p.numbers ∧ p'.numbers.Pairwise (· < ·) ∧
      ∀ n ∈ p'.numbers, n.toNat ≤ largestLineNumber) ↔ p.numbers.Nodup := by
  obtain ⟨hfits, rfl⟩ := renumber_eq_ok_iff.1 h
  rw [numbers_relabel]
  constructor
  · rintro ⟨-, hascend, -⟩
    exact List.Nodup.of_map _ (hascend.imp fun hlt heq => by simp [heq] at hlt)
  · intro hnodup
    have hmap := map_target_changes hnodup (by simp [intended]) hfits
    refine ⟨hmap, ?_, ?_⟩
    · have hchain := List.isChain_iff_pairwise.1 hfits.1
      rw [Option.toList_none, List.nil_append, ← hmap, List.pairwise_map] at hchain
      exact hchain.imp UInt16.lt_iff_toNat_lt.2
    · intro n hn
      apply hfits.2
      rw [← hmap]
      exact List.mem_map_of_mem hn

/-- A program in which the range is renumbered and a line outside it keeps its number. -/
theorem Program.renumber_numbers_in_range :
    let p : Program := ⟨0, [⟨5, [[⟨1, .keyword .goto⟩, ⟨1, .number (.ofNat 7)⟩]], 0⟩,
      ⟨7, [], 0⟩, ⟨90, [], 0⟩]⟩
    let r : Renumbering := ⟨0, 50, 10, 20⟩
    (p.renumber r).map Program.numbers = .ok [10, 30, 90] ∧ ∃ p', p.renumber r = .ok p' ∧
      ((p'.numbers.map UInt16.toNat = r.intended p.numbers ∧ p'.numbers.Pairwise (· < ·) ∧
        ∀ n ∈ p'.numbers, n.toNat ≤ largestLineNumber) ↔ p.numbers.Nodup) := by
  intro p r
  have h : p.renumber r = .ok (p.relabel (target [(5, 10), (7, 30)])) := by decide +kernel
  exact ⟨by decide +kernel, _, h, renumber_numbers_iff h⟩

/-- Two lines with one number both get the number meant for the second. -/
theorem Program.renumber_repeated_number :
    (Program.parse 0 "10 END\n10 END\n".toList).bind (·.renumber ⟨0, maxCount, 10, 10⟩) =
      .ok ⟨0, [⟨20, [[⟨1, .keyword .endRun⟩]], 0⟩, ⟨20, [[⟨2, .keyword .endRun⟩]], 0⟩]⟩ ∧
    (⟨0, maxCount, 10, 10⟩ : Renumbering).intended [10, 10] = [10, 20] := by
  decide +kernel

end Applesoft
