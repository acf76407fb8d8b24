import Applesoft.Proofs.ListerRuns
import Applesoft.Proofs.RenumberingPass
import Applesoft.Tools.Renumberer

/-!
# Runs of the renumberer

A renumberer makes of a program what a renumbering in place makes of it, whatever earlier runs have left
in it: the moves are worked out anew, and every statement begins with nothing to wait for.
-/
namespace Applesoft

section Embedding

variable {σ τ ε α : Type} {embed : τ → σ}

/-- A step does what another does on a state of its own, which is embedded in its state. -/
def Edit.Embeds (embed : τ → σ) (f : Edit σ ε α) (g : Edit τ ε α) : Prop :=
  ∀ a s, f a (embed s) = ⟨(g a s).value, embed (g a s).state, (g a s).fault⟩

theorem Edit.Embeds.each {f : Edit σ ε α} {g : Edit τ ε α} (h : Edit.Embeds embed f g) :
    Edit.Embeds embed (Edit.each f) (Edit.each g) := by
  intro as
  induction as with
  | nil =>
    intro s
    rfl
  | cons a rest ih =>
    intro s
    rw [Edit.each, Edit.each, h a s]
    dsimp only
    cases (g a s).fault with
    | some e => rfl
    | none =>
      dsimp only
      rw [ih]

theorem Edit.Embeds.statements {f : Edit σ ε Statement} {g : Edit τ ε Statement}
    (h : Edit.Embeds embed f g) : Edit.Embeds embed (Edit.statements f) (Edit.statements g) := by
  intro l s
  rw [Edit.statements, h.each]
  rfl

theorem Edit.Embeds.lines {f : Edit σ ε Line} {g : Edit τ ε Line} (h : Edit.Embeds embed f g) :
    Edit.Embeds embed (Edit.lines f) (Edit.lines g) := by
  intro p s
  rw [Edit.lines, h.each]
  rfl

end Embedding

open Renumbering

/-- A renumbering in place comes to the same from whatever a pass before it has left. -/
theorem Program.renumberInPlace_congr (p : Program) (r : Renumbering) (awaiting awaiting' : Awaiting) :
    (p.renumberInPlace r awaiting).value = (p.renumberInPlace r awaiting').value ∧
      (p.renumberInPlace r awaiting).fault = (p.renumberInPlace r awaiting').fault := by
  cases hmoves : r.moves p.numbers with
  | error e =>
    obtain ⟨hvalue, hfault⟩ := @renumberInPlace_of_error r awaiting p e hmoves
    obtain ⟨hvalue', hfault'⟩ := @renumberInPlace_of_error r awaiting' p e hmoves
    exact ⟨hvalue.trans hvalue'.symm, hfault.trans hfault'.symm⟩
  | ok moves =>
    obtain ⟨hvalue, hfault⟩ := @renumberInPlace_of_ok r awaiting p moves hmoves
    obtain ⟨hvalue', hfault'⟩ := @renumberInPlace_of_ok r awaiting' p moves hmoves
    exact ⟨hvalue.trans hvalue'.symm, hfault.trans hfault'.symm⟩

namespace Renumberer

variable {x : Renumberer}

def Planned (x : Renumberer) :
    Except Error (List (UInt16 × UInt16)) → Renumberer × Option Error → Prop
  | .ok moves, outcome => outcome = (⟨x.moves ++ moves, x.awaiting⟩, none)
  | .error e, outcome => ∃ left, outcome = (left, some e)

theorem Planned.after {move : UInt16 × UInt16}
    {result : Except Error (List (UInt16 × UInt16))} {outcome : Renumberer × Option Error}
    (h : Planned { x with moves := x.moves ++ [move] } result outcome) :
    Planned x (result.map (move :: ·)) outcome := by
  cases result with
  | error e => exact h
  | ok moves =>
    have hplanned : outcome = (⟨x.moves ++ [move] ++ moves, x.awaiting⟩, none) := h
    rwa [List.append_assoc] at hplanned

/-- The moves are taken down as they are worked out. -/
theorem planned (r : Renumbering) (next : Nat) (previous : Option Nat) (numbers : List UInt16)
    (x : Renumberer) :
    Planned x (r.movesFrom next previous numbers) (plan r next previous numbers x) := by
  induction numbers generalizing next previous x with
  | nil =>
    have hnone : (x, (none : Option Error)) = (⟨x.moves ++ [], x.awaiting⟩, none) := by
      rw [List.append_nil]
    exact hnone
  | cons old rest ih =>
    rw [movesFrom, plan]
    generalize (if r.covers old then next else old.toNat) = new
    generalize (if r.covers old then min maxCount (next + r.step) else next) = next'
    by_cases hlarge : largestLineNumber < new
    · rw [if_pos hlarge, if_pos hlarge]
      exact ⟨x, rfl⟩
    · rw [if_neg hlarge, if_neg hlarge]
      cases previous.filter (new ≤ ·) with
      | some p => exact ⟨x, rfl⟩
      | none =>
        -- what the rest comes to is passed on, with the move of this line before it or without
        by_cases hsame : new = old.toNat
        · simp only [if_pos hsame]
          have hrest := ih next' (some new) x
          revert hrest
          cases r.movesFrom next' (some new) rest <;> exact id
        · simp only [if_neg hsame]
          have hrest :=
            (ih next' (some new) { x with moves := x.moves ++ [(old, UInt16.ofNat new)] }).after
          revert hrest
          cases r.movesFrom next' (some new) rest <;> exact id

/-- The pass with the moves that a renumberer has taken down relabels by them. -/
theorem embeds_token (moves : List (UInt16 × UInt16)) :
    Edit.Embeds (Renumberer.mk moves) onToken (relabeller (target moves)).onToken := by
  intro t awaiting
  rfl

theorem embeds_statement (moves : List (UInt16 × UInt16)) :
    Edit.Embeds (Renumberer.mk moves) onStatement (relabeller (target moves)).onStatement := by
  intro s awaiting
  exact (embeds_token moves).each s .nothing

theorem embeds_line (moves : List (UInt16 × UInt16)) :
    Edit.Embeds (Renumberer.mk moves) onLine (relabeller (target moves)).onLine := by
  intro l
  exact (embeds_statement moves).statements { l with number := (target moves l.number).getD l.number }

theorem embeds_edit (moves : List (UInt16 × UInt16)) :
    Edit.Embeds (Renumberer.mk moves) pass.edit (relabeller (target moves)).edit :=
  (embeds_line moves).lines

theorem renumber_eq_from (x : Renumberer) (r : Renumbering) (p : Program) :
    (x.renumber r p).value = (p.renumberInPlace r x.awaiting).value ∧
      (x.renumber r p).fault = (p.renumberInPlace r x.awaiting).fault := by
  have hplanned : Planned { x with moves := [] } (r.moves p.numbers)
      (plan r r.first none p.numbers { x with moves := [] }) :=
    planned r r.first none p.numbers _
  cases hmoves : r.moves p.numbers with
  | error e =>
    rw [hmoves] at hplanned
    obtain ⟨left, hleft⟩ := hplanned
    rw [renumber, Program.renumberInPlace, hleft, hmoves]
    exact ⟨rfl, rfl⟩
  | ok moves =>
    rw [hmoves] at hplanned
    have hplan : plan r r.first none p.numbers { x with moves := [] } = (⟨moves, x.awaiting⟩, none) :=
      hplanned
    rw [renumber, Program.renumberInPlace, hplan, hmoves]
    dsimp only
    rw [embeds_edit]
    exact ⟨rfl, rfl⟩

/-- What a renumberer makes of a program, and the fault, are those of a renumbering in place, from
whatever either begins with. -/
theorem renumber_eq (x : Renumberer) (r : Renumbering) (p : Program) (awaiting : Awaiting) :
    (x.renumber r p).value = (p.renumberInPlace r awaiting).value ∧
      (x.renumber r p).fault = (p.renumberInPlace r awaiting).fault := by
  obtain ⟨hvalue, hfault⟩ := x.renumber_eq_from r p
  obtain ⟨hsame, hsameFault⟩ := p.renumberInPlace_congr r x.awaiting awaiting
  exact ⟨hvalue.trans hsame, hfault.trans hsameFault⟩

theorem renumberText_eq (x : Renumberer) (r : Renumbering) (source : Text) :
    (x.renumberText r source).1 = Program.renumberText r source := by
  unfold renumberText Program.renumberText
  cases Program.parse 0 source with
  | error e => rfl
  | ok p =>
    obtain ⟨hvalue, hfault⟩ := x.renumber_eq r p .nothing
    dsimp only
    rw [hfault, hvalue, Program.renumber]
    cases (p.renumberInPlace r .nothing).fault with
    | some e => rfl
    | none => exact (Lister.new.list_eq _).1

end Renumberer

end Applesoft
