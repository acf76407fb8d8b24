import Applesoft.Renumbering

/-!
# The pass that renumbers

Each level of the pass makes of what it comes upon what relabelling makes of it, whatever state it
begins in, and never ends the pass. So a renumbering is refused before anything has changed.
-/
namespace Applesoft

variable {σ ε α : Type}

def Edit.Makes (f : Edit σ ε α) (g : α → α) : Prop :=
  ∀ a s, (f a s).value = g a ∧ (f a s).fault = none

theorem Edit.Makes.each {f : Edit σ ε α} {g : α → α} (h : f.Makes g) :
    Edit.Makes (Edit.each f) (List.map g) := by
  intro as
  induction as with
  | nil =>
    intro s
    exact ⟨rfl, rfl⟩
  | cons a rest ih =>
    intro s
    obtain ⟨hvalue, hfault⟩ := h a s
    obtain ⟨htail, hend⟩ := ih (f a s).state
    simp only [Edit.each, hfault, hvalue, htail, hend, List.map_cons, and_self]

theorem Edit.Makes.statements {f : Edit σ ε Statement} {g : Statement → Statement}
    (h : f.Makes g) :
    Edit.Makes (Edit.statements f) fun l => { l with statements := l.statements.map g } := by
  intro l s
  obtain ⟨hvalue, hfault⟩ := h.each l.statements s
  constructor
  · rw [Edit.statements, Edited.map, hvalue]
  · exact hfault

theorem Edit.Makes.lines {f : Edit σ ε Line} {g : Line → Line} (h : f.Makes g) :
    Edit.Makes (Edit.lines f) fun p => { p with lines := p.lines.map g } := by
  intro p s
  obtain ⟨hvalue, hfault⟩ := h.each p.lines s
  constructor
  · rw [Edit.lines, Edited.map, hvalue]
  · exact hfault

namespace Renumbering

variable (move : UInt16 → Option UInt16)

/-- The state is handed on from token to token as relabelling hands it on. -/
theorem relabeller_tokens (ts : List Token) (awaiting : Awaiting) :
    (Edit.each (relabeller move).onToken ts awaiting).value = relabelTokens move awaiting ts ∧
      (Edit.each (relabeller move).onToken ts awaiting).fault = none := by
  induction ts generalizing awaiting with
  | nil => exact ⟨rfl, rfl⟩
  | cons t rest ih =>
    obtain ⟨hvalue, hfault⟩ := ih (relabelToken move awaiting t).2
    exact ⟨congrArg (List.cons _) hvalue, hfault⟩

theorem relabeller_statement : (relabeller move).onStatement.Makes (relabelStatement move) := by
  intro s _
  exact relabeller_tokens move s .nothing

theorem relabeller_line : (relabeller move).onLine.Makes (relabelLine move) := by
  intro l awaiting
  exact (relabeller_statement move).statements
    { l with number := (move l.number).getD l.number } awaiting

/-- The pass makes the relabelled program and cannot fail. -/
theorem relabeller_edit (p : Program) (awaiting : Awaiting) :
    ((relabeller move).edit p awaiting).value = p.relabel move ∧
      ((relabeller move).edit p awaiting).fault = none :=
  (relabeller_line move).lines p awaiting

end Renumbering

open Renumbering

namespace Program

variable {r : Renumbering} {awaiting : Awaiting} {p : Program}

theorem renumberInPlace_of_error {e : Error} (h : r.moves p.numbers = .error e) :
    (p.renumberInPlace r awaiting).value = p ∧
      (p.renumberInPlace r awaiting).fault = some e := by
  rw [renumberInPlace, h]
  exact ⟨rfl, rfl⟩

theorem renumberInPlace_of_ok {moves : List (UInt16 × UInt16)} (h : r.moves p.numbers = .ok moves) :
    (p.renumberInPlace r awaiting).value = p.relabel (target moves) ∧
      (p.renumberInPlace r awaiting).fault = none := by
  rw [renumberInPlace, h]
  exact relabeller_edit (target moves) p awaiting

theorem renumber_of_error {e : Error} (h : r.moves p.numbers = .error e) :
    p.renumber r = .error e := by
  rw [renumber, (renumberInPlace_of_error h).2]

theorem renumber_of_ok {moves : List (UInt16 × UInt16)} (h : r.moves p.numbers = .ok moves) :
    p.renumber r = .ok (p.relabel (target moves)) := by
  obtain ⟨hvalue, hfault⟩ := @renumberInPlace_of_ok r .nothing p moves h
  rw [renumber, hfault, hvalue]

end Program

end Applesoft
