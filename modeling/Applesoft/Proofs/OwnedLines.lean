import Applesoft.Proofs.Navigation
import Applesoft.Session

/-!
# Lines and their owners in a session

A line gets into another program only by an exchange, or by a pass that brings it in. As long as neither
happens between programs of different ids, every program of a session owns its lines, and the chain of
each meets them all.
-/
namespace Applesoft

open Program

namespace Session

variable {s : Session} {slot : String} {p : Program}

def OwnsLines (s : Session) : Prop := ∀ entry ∈ s.slots, entry.2.OwnsLines

theorem OwnsLines.lookup (h : s.OwnsLines) (hp : s.slots.lookup slot = some p) : p.OwnsLines := by
  obtain ⟨before, after, hslots, -⟩ := List.lookup_eq_some_iff.1 hp
  exact h (slot, p) (by rw [hslots]; exact List.mem_append_right _ List.mem_cons_self)

theorem OwnsLines.put (h : s.OwnsLines) (hp : p.OwnsLines) (slot : String) :
    (s.put slot p).OwnsLines := by
  intro entry hentry
  rcases List.mem_cons.1 hentry with rfl | hkept
  · exact hp
  · exact h entry (List.mem_of_mem_filter hkept)

theorem OwnsLines.putNew (h : s.OwnsLines) (hp : p.OwnsLines) (slot : String) :
    (s.putNew slot p).OwnsLines :=
  h.put hp slot

section Steps

variable {go : Program → Outcome} {place : Nat}

theorem OwnsLines.withProgram (h : s.OwnsLines)
    (hgo : ∀ p, s.slots.lookup slot = some p → (go p).2.OwnsLines) :
    (s.withProgram slot go).2.OwnsLines := by
  unfold Session.withProgram
  cases hp : s.slots.lookup slot with
  | none => exact h
  | some p => exact hgo p hp

theorem OwnsLines.withLine {go : Line → Outcome} (h : s.OwnsLines)
    (hgo : ∀ l, p.lines[place]? = some l → (go l).2.OwnsLines) :
    (s.withLine p place go).2.OwnsLines := by
  unfold Session.withLine
  cases hl : p.lines[place]? with
  | none => exact h
  | some l => exact hgo l hl

theorem OwnsLines.withResult {α : Type} {result : Except Error α} {go : α → Outcome}
    (h : s.OwnsLines) (hgo : ∀ a, result = .ok a → (go a).2.OwnsLines) :
    (s.withResult result go).2.OwnsLines := by
  cases result with
  | error e => exact h
  | ok a => exact hgo a rfl

theorem OwnsLines.finishEdit {σ : Type} {count : σ → Option Nat} {e : Edited σ Error Program}
    (h : s.OwnsLines) (he : e.value.OwnsLines) (slot : String) :
    (s.finishEdit slot count e).2.OwnsLines :=
  h.put he slot

end Steps

end Session

theorem Renumberer.bringsNoLine_renumber (x : Renumberer) (r : Renumbering) (p : Program) :
    p.BringsNoLine (x.renumber r p).value := by
  unfold renumber
  split
  · exact p.bringsNoLine_self
  · exact bringsNoLine_lines (fun _ _ => rfl) p _

namespace Session

variable {s : Session} {slot : String}

theorem OwnsLines.useTools (h : s.OwnsLines) (slot : String) (c : Tools.Call)
    (hc : ∀ r p, c = .renumber r p → p.OwnsLines) : (s.useTools slot c).2.OwnsLines := by
  have htools (tools : Tools) : OwnsLines { s with tools := tools } := h
  cases c with
  | tokenize | tokenizeText | list | renumberText => exact (htools _).withResult fun _ _ => htools _
  | setLetters => exact htools _
  | renumber r p =>
    have hp := (hc r p rfl).of_bringsNoLine (s.tools.renumberer.bringsNoLine_renumber r p)
    exact (htools _).put hp slot

theorem ownsLines_of_parsed {id : Nat} {listing : Except Error Text} {p : Program}
    (h : listing.bind (Program.parse id) = .ok p) : p.OwnsLines := by
  cases listing with
  | error e => cases h
  | ok text => exact ownsLines_of_parse h

def Operation.KeepsApart (s : Session) (slot : String) : Operation → Prop
  | .exchange line slot' other =>
    ∀ p q, s.slots.lookup slot = some p → s.slots.lookup slot' = some q →
      line < p.lines.length → other < q.lines.length → p.id = q.id
  | _ => True

theorem OwnsLines.step (h : s.OwnsLines) {op : Operation} (hop : op.KeepsApart s slot) :
    (s.step slot op).2.OwnsLines := by
  have howner {slot : String} {p : Program} {place : Nat} {l : Line}
      (hp : s.slots.lookup slot = some p) (hl : p.lines[place]? = some l) : l.owner = p.id :=
    h.lookup hp l (List.mem_of_getElem? hl)
  cases op with
  | new => exact h.putNew (ownsLines_empty s.nextId) slot
  | parse source => exact h.withResult fun p hp => h.putNew (ownsLines_of_parse hp) slot
  | reparse =>
    refine h.withProgram fun p hp => ?_
    have hlister : OwnsLines { s with tools.lister := (s.tools.lister.list p).2 } := h
    exact hlister.withResult fun p' hp' => hlister.putNew (ownsLines_of_parsed hp') slot
  | clone target => exact h.withProgram fun p hp => h.put (h.lookup hp) target
  | appendLine number => exact h.withProgram fun p hp => h.put ((h.lookup hp).appendLine number) slot
  | appendStatement line tokens =>
    refine h.withProgram fun p hp => h.withLine fun l hl => h.put ?_ slot
    have hl' : (l.appendStatement tokens).owner = p.id := howner (l := l) hp hl
    exact (h.lookup hp).setLine hl' line
  | setNumber line number =>
    refine h.withProgram fun p hp => h.withLine fun l hl => h.put ?_ slot
    have hl' : ({ l with number := number } : Line).owner = p.id := howner (l := l) hp hl
    exact (h.lookup hp).setLine hl' line
  | swap line other =>
    refine h.withProgram fun p hp => h.withLine fun l hl => h.withLine fun m hm => h.put ?_ slot
    have hl : l.owner = p.id := howner hp hl
    exact ((h.lookup hp).setLine (howner hp hm) line).setLine hl other
  | exchange line slot' other =>
    refine h.withProgram fun p hp => h.withProgram fun q hq => h.withLine fun l hl =>
      h.withLine fun m hm => ?_
    obtain ⟨hline, -⟩ := List.getElem?_eq_some_iff.1 hl
    obtain ⟨hother, -⟩ := List.getElem?_eq_some_iff.1 hm
    -- each line carries the id of the program that it leaves, which is that of the other one
    have hid : p.id = q.id := hop p q hp hq hline hother
    have hl : l.owner = p.id := howner hp hl
    have hset : (p.setLine line m).OwnsLines :=
      (h.lookup hp).setLine ((howner hq hm).trans hid.symm) line
    split
    · exact h.put (hset.setLine hl other) slot
    · have hset' : (q.setLine other l).OwnsLines := (h.lookup hq).setLine (hl.trans hid) other
      exact (h.put hset slot).put hset' slot'
  | lineAfter line holder detached =>
    exact h.withProgram fun p _ => h.withLine fun _ _ => h.withProgram fun _ _ => h
  | isOwner line holder =>
    exact h.withProgram fun p _ => h.withLine fun _ _ => h.withProgram fun _ _ => h
  | chain | find | dump | record | collectTokens => exact h.withProgram fun _ _ => h
  | list letters =>
    cases letters with
    | none => exact h.withProgram fun p _ => h.useTools slot _ (by simp)
    | some letters =>
      have hletters := h.useTools slot (.setLetters letters) (by simp)
      exact hletters.withProgram fun p _ => hletters.useTools slot _ (by simp)
  | layOut address => exact h.withProgram fun p _ => h.useTools slot _ (by simp)
  | layOutText source address => exact h.useTools slot _ (by simp)
  | renumber r =>
    refine h.withProgram fun p hp => h.useTools slot _ ?_
    rintro r' p' heq
    obtain ⟨-, rfl⟩ := Tools.Call.renumber.inj heq
    exact h.lookup hp
  | renumberText source r => exact h.useTools slot _ (by simp)
  | passIdly =>
    refine h.withProgram fun p hp => h.put ?_ slot
    exact (h.lookup hp).of_bringsNoLine (bringsNoLine_lines (fun _ _ => rfl) p ())
  | addToNumbers amount failAt =>
    refine h.withProgram fun p hp => h.finishEdit ?_ slot
    exact (h.lookup hp).of_bringsNoLine (bringsNoLine_lines (fun _ _ => rfl) p 0)
  | shiftLines amount =>
    refine h.withProgram fun p hp => h.finishEdit ?_ slot
    exact (h.lookup hp).of_bringsNoLine (bringsNoLine_lines (fun _ _ => rfl) p ())
  | reverse =>
    refine h.withProgram fun p hp => h.finishEdit ?_ slot
    exact (h.lookup hp).of_bringsNoLine (bringsNoLine_lines (fun _ _ => rfl) p 0)

/-- What is done in a session: an operation, or a pass of any kind over the program of a slot. -/
inductive Action : Type 1
  | operation (slot : String) (op : Operation)
  | pass {σ ε : Type} (slot : String) (v : Editor σ ε) (state : σ)

/-- The session after an action. A pass leaves what it has made of the program, also after a fault. -/
def perform (s : Session) : Action → Session
  | .operation slot op => (s.step slot op).2
  | .pass slot v state =>
    match s.slots.lookup slot with
    | some p => s.put slot (v.edit p state).value
    | none => s

def performAll (s : Session) (actions : List Action) : Session :=
  actions.foldl perform s

/-- The action exchanges no lines between programs of different ids: an operation does not, and a pass
puts no line of another program in the place of one. -/
def Action.KeepsApart (s : Session) : Action → Prop
  | .operation slot op => op.KeepsApart s slot
  | .pass slot v state =>
    ∀ p, s.slots.lookup slot = some p → p.BringsNoLine (v.edit p state).value

def KeepsApart (s : Session) : List Action → Prop
  | [] => True
  | action :: rest => action.KeepsApart s ∧ (s.perform action).KeepsApart rest

theorem OwnsLines.perform (h : s.OwnsLines) {action : Action} (ha : action.KeepsApart s) :
    (s.perform action).OwnsLines := by
  cases action with
  | operation slot op => exact h.step ha
  | pass slot v state =>
    simp only [Session.perform]
    cases hp : s.slots.lookup slot with
    | none => exact h
    | some p => exact h.put ((h.lookup hp).of_bringsNoLine (ha p hp)) slot

theorem OwnsLines.performAll {actions : List Action} (h : s.OwnsLines)
    (ha : s.KeepsApart actions) : (s.performAll actions).OwnsLines := by
  induction actions generalizing s with
  | nil => exact h
  | cons action rest ih => exact ih (h.perform ha.1) ha.2

theorem ownsLines_initial : initial.OwnsLines := List.forall_mem_nil _

/-- The numbers of the lines that the chain meets. -/
theorem step_chain {p : Program} (hp : s.slots.lookup slot = some p) :
    (s.step slot .chain).1 = .ok (.numbers ((p.lines.take p.reach).map Line.number)) := by
  have hmet (n : Nat) : (List.range n).filterMap (fun place => p.lines[place]?.map Line.number) =
      (p.lines.take n).map Line.number := by
    induction n with
    | zero => rfl
    | succ n ih =>
      rw [List.range_succ, List.filterMap_append, ih, List.take_add_one, List.map_append]
      cases hl : p.lines[n]? <;> simp [hl]
  simp only [step, withProgram, hp, answer, chain_eq, hmet]

/-- After any actions the chain of a program meets its lines in storage order, up to the first that
another program has made or to the last. Where no lines have been exchanged between programs of
different ids, every line is its program's own, and the chain meets each once. -/
theorem chain_performAll (actions : List Action) {slot : String} {p : Program}
    (hp : (initial.performAll actions).slots.lookup slot = some p) :
    let met := p.lines.findIdx (·.owner != p.id) + 1
    p.chain = List.range (min met p.lines.length) ∧
      ((initial.performAll actions).step slot .chain).1 =
        .ok (.numbers ((p.lines.take met).map Line.number)) ∧
      (initial.KeepsApart actions →
        (∀ l ∈ p.lines, l.owner = p.id) ∧ p.chain = List.range p.lines.length) := by
  intro met
  refine ⟨chain_eq p, ?_, fun hapart => ?_⟩
  · rw [step_chain hp, reach, ← List.take_eq_take_min]
  · have howns : p.OwnsLines := (ownsLines_initial.performAll hapart).lookup hp
    exact ⟨howns, by rw [chain_eq, howns.reach_eq]⟩

/-- A program and its copy share an id, so that lines exchanged between them are met as well; the last
pass adds to the line numbers. -/
theorem chain_performAll_clones :
    let actions : List Action :=
      [.operation "A" .new, .operation "A" (.appendLine 10), .operation "A" (.appendLine 20),
        .operation "A" (.clone "B"), .operation "A" (.exchange 0 "B" 1),
        .pass "A" (Traversal.shifter 5) ()]
    let p : Program := ⟨0, [⟨25, [], 0⟩, ⟨25, [], 0⟩]⟩
    (initial.performAll actions).slots.lookup "A" = some p ∧ p.chain = List.range 2 := by
  intro actions p
  have hp : (initial.performAll actions).slots.lookup "A" = some p := by decide +kernel
  have hapart : initial.KeepsApart actions := by
    refine ⟨trivial, trivial, trivial, trivial, fun p q hp hq _ _ => ?_, fun p _ => ?_, trivial⟩
    · let copied := initial.performAll (actions.take 4)
      have hA : (copied.slots.lookup "A").map Program.id = some 0 := by decide +kernel
      have hB : (copied.slots.lookup "B").map Program.id = some 0 := by decide +kernel
      have hidA : (some p).map Program.id = some 0 := hp ▸ hA
      have hidB : (some q).map Program.id = some 0 := hq ▸ hB
      exact Option.some.inj (hidA.trans hidB.symm)
    · exact bringsNoLine_lines (fun _ _ => rfl) p ()
  exact ⟨hp, ((chain_performAll actions hp).2.2 hapart).2⟩

end Session

end Applesoft
