import Mathlib.Data.List.Basic
import Applesoft.Traversal

/-!
# The order of a traversal

The nodes of a program in storage order, each before what is in it. A pass that writes down what it
comes upon writes down these up to the one at which it fails, and nothing below the level at which it
does not go down, whether it may change the program or not.
-/
namespace Applesoft

def Level.depth : Level → Nat
  | .program => 0
  | .line => 1
  | .statement => 2
  | .token => 3

namespace Program

/-- All nodes of a program, each one before its descendants. -/
def nodes (p : Program) : List Node :=
  .program p :: p.lines.flatMap fun l =>
    .line l :: l.statements.flatMap fun s => .statement s :: s.map .token

def nodesDownTo (stop : Option Level) (p : Program) : List Node :=
  p.nodes.filter fun n => stop.all fun level => n.level.depth ≤ level.depth

end Program

namespace Traversal

variable {α : Type} {stop : Option Level} {k : Nat}

/-- What is written down, and the fault, when `nodes` are come upon after `seen` and the node numbered
`k` is the one to fail at. -/
def record (k : Nat) (seen nodes : List Node) : List Node × Option Error :=
  ((seen ++ nodes).take k, if k ≤ (seen ++ nodes).length then some .visitorStopped else none)

def Writes (k : Nat) (f : List Node → List Node × Option Error) (nodes : List Node) : Prop :=
  ∀ seen : List Node, seen.length < k → f seen = record k seen nodes

theorem record_of_lt {seen nodes : List Node} (h : (seen ++ nodes).length < k) :
    record k seen nodes = (seen ++ nodes, none) := by
  rw [record, List.take_of_length_le (Nat.le_of_lt h), if_neg (Nat.not_le.2 h)]

theorem record_of_le {seen nodes : List Node} (h : k ≤ (seen ++ nodes).length) :
    record k seen nodes = ((seen ++ nodes).take k, some .visitorStopped) := by
  rw [record, if_pos h]

/-- Once the node to fail at has been written down, no more follow. -/
theorem record_append_of_le {seen nodes : List Node} (h : k ≤ (seen ++ nodes).length)
    (more : List Node) : record k seen (nodes ++ more) = record k seen nodes := by
  have hlonger : k ≤ (seen ++ (nodes ++ more)).length := by
    rw [← List.append_assoc, List.length_append]
    omega
  rw [record_of_le h, record_of_le hlonger, ← List.append_assoc, List.take_append_of_le_length h]

theorem record_append (seen nodes more : List Node) :
    record k seen (nodes ++ more) = record k (seen ++ nodes) more := by
  rw [record, record, List.append_assoc]

theorem writes_nil : Writes k (fun seen => (seen, none)) [] := by
  intro seen hlt
  rw [record_of_lt (by simpa using hlt), List.append_nil]

theorem Writes.each {f : Look (List Node) Error α} {g : α → List Node}
    (h : ∀ a, Writes k (f a) (g a)) (as : List α) : Writes k (Look.each f as) (as.flatMap g) := by
  induction as with
  | nil => exact writes_nil
  | cons a rest ih =>
    intro seen hlt
    rw [Look.each, h a seen hlt, List.flatMap_cons]
    by_cases hfits : (seen ++ g a).length < k
    · rw [record_of_lt hfits, record_append]
      exact ih (seen ++ g a) hfits
    · have hfull := Nat.not_lt.1 hfits
      rw [record_append_of_le hfull, record_of_le hfull]

theorem Writes.enter {n : Node} {descend : List Node → List Node × Option Error}
    {below : List Node} (h : Writes k descend below) :
    Writes k (enter stop (some k) n descend) (n :: if stop = some n.level then [] else below) := by
  intro seen hlt
  have hone : (seen ++ [n]).length = seen.length + 1 := by simp
  rw [← List.singleton_append, record_append]
  unfold Traversal.enter
  dsimp only
  by_cases hlast : (seen ++ [n]).length = k
  · -- the node itself is the one to fail at, whatever is below it
    rw [if_pos (by rw [hlast]), ← record_append, record_append_of_le (by omega),
      record_of_le (by omega), List.take_of_length_le (by omega)]
  · have hmore : (seen ++ [n]).length < k := by omega
    rw [if_neg (by simpa [eq_comm] using hlast)]
    split
    · exact writes_nil _ hmore
    · exact h _ hmore

def below (stop : Option Level) (level : Level) (nodes : List Node) : List Node :=
  if stop = some level then [] else nodes

/-- Leaving out the descendants of a level is not going down there. -/
theorem nodesDownTo_eq (stop : Option Level) (p : Program) :
    p.nodesDownTo stop = .program p :: below stop .program (p.lines.flatMap fun l =>
      .line l :: below stop .line (l.statements.flatMap fun s =>
        .statement s :: below stop .statement (s.map .token))) := by
  have hnone (ss : List Statement) : ss.flatMap (fun _ => ([] : List Node)) = [] := by simp
  rcases stop with _ | _ | _ | _ | _ <;>
    simp [Program.nodesDownTo, Program.nodes, below, Level.depth, Node.level, List.filter_flatMap,
      List.filter_map, Function.comp_def, hnone]

section Recorder

variable (stop k)

theorem recorder_token (t : Token) : Writes k ((recorder stop (some k)).onToken t) [.token t] := by
  have h : Writes k ((recorder stop (some k)).onToken t) _ := writes_nil.enter
  rwa [ite_self] at h

theorem recorder_statement (s : Statement) :
    Writes k ((recorder stop (some k)).onStatement s)
      (.statement s :: below stop .statement (s.map .token)) := by
  rw [List.map_eq_flatMap]
  exact (Writes.each (recorder_token stop k) s).enter

theorem recorder_line (l : Line) :
    Writes k ((recorder stop (some k)).onLine l)
      (.line l :: below stop .line (l.statements.flatMap fun s =>
        .statement s :: below stop .statement (s.map .token))) :=
  (Writes.each (recorder_statement stop k) l.statements).enter

theorem recorder_program (p : Program) :
    Writes k ((recorder stop (some k)).onProgram p) (p.nodesDownTo stop) := by
  rw [nodesDownTo_eq]
  exact (Writes.each (recorder_line stop k) p.lines).enter

end Recorder

section EditingRecorder

variable {σ ε : Type}

/-- A step that could change things and does what a step that looks does, changing nothing. -/
def Observes (e : Edit σ ε α) (f : Look σ ε α) : Prop :=
  ∀ a s, e a s = ⟨a, (f a s).1, (f a s).2⟩

theorem Observes.each {e : Edit σ ε α} {f : Look σ ε α} (h : Observes e f) :
    Observes (Edit.each e) (Look.each f) := by
  intro as
  induction as with
  | nil => intro s; rfl
  | cons a rest ih =>
    intro s
    rw [Edit.each, Look.each, h a s]
    rcases f a s with ⟨s', _ | fault⟩
    · simp only [ih s']
    · rfl

theorem Observes.statements {e : Edit σ ε Statement} {f : Look σ ε Statement} (h : Observes e f) :
    Observes (Edit.statements e) fun l => Look.each f l.statements := by
  intro l s
  rw [Edit.statements, h.each]
  rfl

theorem Observes.lines {e : Edit σ ε Line} {f : Look σ ε Line} (h : Observes e f) :
    Observes (Edit.lines e) fun p => Look.each f p.lines := by
  intro p s
  rw [Edit.lines, h.each]
  rfl

theorem Observes.enter {node : α → Node} {e : Edit (List Node) Error α}
    {f : Look (List Node) Error α} (h : Observes e f) (stop : Option Level) (failAt : Option Nat) :
    Observes (enterToEdit stop failAt node e) fun a => Traversal.enter stop failAt (node a) (f a) := by
  intro a seen
  unfold enterToEdit Traversal.enter
  dsimp only
  split
  · rfl
  · split
    · rfl
    · exact h a _

variable (stop : Option Level) (failAt : Option Nat)

theorem editingRecorder_token :
    Observes (editingRecorder stop failAt).onToken (recorder stop failAt).onToken := by
  let stay : Edit (List Node) Error Token := fun t seen => ⟨t, seen, none⟩
  have h : Observes stay fun _ seen => (seen, none) := fun _ _ => rfl
  exact h.enter stop failAt

theorem editingRecorder_statement :
    Observes (editingRecorder stop failAt).onStatement (recorder stop failAt).onStatement :=
  (editingRecorder_token stop failAt).each.enter stop failAt

theorem editingRecorder_line :
    Observes (editingRecorder stop failAt).onLine (recorder stop failAt).onLine :=
  (editingRecorder_statement stop failAt).statements.enter stop failAt

theorem editingRecorder_program :
    Observes (editingRecorder stop failAt).onProgram (recorder stop failAt).onProgram :=
  (editingRecorder_line stop failAt).lines.enter stop failAt

end EditingRecorder

end Traversal

open Traversal

/-- A pass that fails at the node numbered `k` has by then come upon the first `k` nodes in storage
order, those below the level at which it stops left out, and it fails exactly if there are that many.
A pass that may change the program comes upon the same nodes. -/
theorem Program.visit_recorder (p : Program) (stop : Option Level) {k : Nat} (hk : 1 ≤ k) :
    let nodes := p.nodesDownTo stop
    let fault := if k ≤ nodes.length then some Error.visitorStopped else none
    (recorder stop (some k)).visit p [] = (nodes.take k, fault) ∧
      (editingRecorder stop (some k)).edit p [] = ⟨p, nodes.take k, fault⟩ := by
  intro nodes fault
  have hvisit : (recorder stop (some k)).visit p [] = (nodes.take k, fault) :=
    recorder_program stop k p [] hk
  refine ⟨hvisit, ?_⟩
  rw [Editor.edit, editingRecorder_program, ← Visitor.visit, hvisit]

theorem Program.visit_recorder_statements :
    let t : Token := ⟨1, .keyword .endRun⟩
    let l : Line := ⟨10, [[t], [], [t, t]], 0⟩
    let l' : Line := ⟨20, [], 0⟩
    let p : Program := ⟨0, [l, l']⟩
    let nodes := p.nodesDownTo (some .statement)
    1 ≤ 5 ∧ nodes = [.program p, .line l, .statement [t], .statement [], .statement [t, t], .line l'] ∧
      (recorder (some .statement) (some 5)).visit p [] = (nodes.take 5, some .visitorStopped) ∧
      (editingRecorder (some .statement) (some 5)).edit p [] =
        ⟨p, nodes.take 5, some .visitorStopped⟩ := by
  intro t l l' p nodes
  exact ⟨by decide, by decide, p.visit_recorder (some .statement) (by decide)⟩

end Applesoft
