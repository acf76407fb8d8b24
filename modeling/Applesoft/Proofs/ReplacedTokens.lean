import Applesoft.Proofs.Navigation
import Applesoft.Proofs.ReferencePositions

/-!
# Passes that replace tokens

A pass that does nothing but replace tokens comes upon the tokens of a program one after another, across
the borders of lines and statements, and hands its state on from each to the next. If it fails at a
token, those before it have been replaced, and that token and all after it are as they were.
-/
namespace Applesoft

section Flat

variable {σ ε α β : Type}

theorem Edit.each_append (f : Edit σ ε α) (as bs : List α) (s : σ) :
    Edit.each f (as ++ bs) s =
      match (Edit.each f as s).fault with
      | some e => ⟨(Edit.each f as s).value ++ bs, (Edit.each f as s).state, some e⟩
      | none => (Edit.each f bs (Edit.each f as s).state).map ((Edit.each f as s).value ++ ·) := by
  induction as generalizing s with
  | nil => rfl
  | cons a rest ih =>
    rw [List.cons_append, Edit.each, Edit.each]
    cases hhead : (f a s).fault with
    | some e => rfl
    | none =>
      dsimp only
      rw [ih]
      cases (Edit.each f rest (f a s).state).fault with
      | some e => rfl
      | none => rfl

theorem Edit.length_each (f : Edit σ ε α) (as : List α) (s : σ) :
    (Edit.each f as s).value.length = as.length := by
  have hunit := @Edit.map_each σ ε α Unit f (fun _ => ()) (fun _ _ => rfl) as s
  simpa using congrArg List.length hunit

/-- A step goes through the parts of a thing with `f`, whatever else it keeps around them. -/
def Edit.GoesThrough (g : Edit σ ε α) (f : Edit σ ε β) (parts : α → List β) : Prop :=
  ∀ a s, (g a s).map parts = Edit.each f (parts a) s

/-- Going through the parts of one thing after another is going through all of them. -/
theorem Edit.GoesThrough.each {g : Edit σ ε α} {f : Edit σ ε β} {parts : α → List β}
    (h : g.GoesThrough f parts) :
    Edit.GoesThrough (Edit.each g) f (List.flatMap parts) := by
  intro as
  induction as with
  | nil =>
    intro s
    rfl
  | cons a rest ih =>
    intro s
    have hfault : (g a s).fault = (Edit.each f (parts a) s).fault := congrArg Edited.fault (h a s)
    have hstate : (g a s).state = (Edit.each f (parts a) s).state := congrArg Edited.state (h a s)
    have hvalue : parts (g a s).value = (Edit.each f (parts a) s).value :=
      congrArg Edited.value (h a s)
    rw [List.flatMap_cons, Edit.each_append, Edit.each, ← hfault, ← hstate, ← hvalue]
    cases (g a s).fault with
    | some e => rfl
    | none =>
      dsimp only
      rw [← ih]
      rfl

end Flat

def Program.tokens (p : Program) : List Token :=
  p.lines.flatMap Line.tokens

/-- What comes of a token in a state: the state that is handed on, and a fault or the token to put in
its place. -/
abbrev Replacement (σ ε : Type) := Token → σ → σ × Except ε Token

namespace Replacement

variable {σ ε : Type} (f : Replacement σ ε)

def editor : Editor σ ε where
  onToken t s :=
    match f t s with
    | (s', .ok t') => ⟨t', s', none⟩
    | (s', .error e) => ⟨t, s', some e⟩

def stateAfter (s : σ) (ts : List Token) : σ :=
  ts.foldl (fun s t => (f t s).1) s

def outcome? (s : σ) (ts : List Token) (i : Nat) : Option (Except ε Token) :=
  ts[i]?.map fun t => (f t (f.stateAfter s (ts.take i))).2

/-- The token at place `i` is the first at which the replacement fails. -/
structure FailsFirst (s : σ) (ts : List Token) (i : Nat) (e : ε) : Prop where
  fault : f.outcome? s ts i = some (.error e)
  before : ∀ j < i, ∃ t, f.outcome? s ts j = some (.ok t)

/-- The first `n` tokens of `us` are what comes of those of `ts`, and the others are those of `ts`. -/
structure ReplacesFirst (s : σ) (ts us : List Token) (n : Nat) : Prop where
  replaced : ∀ i < n, f.outcome? s ts i = us[i]?.map .ok
  kept : us.drop n = ts.drop n

def noting : Replacement (σ × List Token) ε := fun t s =>
  (((f t s.1).1, s.2 ++ [t]), (f t s.1).2)

def calls (p : Program) (s : σ) : List Token :=
  (f.noting.editor.edit p (s, [])).state.2

variable {f} {s : σ} {t : Token} {ts us : List Token} {i n : Nat} {e : ε}

theorem FailsFirst.lt_length (h : f.FailsFirst s ts i e) : i < ts.length := by
  obtain ⟨t, ht, -⟩ := Option.map_eq_some_iff.1 h.fault
  exact (List.getElem?_eq_some_iff.1 ht).1

theorem each_cons_ok {t' : Token} (h : (f t s).2 = .ok t') :
    Edit.each f.editor.onToken (t :: ts) s =
      (Edit.each f.editor.onToken ts (f t s).1).map (t' :: ·) := by
  have hstep : f.editor.onToken t s = ⟨t', (f t s).1, none⟩ := by
    simp only [editor]
    split
    · next hcall => rw [hcall] at h ⊢; cases h; rfl
    · next hcall => rw [hcall] at h; cases h
  rw [Edit.each, hstep]
  rfl

theorem each_cons_error (h : (f t s).2 = .error e) :
    Edit.each f.editor.onToken (t :: ts) s = ⟨t :: ts, (f t s).1, some e⟩ := by
  have hstep : f.editor.onToken t s = ⟨t, (f t s).1, some e⟩ := by
    simp only [editor]
    split
    · next hcall => rw [hcall] at h; cases h
    · next hcall => rw [hcall] at h ⊢; cases h; rfl
  rw [Edit.each, hstep]

/-- Tokens at which the replacement does not fail are replaced, and the pass goes on after them. -/
theorem exists_each_of_ok (ts : List Token) (s : σ)
    (h : ∀ j < n, ∃ t, f.outcome? s ts j = some (.ok t)) :
    ∃ us, us.length = n ∧ (∀ j < n, f.outcome? s ts j = us[j]?.map .ok) ∧
      Edit.each f.editor.onToken ts s =
        (Edit.each f.editor.onToken (ts.drop n) (f.stateAfter s (ts.take n))).map (us ++ ·) := by
  induction n generalizing ts s with
  | zero => exact ⟨[], rfl, fun j hj => absurd hj (Nat.not_lt_zero j), rfl⟩
  | succ n ih =>
    obtain ⟨t', ht'⟩ := h 0 (Nat.succ_pos n)
    cases ts with
    | nil => cases ht'
    | cons t rest =>
      have hok : (f t s).2 = .ok t' := Option.some.inj ht'
      obtain ⟨us, hlength, houtcome, heach⟩ := ih rest (f t s).1 fun j hj =>
        h (j + 1) (Nat.succ_lt_succ hj)
      refine ⟨t' :: us, congrArg Nat.succ hlength, fun j hj => ?_, ?_⟩
      · cases j with
        | zero => exact ht'
        | succ j => exact houtcome j (Nat.lt_of_succ_lt_succ hj)
      · rw [each_cons_ok hok, heach]
        rfl

theorem replacesFirst_append (hlength : us.length = n)
    (h : ∀ j < n, f.outcome? s ts j = us[j]?.map .ok) :
    f.ReplacesFirst s ts (us ++ ts.drop n) n := by
  constructor
  · intro j hj
    rw [h j hj, List.getElem?_append_left (by omega)]
  · exact List.drop_left' hlength

theorem each_of_failsFirst (h : f.FailsFirst s ts i e) :
    f.ReplacesFirst s ts (Edit.each f.editor.onToken ts s).value i ∧
      (Edit.each f.editor.onToken ts s).state = f.stateAfter s (ts.take (i + 1)) ∧
      (Edit.each f.editor.onToken ts s).fault = some e := by
  obtain ⟨us, hlength, houtcome, heach⟩ := exists_each_of_ok ts s h.before
  obtain ⟨t, ht, hfault⟩ := Option.map_eq_some_iff.1 h.fault
  obtain ⟨hi, rfl⟩ := List.getElem?_eq_some_iff.1 ht
  have hstate : f.stateAfter s (ts.take (i + 1)) = (f ts[i] (f.stateAfter s (ts.take i))).1 := by
    rw [List.take_add_one, ht, stateAfter, List.foldl_append]
    rfl
  have hreplaced := replacesFirst_append hlength houtcome
  rw [List.drop_eq_getElem_cons hi] at heach hreplaced
  rw [each_cons_error hfault] at heach
  rw [heach, hstate]
  exact ⟨hreplaced, rfl, rfl⟩

theorem each_of_never (h : ∀ i e, f.outcome? s ts i ≠ some (.error e)) :
    f.ReplacesFirst s ts (Edit.each f.editor.onToken ts s).value ts.length ∧
      (Edit.each f.editor.onToken ts s).state = f.stateAfter s ts ∧
      (Edit.each f.editor.onToken ts s).fault = none := by
  have hok : ∀ j < ts.length, ∃ t, f.outcome? s ts j = some (.ok t) := by
    intro j hj
    have houtcome : f.outcome? s ts j = some (f ts[j] (f.stateAfter s (ts.take j))).2 := by
      rw [outcome?, List.getElem?_eq_getElem hj]
      rfl
    cases hcall : (f ts[j] (f.stateAfter s (ts.take j))).2 with
    | ok t => exact ⟨t, houtcome.trans (congrArg some hcall)⟩
    | error e => exact absurd (houtcome.trans (congrArg some hcall)) (h j e)
  obtain ⟨us, hlength, houtcome, heach⟩ := exists_each_of_ok ts s hok
  have hreplaced := replacesFirst_append hlength houtcome
  rw [List.drop_length] at heach hreplaced
  rw [List.take_length] at heach
  rw [heach]
  exact ⟨hreplaced, rfl, rfl⟩

/-- The pass comes upon the tokens of a program one after another. -/
theorem edit_flat (f : Replacement σ ε) (p : Program) (s : σ) :
    (f.editor.edit p s).map Program.tokens = Edit.each f.editor.onToken p.tokens s := by
  have htoken : f.editor.onStatement.GoesThrough f.editor.onToken id := by
    intro statement s
    rfl
  have hline : f.editor.onLine.GoesThrough f.editor.onToken Line.tokens := by
    intro l s
    have hstatements := htoken.each l.statements s
    rw [List.flatMap_id] at hstatements
    rw [Line.tokens, ← hstatements]
    exact congrArg (fun g => Edited.map g (Edit.each f.editor.onStatement l.statements s))
      (funext fun statements => List.flatMap_id.symm)
  exact hline.each p.lines s

/-- Nothing but tokens is replaced. -/
theorem frame_edit (f : Replacement σ ε) (p : Program) (s : σ) :
    (f.editor.edit p s).value.id = p.id ∧
      (f.editor.edit p s).value.numbers = p.numbers ∧
      (f.editor.edit p s).value.lines.map Line.owner = p.lines.map Line.owner ∧
      (f.editor.edit p s).value.shape = p.shape := by
  have hstatement (statement : Statement) (s : σ) :
      (f.editor.onStatement statement s).value.length = statement.length :=
    Edit.length_each f.editor.onToken statement s
  have hline (l : Line) (s : σ) :
      (f.editor.onLine l s).value.statements.map List.length = l.statements.map List.length :=
    Edit.map_each hstatement l.statements s
  refine ⟨rfl, ?_, ?_, ?_⟩
  · exact Edit.map_each (fun _ _ => rfl) p.lines s
  · exact Edit.map_each (fun _ _ => rfl) p.lines s
  · exact Edit.map_each hline p.lines s

section Noting

variable (f)

theorem stateAfter_noting (s : σ) (seen ts : List Token) :
    f.noting.stateAfter (s, seen) ts = (f.stateAfter s ts, seen ++ ts) := by
  induction ts generalizing s seen with
  | nil => rw [List.append_nil]; rfl
  | cons t rest ih =>
    have hrest := ih (f t s).1 (seen ++ [t])
    rw [List.append_assoc] at hrest
    exact hrest

theorem outcome?_noting (s : σ) (seen ts : List Token) (i : Nat) :
    f.noting.outcome? (s, seen) ts i = f.outcome? s ts i := by
  rw [outcome?, outcome?, stateAfter_noting]
  rfl

end Noting

theorem calls_eq (f : Replacement σ ε) (p : Program) (s : σ) :
    f.calls p s = (Edit.each f.noting.editor.onToken p.tokens (s, [])).state.2 := by
  rw [← edit_flat]
  rfl

theorem calls_of_failsFirst {p : Program} (h : f.FailsFirst s p.tokens i e) :
    f.calls p s = p.tokens.take (i + 1) := by
  have hnoting : f.noting.FailsFirst (s, []) p.tokens i e := by
    constructor
    · rw [outcome?_noting]
      exact h.fault
    · intro j hj
      rw [outcome?_noting]
      exact h.before j hj
  rw [calls_eq, (each_of_failsFirst hnoting).2.1, stateAfter_noting]
  rfl

theorem calls_of_never {p : Program} (h : ∀ i e, f.outcome? s p.tokens i ≠ some (.error e)) :
    f.calls p s = p.tokens := by
  have hnoting : ∀ i e, f.noting.outcome? (s, []) p.tokens i ≠ some (.error e) := by
    intro i e
    rw [outcome?_noting]
    exact h i e
  rw [calls_eq, (each_of_never hnoting).2.1, stateAfter_noting]
  rfl

end Replacement

/-- A pass that fails at a token has replaced those before it and no other, and it has called the
replacement for these and that token only. A pass that does not fail has replaced all tokens. Nothing
else of the program changes. -/
theorem Program.edit_replacement {σ ε : Type} (f : Replacement σ ε) (p : Program) (s : σ) :
    let run := f.editor.edit p s
    (run.value.id = p.id ∧ run.value.numbers = p.numbers ∧
      run.value.lines.map Line.owner = p.lines.map Line.owner ∧ run.value.shape = p.shape) ∧
    (∀ i e, f.FailsFirst s p.tokens i e →
      f.ReplacesFirst s p.tokens run.value.tokens i ∧
      run.state = f.stateAfter s (p.tokens.take (i + 1)) ∧ run.fault = some e ∧
      f.calls p s = p.tokens.take (i + 1) ∧ (f.calls p s).length = i + 1) ∧
    ((∀ i e, f.outcome? s p.tokens i ≠ some (.error e)) →
      f.ReplacesFirst s p.tokens run.value.tokens p.tokens.length ∧
      run.state = f.stateAfter s p.tokens ∧ run.fault = none ∧ f.calls p s = p.tokens) := by
  intro run
  have hflat : run.map Program.tokens = Edit.each f.editor.onToken p.tokens s := f.edit_flat p s
  have hvalue : run.value.tokens = (Edit.each f.editor.onToken p.tokens s).value :=
    congrArg Edited.value hflat
  have hstate : run.state = (Edit.each f.editor.onToken p.tokens s).state :=
    congrArg Edited.state hflat
  have hfault : run.fault = (Edit.each f.editor.onToken p.tokens s).fault :=
    congrArg Edited.fault hflat
  rw [hvalue, hstate, hfault]
  refine ⟨f.frame_edit p s, fun i e hfails => ?_, fun hnever => ?_⟩
  · obtain ⟨hreplaced, hreached, hended⟩ := Replacement.each_of_failsFirst hfails
    have hcalls := Replacement.calls_of_failsFirst hfails
    have hlength : (f.calls p s).length = i + 1 := by
      rw [hcalls, List.length_take]
      exact Nat.min_eq_left hfails.lt_length
    exact ⟨hreplaced, hreached, hended, hcalls, hlength⟩
  · obtain ⟨hreplaced, hreached, hended⟩ := Replacement.each_of_never hnever
    exact ⟨hreplaced, hreached, hended, Replacement.calls_of_never hnever⟩

/-- A pass that numbers the tokens in place of their lines and fails at a comment, in the middle of a
statement after a line without statements and an empty statement. -/
theorem Program.edit_replacement_comment :
    let f : Replacement Nat Error := fun t n =>
      match t.kind with
      | .comment _ => (n + 1, .error .visitorStopped)
      | kind => (n + 1, .ok ⟨n, kind⟩)
    let a : Token := ⟨1, .keyword .home⟩
    let b : Token := ⟨2, .comment "HI".toList⟩
    let l : Line := ⟨10, [[a], [a, a]], 0⟩
    let p : Program := ⟨0, [l, ⟨20, [], 0⟩, ⟨30, [[], [a, b, a], [a]], 0⟩]⟩
    let run := f.editor.edit p 5
    f.FailsFirst 5 p.tokens 4 .visitorStopped ∧
      f.ReplacesFirst 5 p.tokens run.value.tokens 4 ∧
      run.state = f.stateAfter 5 (p.tokens.take 5) ∧ run.fault = some .visitorStopped ∧
      f.calls p 5 = p.tokens.take 5 ∧ (f.calls p 5).length = 5 := by
  intro f a b l p run
  have hfails : f.FailsFirst 5 p.tokens 4 .visitorStopped := by
    constructor
    · rfl
    · intro j hj
      match j, hj with
      | 0, _ | 1, _ | 2, _ | 3, _ => exact ⟨_, rfl⟩
  exact ⟨hfails, (p.edit_replacement f 5).2.1 4 .visitorStopped hfails⟩

end Applesoft
