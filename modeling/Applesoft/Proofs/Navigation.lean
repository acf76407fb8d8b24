import Applesoft.Proofs.Grouping
import Applesoft.Traversal

/-!
# From line to line

Each line leads to the next one of its program, up to the last line or the first that another program
has made. A program that owns its lines keeps owning them where no line is brought in from elsewhere.
-/
namespace Applesoft

namespace Program

variable {p : Program} {place : Nat}

/-- How many lines are met: those up to the first that the program has not made, with that one. -/
def reach (p : Program) : Nat :=
  min (p.lines.findIdx (·.owner != p.id) + 1) p.lines.length

theorem next?_eq (h : place < p.reach) :
    p.next? place = if place + 1 < p.reach then some (place + 1) else none := by
  have hlength : place < p.lines.length := by unfold reach at h; omega
  have hreach : place + 1 < p.reach ↔
      place < p.lines.findIdx (·.owner != p.id) ∧ place + 1 < p.lines.length := by
    unfold reach
    omega
  rw [next?, List.getElem?_eq_getElem hlength]
  by_cases hown : place < p.lines.findIdx (·.owner != p.id)
  · have howner : p.lines[place].owner = p.id := by
      simpa using List.not_of_lt_findIdx hown
    simp [hreach, hown, howner]
  · have hplace : place = p.lines.findIdx (·.owner != p.id) := by unfold reach at h; omega
    have hforeign : p.lines[place].owner ≠ p.id := by
      have hfound := @List.findIdx_getElem _ (·.owner != p.id) p.lines (hplace ▸ hlength)
      simpa [hplace] using hfound
    simp [hreach, hown, hforeign]

theorem chainFrom_eq (h : place < p.reach) :
    p.chainFrom place = List.range' place (p.reach - place) := by
  -- by the number of lines that are still to be met
  induction hleft : p.reach - place generalizing place with
  | zero => omega
  | succ left ih =>
    have hnext := next?_eq h
    rw [chainFrom, List.range'_succ, List.cons_inj_right]
    by_cases hmore : place + 1 < p.reach
    · rw [if_pos hmore] at hnext
      rw [← ih hmore (by omega)]
      split
      · next after hafter =>
        rw [hnext] at hafter
        rw [← Option.some.inj hafter]
      · next hnone =>
        rw [hnext] at hnone
        cases hnone
    · rw [if_neg hmore] at hnext
      obtain rfl : left = 0 := by omega
      split
      · next after hafter =>
        rw [hnext] at hafter
        cases hafter
      · rfl

/-- The lines that are met from the first on, in storage order. -/
theorem chain_eq (p : Program) : p.chain = List.range p.reach := by
  unfold chain
  cases hlines : p.lines with
  | nil => simp [reach, hlines]
  | cons l rest =>
    have hreach : 0 < p.reach := by simp [reach, hlines]
    rw [List.isEmpty_cons, if_neg (by decide), chainFrom_eq hreach, List.range_eq_range', Nat.sub_zero]

def OwnsLines (p : Program) : Prop := ∀ l ∈ p.lines, l.owner = p.id

theorem OwnsLines.reach_eq (h : p.OwnsLines) : p.reach = p.lines.length := by
  have hnone : p.lines.findIdx (·.owner != p.id) = p.lines.length := by
    refine List.findIdx_eq_length.2 fun l hl => ?_
    simp [h l hl]
  rw [reach, hnone]
  omega

theorem ownsLines_empty (id : Nat) : (empty id).OwnsLines := List.forall_mem_nil _

theorem OwnsLines.appendLine (h : p.OwnsLines) (number : UInt16) : (p.appendLine number).OwnsLines := by
  intro l hl
  rcases List.mem_append.1 hl with hl | hl
  · exact h l hl
  · rw [List.mem_singleton.1 hl]
    rfl

theorem OwnsLines.setLine {l : Line} (h : p.OwnsLines) (hl : l.owner = p.id) (place : Nat) :
    (p.setLine place l).OwnsLines := by
  intro m hm
  rcases List.mem_or_eq_of_mem_set hm with hm | rfl
  · exact h m hm
  · exact hl

/-- Each line of `q` is one that `q` has made or, where `q` goes on from `p`, one from `p`. -/
def BringsNoLine (p q : Program) : Prop :=
  ∀ l ∈ q.lines, l.owner = q.id ∨ q.id = p.id ∧ ∃ m ∈ p.lines, m.owner = l.owner

theorem OwnsLines.of_bringsNoLine {q : Program} (h : p.OwnsLines) (hq : p.BringsNoLine q) :
    q.OwnsLines := by
  intro l hl
  rcases hq l hl with howner | ⟨hid, m, hm, howner⟩
  · exact howner
  · rw [← howner, h m hm, hid]

end Program

section Passes

variable {σ ε α β : Type}

theorem Edit.map_each {f : Edit σ ε α} {g : α → β} (h : ∀ a s, g (f a s).value = g a)
    (as : List α) (s : σ) : ((Edit.each f as s).value).map g = as.map g := by
  induction as generalizing s with
  | nil => rfl
  | cons a rest ih =>
    unfold Edit.each
    dsimp only
    split
    · rw [List.map_cons, List.map_cons, h]
    · rw [List.map_cons, List.map_cons, h, ih]

/-- A pass that goes through the lines and leaves each with its owner brings in no line. -/
theorem bringsNoLine_lines {f : Edit σ ε Line} (h : ∀ l s, (f l s).value.owner = l.owner)
    (p : Program) (s : σ) : p.BringsNoLine (Edit.lines f p s).value := by
  intro l hl
  have howners : (Edit.lines f p s).value.lines.map Line.owner = p.lines.map Line.owner :=
    Edit.map_each h p.lines s
  have hl' : l.owner ∈ p.lines.map Line.owner := howners ▸ List.mem_map_of_mem hl
  exact .inr ⟨rfl, List.mem_map.1 hl'⟩

end Passes

namespace Program

theorem bringsNoLine_self (p : Program) : p.BringsNoLine p :=
  fun l hl => .inr ⟨rfl, l, hl, rfl⟩

theorem owner_of_linesOf {id : Nat} {ts : List Token} {lines : List Line}
    (h : linesOf id ts = .ok lines) : ∀ l ∈ lines, l.owner = id := by
  fun_induction linesOf id ts generalizing lines with
  | case1 =>
    obtain rfl := Except.ok.inj h
    exact List.forall_mem_nil _
  | case2 t rest _ ih => exact ih h
  | case3 => cases h
  | case4 => cases h
  | case5 t rest _ number _ more hmore ih =>
    obtain rfl := Except.ok.inj h
    exact List.forall_mem_cons.2 ⟨rfl, ih hmore⟩

theorem ownsLines_of_parse {id : Nat} {source : Text} {p : Program} (h : parse id source = .ok p) :
    p.OwnsLines := by
  obtain ⟨ts, -, hlines, hid⟩ := parse_eq_ok_iff.1 h
  rw [OwnsLines, hid]
  exact owner_of_linesOf hlines

end Program

end Applesoft
