import Mathlib.Algebra.GroupWithZero.Nat
import Applesoft.Proofs.SourceSpans
import Applesoft.TokenStream

/-!
# Drawing to the end

Every token and every fault that is drawn from a stream uses up a character or an undecodable line, and
there are no more of these than bytes. So a source comes to its end, also if drawing goes on after every
fault, and stays there. On the way the source lines of the tokens never go back.
-/
namespace Applesoft

namespace SourceBytes

theorem flatten_lines (bytes : List UInt8) : (lines bytes).flatten = bytes := by
  induction bytes with
  | nil => rfl
  | cons b rest ih =>
    rw [lines]
    split
    · rw [List.flatten_cons, ih]
      rfl
    · cases hlines : lines rest with
      | nil => simpa [hlines] using ih
      | cons l ls => simpa [hlines] using ih

theorem ne_nil_of_mem_lines {bytes l : List UInt8} (h : l ∈ lines bytes) : l ≠ [] := by
  induction bytes with
  | nil => cases h
  | cons b rest ih =>
    rw [lines] at h
    split at h
    · rcases List.mem_cons.1 h with rfl | h
      · exact List.cons_ne_nil _ _
      · exact ih h
    · cases hlines : lines rest with
      | nil =>
        rw [hlines] at h
        rw [List.mem_singleton.1 h]
        exact List.cons_ne_nil _ _
      | cons l' ls =>
        rw [hlines] at h ih
        rcases List.mem_cons.1 h with rfl | h
        · exact List.cons_ne_nil _ _
        · exact ih (List.mem_cons_of_mem _ h)

/-- The characters of the runs and the undecodable lines are no more than the bytes. -/
theorem length_runs_le (bytes : List UInt8) :
    (runs bytes).1.length + ((runs bytes).2.map fun t => t.length + 1).sum ≤ bytes.length := by
  have hne : ∀ l ∈ lines bytes, l ≠ [] := fun l hl => ne_nil_of_mem_lines hl
  have hbytes : bytes.length = (lines bytes).flatten.length := by rw [flatten_lines]
  rw [hbytes, runs]
  generalize lines bytes = ls at hne ⊢
  induction ls with
  | nil => exact Nat.le_refl _
  | cons l ls ih =>
    rw [List.forall_mem_cons] at hne
    have hrest := ih hne.2
    have hpos := List.length_pos_iff.2 hne.1
    rw [List.foldr_cons, List.flatten_cons, List.length_append]
    cases hdecode : decode? l with
    | some t =>
      have := length_le_of_decode? hdecode
      simp only [List.length_append]
      omega
    | none =>
      simp only [List.length_nil, List.map_cons, List.sum_cons]
      omega

end SourceBytes

def Reading.lineAfter : Reading → Nat
  | .token _ _ l | .fault _ _ l | .done l => l

namespace Lexing

theorem le_lineAfter_readWord (line : Nat) (word rest : Text) :
    line ≤ (readWord line word rest).lineAfter := by
  unfold readWord
  split
  · exact Nat.le_refl _
  · unfold readKeyword
    split
    · exact Nat.le_refl _
    · split
      · exact Nat.le_refl _
      · split
        · exact Nat.le_refl _
        · exact Nat.le_add_right _ _
  · split
    · exact Nat.le_refl _
    · unfold readIdentifier
      split <;> exact Nat.le_refl _

/-- Reading never goes back a line, whatever it comes to. -/
theorem le_lineAfter_readToken (line : Nat) (s : Text) : line ≤ (readToken line s).lineAfter := by
  fun_induction readToken line s with
  | case1 | case3 | case4 | case7 | case8 | case10 => exact Nat.le_refl _
  | case2 line => exact Nat.le_succ line
  | case5 line _ word r => exact le_lineAfter_readWord line word r
  | case6 line _ _ _ _ _ _ _ ih => exact Nat.le_trans (Nat.le_succ line) ih
  | case9 line _ c r =>
    obtain ⟨k, -, hread⟩ := readPunctuation_eq_token line c r
    rw [hread]
    exact Nat.le_refl _

end Lexing

namespace TokenStream

def Draw.line? : Draw → Option Nat
  | .token t => some t.line
  | .fault _ | .finished => none

def unread (s : TokenStream) : Nat :=
  s.text.length + (s.later.map fun t => t.length + 1).sum

structure Progress (s : TokenStream) (answer : Draw) (s' : TokenStream) : Prop where
  unread_lt : s'.unread < s.unread
  line_le : s.line ≤ s'.line
  between : ∀ line ∈ answer.line?, s.line ≤ line ∧ line ≤ s'.line
  mayHaveMore : s'.mayHaveMore = s.mayHaveMore

variable {s s' : TokenStream} {answer : Draw}

theorem next_progress (h : s.next = (answer, s')) (hanswer : answer ≠ .finished) :
    s.Progress answer s' := by
  have hadvances := Lexing.readToken_advances s.line s.text
  have hline := Lexing.le_lineAfter_readToken s.line s.text
  have hshortens := Lexing.readToken_shortens s.line s.text
  unfold next at h
  cases hread : Lexing.readToken s.line s.text with
  | token t rest line =>
    rw [hread] at h hadvances hline hshortens
    obtain ⟨rfl, rfl⟩ := Prod.mk.inj h
    refine ⟨Nat.add_lt_add_right hshortens _, hline, ?_, rfl⟩
    rintro _ ⟨⟩
    exact ⟨hadvances.1, hadvances.2.1⟩
  | fault e rest line =>
    rw [hread] at h hline hshortens
    obtain ⟨rfl, rfl⟩ := Prod.mk.inj h
    exact ⟨Nat.add_lt_add_right hshortens _, hline, by simp [Draw.line?], rfl⟩
  | done line =>
    rw [hread] at h hline
    cases hlater : s.later with
    | nil =>
      rw [hlater] at h
      exact absurd (Prod.mk.inj h).1.symm hanswer
    | cons text later =>
      -- what is used up is the undecodable line
      rw [hlater] at h
      obtain ⟨rfl, rfl⟩ := Prod.mk.inj h
      refine ⟨?_, hline, by simp [Draw.line?], rfl⟩
      simp only [unread, hlater, List.map_cons, List.sum_cons]
      omega

theorem next_finished (h : s.next = (.finished, s')) :
    s'.text = [] ∧ s'.later = [] ∧ s'.mayHaveMore = false := by
  unfold next at h
  cases hread : Lexing.readToken s.line s.text with
  | token t rest line => simp [hread] at h
  | fault e rest line => simp [hread] at h
  | done line =>
    cases hlater : s.later with
    | nil =>
      simp only [hread, hlater, Prod.mk.injEq, true_and] at h
      rw [← h]
      exact ⟨rfl, rfl, rfl⟩
    | cons text later => simp [hread, hlater] at h

theorem next_of_nothing_left (htext : s.text = []) (hlater : s.later = []) :
    s.next = (.finished, { s with mayHaveMore := false }) := by
  have hread : Lexing.readToken s.line [] = .done s.line := Lexing.readToken_eq s.line []
  simp [next, htext, hlater, hread]

theorem drawMany_nothing_left (htext : s.text = []) (hlater : s.later = []) (n : Nat) :
    drawMany .resuming n s = List.replicate n (.finished, false) := by
  induction n generalizing s with
  | zero => rfl
  | succ n ih =>
    have hrest : drawMany .resuming n { s with mayHaveMore := false } = _ := ih htext hlater
    rw [drawMany, draw, next_of_nothing_left htext hlater]
    dsimp only
    rw [hrest, List.replicate_succ]

/-- Lines that do not go back from the line of the stream on do not after another draw either. -/
theorem Progress.pairwise_cons {drawn : List Draw} (h : s.Progress answer s')
    (hdrawn : (s'.line :: drawn.filterMap Draw.line?).Pairwise (· ≤ ·)) :
    (s.line :: (answer :: drawn).filterMap Draw.line?).Pairwise (· ≤ ·) := by
  rw [List.pairwise_cons] at hdrawn
  obtain ⟨hfrom, hrest⟩ := hdrawn
  have hbetween := h.between
  rw [List.filterMap_cons]
  cases hline : answer.line? with
  | none =>
    refine List.pairwise_cons.2 ⟨fun l hl => ?_, hrest⟩
    exact Nat.le_trans h.line_le (hfrom l hl)
  | some line =>
    obtain ⟨hlow, hhigh⟩ := hbetween line hline
    have habove : ∀ l ∈ drawn.filterMap Draw.line?, line ≤ l := fun l hl =>
      Nat.le_trans hhigh (hfrom l hl)
    refine List.pairwise_cons.2 ⟨?_, List.pairwise_cons.2 ⟨habove, hrest⟩⟩
    exact List.forall_mem_cons.2 ⟨hlow, fun l hl => Nat.le_trans hlow (habove l hl)⟩

/-- What is drawn from a stream until its end, and what is drawn from then on. -/
theorem exists_drawn (s : TokenStream) (hmore : s.mayHaveMore = true) :
    ∃ drawn : List Draw, drawn.length ≤ s.unread ∧ .finished ∉ drawn ∧
      (s.line :: drawn.filterMap Draw.line?).Pairwise (· ≤ ·) ∧
      ∀ n, drawMany .resuming (drawn.length + n) s =
        drawn.map (·, true) ++ List.replicate n (.finished, false) := by
  induction hunread : s.unread using Nat.strong_induction_on generalizing s with
  | _ unread ih =>
    obtain ⟨answer, s', hnext⟩ : ∃ answer s', s.next = (answer, s') := ⟨_, _, rfl⟩
    by_cases hanswer : answer = .finished
    · subst hanswer
      obtain ⟨htext, hlater, hfalse⟩ := next_finished hnext
      refine ⟨[], Nat.zero_le _, List.not_mem_nil, List.pairwise_singleton _ _, fun n => ?_⟩
      rw [List.length_nil, Nat.zero_add]
      cases n with
      | zero => rfl
      | succ n =>
        rw [drawMany, draw, hnext]
        dsimp only
        rw [hfalse, drawMany_nothing_left htext hlater]
        rfl
    · have hprogress := next_progress hnext hanswer
      have hlt := hprogress.unread_lt
      have hsame := hprogress.mayHaveMore
      obtain ⟨drawn, hlength, hfinished, hlines, hdraws⟩ :=
        ih s'.unread (hunread ▸ hlt) s' (hsame.trans hmore) rfl
      refine ⟨answer :: drawn, ?_, ?_, hprogress.pairwise_cons hlines, fun n => ?_⟩
      · rw [List.length_cons]
        omega
      · rw [List.mem_cons, not_or]
        exact ⟨Ne.symm hanswer, hfinished⟩
      · rw [List.length_cons, Nat.add_right_comm, drawMany, draw, hnext]
        dsimp only
        rw [hsame, hmore, hdraws]
        rfl

theorem unread_ofBytes_le (bytes : List UInt8) : (ofBytes bytes).unread ≤ bytes.length :=
  SourceBytes.length_runs_le bytes

/-- From any bytes no more tokens and faults are drawn than there are bytes, with faults in between as
they come. The source lines of the tokens do not go back. Then comes the end, and nothing else is drawn
from there on. -/
theorem drawMany_ofBytes (bytes : List UInt8) :
    ∃ drawn : List Draw, drawn.length ≤ bytes.length ∧ .finished ∉ drawn ∧
      (drawn.filterMap Draw.line?).Pairwise (· ≤ ·) ∧
      ∀ n, drawMany .resuming (drawn.length + n) (ofBytes bytes) =
        drawn.map (·, true) ++ List.replicate n (.finished, false) := by
  obtain ⟨drawn, hlength, hfinished, hlines, hdraws⟩ := exists_drawn (ofBytes bytes) rfl
  exact ⟨drawn, Nat.le_trans hlength (unread_ofBytes_le bytes), hfinished, hlines.of_cons, hdraws⟩

/-- A keyword without its mark takes the line end along; an undecodable line is no line. -/
example : drawMany .resuming 5 (ofBytes [80, 82, 10, 255, 10, 65]) =
    [(.fault (.missingMark 1 .prSlot '#'), true), (.fault .undecodable, true),
      (.token ⟨2, .identifier ['A']⟩, true), (.finished, false), (.finished, false)] := by
  decide +kernel

end TokenStream

end Applesoft
