import Applesoft.Lexer
import Applesoft.Proofs.EncodedLines
import Applesoft.Proofs.FollowingText
import Applesoft.Proofs.LineEnds
import Applesoft.Proofs.NumberText

/-!
# Buffered lines

A source that keeps one line at hand stands for all the text that is still to be read and for the runs of
text behind undecodable lines. Within a line looking ahead sees that text, so that scanning in the buffer
comes to the lexeme that is cut off the text.
-/
namespace Applesoft

theorem Lexeme.cutQuoted_cons {c : Char} {s w r : Text} (hc : inQuotes c = true)
    (h : cutQuoted s = (.quoted w, r)) : cutQuoted (c :: s) = (.quoted (c :: w), r) := by
  unfold cutQuoted at h ⊢
  rw [List.takeWhile_cons_of_pos hc, List.dropWhile_cons_of_pos hc]
  split at h <;> simp_all

namespace Source

def ahead (s : Source) : Text := s.buffer.toList.drop s.position

/-- The line feed that ends the line at hand is still to come, unless that line is the last one. -/
def InLine (s : Source) : Prop :=
  ∃ body, '\n' ∉ body ∧ (s.ahead = body ++ ['\n'] ∨ s.ahead = body ∧ s.unread = [])

/-- The source has still to read a text, and the runs of text after that. -/
structure Stands (s : Source) (text : Text) (later : List Text) (line : Nat) : Prop where
  text_eq : s.ahead ++ (SourceBytes.runs s.unread).1 = text
  later_eq : (SourceBytes.runs s.unread).2 = later
  line_eq : s.line = line
  inLine : s.ahead = [] ∨ s.InLine
  atEnd : s.atEnd = true → s.unread = []

structure Within (s : Source) (text : Text) (later : List Text) (line : Nat) : Prop where
  stands : s.Stands text later line
  inLine : s.InLine

variable {s : Source} {text : Text} {later : List Text} {line : Nat} {c : Char}

theorem peekInLine_eq (s : Source) (offset : Nat) : s.peekInLine offset = s.ahead[offset]? := by
  rw [peekInLine, ahead, List.getElem?_drop, Array.getElem?_toList]

theorem ahead_advance (s : Source) : s.advance.ahead = s.ahead.tail := by
  rw [ahead, ahead, List.tail_drop]
  rfl

theorem ahead_eq_nil_of_not_lt (h : ¬ s.position < s.buffer.size) : s.ahead = [] :=
  List.drop_eq_nil_of_le (by simpa using h)

theorem ahead_ne_nil_of_lt (h : s.position < s.buffer.size) : s.ahead ≠ [] := by
  rw [ahead, Ne, List.drop_eq_nil_iff, Array.length_toList]
  omega

theorem stands_ofBytes (bytes : List UInt8) :
    (ofBytes bytes).Stands (SourceBytes.runs bytes).1 (SourceBytes.runs bytes).2 1 :=
  ⟨rfl, rfl, rfl, .inl rfl, by intro h; cases h⟩

theorem InLine.advance (h : s.InLine) (hne : s.peekInLine 0 ≠ some '\n') : s.advance.InLine := by
  obtain ⟨body, hbody, hahead⟩ := h
  rw [peekInLine_eq] at hne
  cases body with
  | nil =>
    refine ⟨[], hbody, .inr ?_⟩
    rcases hahead with hahead | ⟨hahead, hunread⟩
    · rw [hahead] at hne
      exact absurd rfl hne
    · rw [ahead_advance, hahead]
      exact ⟨rfl, hunread⟩
  | cons d body =>
    refine ⟨body, fun hmem => hbody (List.mem_cons_of_mem d hmem), ?_⟩
    rw [ahead_advance]
    rcases hahead with hahead | ⟨hahead, hunread⟩
    · exact .inl (by rw [hahead]; rfl)
    · exact .inr ⟨by rw [hahead]; rfl, hunread⟩

theorem InLine.ahead_of_lineFeed (h : s.InLine) (hfeed : s.peekInLine 0 = some '\n') :
    s.ahead = ['\n'] := by
  obtain ⟨body, hbody, hahead⟩ := h
  rw [peekInLine_eq] at hfeed
  cases body with
  | nil =>
    rcases hahead with hahead | ⟨hahead, -⟩
    · exact hahead
    · rw [hahead] at hfeed
      cases hfeed
  | cons d body =>
    have hd : d = '\n' := by
      rcases hahead with hahead | ⟨hahead, -⟩ <;>
      · rw [hahead] at hfeed
        exact Option.some.inj hfeed
    exact absurd (hd ▸ List.mem_cons_self) hbody

namespace Within

theorem text_eq_nil (h : s.Within text later line) (hnil : s.ahead = []) : text = [] ∧ later = [] := by
  obtain ⟨body, -, hahead⟩ := h.inLine
  rcases hahead with hahead | ⟨-, hunread⟩
  · rw [hnil] at hahead
    simp at hahead
  · have htext := h.stands.text_eq
    have hlater := h.stands.later_eq
    rw [hnil, hunread] at htext
    rw [hunread] at hlater
    exact ⟨htext.symm, hlater.symm⟩

theorem peekInLine (h : s.Within text later line) : s.peekInLine 0 = text.head? := by
  rw [peekInLine_eq]
  cases hahead : s.ahead with
  | nil =>
    rw [(h.text_eq_nil hahead).1]
    rfl
  | cons d rest =>
    rw [← h.stands.text_eq, hahead]
    rfl

theorem exists_cons (h : s.Within text later line) (hsome : s.peekInLine 0 = some c) :
    ∃ rest, text = c :: rest := by
  rw [h.peekInLine] at hsome
  exact List.head?_eq_some_iff.1 hsome

/-- Without a line end in what is left the input ends there. -/
theorem later_eq_nil (h : s.Within text later line) (hfeed : '\n' ∉ text) : later = [] := by
  obtain ⟨body, -, hahead⟩ := h.inLine
  rcases hahead with hahead | ⟨-, hunread⟩
  · refine absurd ?_ hfeed
    rw [← h.stands.text_eq, hahead]
    simp
  · rw [← h.stands.later_eq, hunread]
    rfl

theorem tail_ahead (h : s.Within (c :: text) later line) :
    s.ahead.tail ++ (SourceBytes.runs s.unread).1 = text := by
  have htext := h.stands.text_eq
  cases hahead : s.ahead with
  | nil => cases (h.text_eq_nil hahead).1
  | cons d rest =>
    rw [hahead] at htext
    exact (List.cons.inj htext).2

theorem advance (h : s.Within (c :: text) later line) (hne : c ≠ '\n') :
    s.advance.Within text later line := by
  have hpeek := h.peekInLine
  have hline : s.advance.line = s.line := if_neg (by rw [hpeek]; simpa using hne)
  have hin : s.advance.InLine := h.inLine.advance (by rw [hpeek]; simpa using hne)
  refine ⟨⟨?_, h.stands.later_eq, hline.trans h.stands.line_eq, .inr hin, h.stands.atEnd⟩, hin⟩
  rw [ahead_advance]
  exact h.tail_ahead

theorem advance_lineFeed (h : s.Within ('\n' :: text) later line) :
    s.advance.Stands text later (line + 1) := by
  have hpeek := h.peekInLine
  have hahead := h.inLine.ahead_of_lineFeed hpeek
  have hline : s.advance.line = s.line + 1 := if_pos hpeek
  have hnil : s.advance.ahead = [] := by
    rw [ahead_advance, hahead]
    rfl
  refine ⟨?_, h.stands.later_eq, by rw [hline, h.stands.line_eq], .inl hnil, h.stands.atEnd⟩
  rw [ahead_advance]
  exact h.tail_ahead

end Within

inductive Peeked (line : Nat) : Text → List Text → Except Error (Option Char) × Source → Prop
  | char {s : Source} {c : Char} {text : Text} {later : List Text} :
      s.Within (c :: text) later line → Peeked line (c :: text) later (.ok (some c), s)
  | finished {s : Source} : s.Within [] [] line → Peeked line [] [] (.ok none, s)
  | undecodable {s : Source} {text : Text} {later : List Text} :
      s.Stands text later line → Peeked line [] (text :: later) (.error .undecodable, s)

theorem Stands.within (h : s.Stands text later line) (hlt : s.position < s.buffer.size) :
    s.Within text later line :=
  ⟨h, h.inLine.resolve_left (ahead_ne_nil_of_lt hlt)⟩

theorem Stands.within_last (h : s.Stands text later line) (hnil : s.ahead = [])
    (hunread : s.unread = []) : text = [] ∧ later = [] ∧ s.Within text later line := by
  have hin : s.InLine := ⟨[], List.not_mem_nil, .inr ⟨hnil, hunread⟩⟩
  have hwithin : s.Within text later line := ⟨h, hin⟩
  obtain ⟨htext, hlater⟩ := hwithin.text_eq_nil hnil
  exact ⟨htext, hlater, hwithin⟩

section Cut

variable {b : UInt8} {bytes unread : List UInt8}

theorem Stands.not_atEnd (h : s.Stands text later line)
    (hcut : SourceBytes.cutLine s.unread = (b :: bytes, unread)) : s.atEnd ≠ true := by
  intro hend
  rw [h.atEnd hend] at hcut
  cases (Prod.mk.inj hcut).1

theorem Stands.decoded (h : s.Stands text later line) (hnil : s.ahead = []) {t : Text}
    (hcut : SourceBytes.cutLine s.unread = (b :: bytes, unread))
    (hdecode : SourceBytes.decode? (b :: bytes) = some t) :
    { s with unread := unread, buffer := t.toArray, position := 0 }.Stands text later line := by
  have hruns := SourceBytes.runs_of_cutLine hcut (List.cons_ne_nil _ _)
  have hbody := SourceBytes.exists_body_of_decode? hcut hdecode
  have htext := h.text_eq
  have hlater := h.later_eq
  simp only [hdecode] at hruns
  rw [hruns] at htext hlater
  rw [hnil] at htext
  exact ⟨htext, hlater, h.line_eq, .inr hbody, fun hend => absurd hend (h.not_atEnd hcut)⟩

theorem Stands.undecoded (h : s.Stands text later line) (hnil : s.ahead = [])
    (hcut : SourceBytes.cutLine s.unread = (b :: bytes, unread))
    (hdecode : SourceBytes.decode? (b :: bytes) = none) :
    ∃ text' later', text = [] ∧ later = text' :: later' ∧
      { s with unread := unread }.Stands text' later' line := by
  have hruns := SourceBytes.runs_of_cutLine hcut (List.cons_ne_nil _ _)
  have htext := h.text_eq
  have hlater := h.later_eq
  simp only [hdecode] at hruns
  rw [hruns] at htext hlater
  rw [hnil] at htext
  have hahead : { s with unread := unread }.ahead = [] := hnil
  refine ⟨_, _, htext.symm, hlater.symm, ?_, rfl, h.line_eq, .inl hahead, ?_⟩
  · rw [hahead]
    rfl
  · exact fun hend => absurd hend (h.not_atEnd hcut)

end Cut

theorem Stands.peek (h : s.Stands text later line) : Peeked line text later s.peek := by
  unfold Source.peek
  fun_induction fill s with
  | case1 s hlt =>
    have hwithin := h.within hlt
    dsimp only
    cases text with
    | nil =>
      have hahead := (List.append_eq_nil_iff.1 h.text_eq).1
      exact absurd hahead (ahead_ne_nil_of_lt hlt)
    | cons c text =>
      rw [hwithin.peekInLine]
      exact .char hwithin
  | case2 s hlt hend =>
    obtain ⟨rfl, rfl, hwithin⟩ := h.within_last (ahead_eq_nil_of_not_lt hlt) (h.atEnd hend)
    exact .finished hwithin
  | case3 s hlt _ _ hcut =>
    have hunread := SourceBytes.eq_nil_of_cutLine hcut
    have hended : { s with atEnd := true }.Stands text later line :=
      ⟨h.text_eq, h.later_eq, h.line_eq, h.inLine, fun _ => hunread⟩
    obtain ⟨rfl, rfl, hwithin⟩ := hended.within_last (ahead_eq_nil_of_not_lt hlt) hunread
    exact .finished hwithin
  | case4 s hlt _ b bytes unread hcut t hdecode ih =>
    -- the line that has been read stands for the same text, and the next round finds its first character
    exact ih (h.decoded (ahead_eq_nil_of_not_lt hlt) hcut hdecode)
  | case5 s hlt _ b bytes unread hcut hdecode =>
    obtain ⟨text', later', rfl, rfl, hstands⟩ :=
      h.undecoded (ahead_eq_nil_of_not_lt hlt) hcut hdecode
    exact .undecodable hstands

/-- Within a line there is always an answer. -/
theorem Within.peek (h : s.Within text later line) :
    ∃ s', s.peek = (.ok text.head?, s') ∧ s'.Within text later line := by
  have hpeek := h.stands.peek
  generalize s.peek = answer at hpeek
  cases hpeek with
  | char hwithin => exact ⟨_, rfl, hwithin⟩
  | finished hwithin => exact ⟨_, rfl, hwithin⟩
  | undecodable => cases h.later_eq_nil List.not_mem_nil

section Scan

variable {c : Char} {decimal : Bool} {r : Text}

theorem takeNumber_cons (decimal : Bool) (h : s.peekInLine 0 = some c)
    (hc : c.isDigit = true ∨ c = '.' ∧ decimal = false) :
    s.takeNumber decimal = (c :: (s.advance.takeNumber (decimal || c = '.')).1,
      (s.advance.takeNumber (decimal || c = '.')).2) := by
  rw [takeNumber]
  split
  · next hnone => cases hnone.symm.trans h
  · next d hsome =>
    obtain rfl := Option.some.inj (hsome.symm.trans h)
    rw [if_pos hc]

theorem wordFrom_succ (s : Source) (offset : Nat) :
    s.wordFrom (offset + 1) = (s.ahead.drop (offset + 1)).takeWhile inWord := by
  generalize hn : s.ahead.length - (offset + 1) = n
  induction n generalizing offset with
  | zero =>
    have hnone : s.ahead[offset + 1]? = none := List.getElem?_eq_none (by omega)
    rw [wordFrom, List.drop_eq_nil_of_le (by omega)]
    split
    · rfl
    · next c hsome =>
      rw [peekInLine_eq, hnone] at hsome
      cases hsome
  | succ n ih =>
    have hlt : offset + 1 < s.ahead.length := by omega
    have hsome : s.peekInLine (offset + 1) = some (s.ahead[offset + 1]) := by
      rw [peekInLine_eq, List.getElem?_eq_getElem hlt]
    have hrest := ih (offset + 1) (by omega)
    rw [wordFrom, List.drop_eq_getElem_cons hlt, List.takeWhile_cons]
    split
    · next hnone => cases hnone.symm.trans hsome
    · next c hc =>
      obtain rfl := Option.some.inj (hc.symm.trans hsome)
      simp [hrest]

namespace Within

/-- A string goes to its closing quote or the end of its line. -/
theorem takeQuoted (h : s.Within text later line) :
    ∃ r, Lexeme.cutQuoted text = (.quoted s.takeQuoted.1, r) ∧ s.takeQuoted.2.Within r later line := by
  fun_induction Source.takeQuoted s generalizing text with
  | case1 s hnone =>
    rw [h.peekInLine, List.head?_eq_none_iff] at hnone
    subst hnone
    exact ⟨[], rfl, h⟩
  | case2 s c hsome hend =>
    obtain ⟨rest, rfl⟩ := h.exists_cons hsome
    refine ⟨c :: rest, ?_, h⟩
    rcases hend with rfl | rfl <;> rfl
  | case3 s hsome _ =>
    obtain ⟨rest, rfl⟩ := h.exists_cons hsome
    exact ⟨rest, rfl, h.advance (by decide)⟩
  | case4 s c hsome hend hquote quoted s' heq ih =>
    obtain ⟨rest, rfl⟩ := h.exists_cons hsome
    rw [not_or] at hend
    obtain ⟨r, hcut, hwithin⟩ := ih (h.advance hend.1)
    rw [heq] at hcut hwithin
    have hin : Lexeme.inQuotes c = true := by simp [Lexeme.inQuotes, hquote, hend]
    exact ⟨r, Lexeme.cutQuoted_cons hin hcut, hwithin⟩

theorem takeNumber_append (decimal : Bool) {whole : Text} (hw : ∀ c ∈ whole, c.isDigit = true)
    (h : s.Within (whole ++ r) later line) :
    ∃ s' : Source, s'.Within r later line ∧
      s.takeNumber decimal = (whole ++ (s'.takeNumber decimal).1, (s'.takeNumber decimal).2) := by
  induction whole generalizing s with
  | nil => exact ⟨s, h, rfl⟩
  | cons c whole ih =>
    rw [List.forall_mem_cons] at hw
    have hfeed : c ≠ '\n' := by
      rintro rfl
      cases hw.1
    have hpoint : c ≠ '.' := by
      rintro rfl
      cases hw.1
    obtain ⟨s', hwithin, htake⟩ := ih hw.2 (h.advance hfeed)
    refine ⟨s', hwithin, ?_⟩
    rw [takeNumber_cons decimal h.peekInLine (.inl hw.1)]
    simp [hpoint, htake]

theorem takeNumber_last (h : s.Within r later line)
    (hstop : ∀ c ∈ r.head?, ¬ (c.isDigit = true ∨ c = '.' ∧ decimal = false)) :
    s.takeNumber decimal = ([], s) := by
  rw [Source.takeNumber]
  split
  · rfl
  · next c hsome => rw [if_neg (hstop c (h.peekInLine ▸ hsome))]

/-- A number takes in one point and the digits after it. -/
theorem scanNumber (h : s.Within text later line) :
    ∃ r, Lexeme.cutNumber text = (s.scanNumber.1, r) ∧ s.scanNumber.2.Within r later line := by
  have hdigits (t : Text) : ∀ c ∈ t.takeWhile Char.isDigit, c.isDigit = true := fun c hc =>
    List.all_eq_true.1 List.all_takeWhile c hc
  have hparts : s.Within (text.takeWhile Char.isDigit ++ text.dropWhile Char.isDigit) later line := by
    rwa [List.takeWhile_append_dropWhile]
  obtain ⟨s₁, h₁, htake₁⟩ := takeNumber_append false (hdigits text) hparts
  -- a second run of digits is taken after a point, and only there
  by_cases hpoint : ∃ q, text.dropWhile Char.isDigit = '.' :: q
  · obtain ⟨q, hq⟩ := hpoint
    rw [hq] at h₁
    have hparts : s₁.advance.Within (q.takeWhile Char.isDigit ++ q.dropWhile Char.isDigit) later line := by
      rw [List.takeWhile_append_dropWhile]
      exact h₁.advance (by decide)
    obtain ⟨s₂, h₂, htake₂⟩ := takeNumber_append true (hdigits q) hparts
    have hlast : s₂.takeNumber true = ([], s₂) := h₂.takeNumber_last fun c hc => by
      simp [stops_dropWhile Char.isDigit q c hc]
    have hstep := takeNumber_cons false h₁.peekInLine (.inr ⟨rfl, rfl⟩)
    rw [hlast] at htake₂
    simp only [Bool.false_or, decide_true, htake₂] at hstep
    rw [hstep] at htake₁
    refine ⟨q.dropWhile Char.isDigit, ?_, ?_⟩
    · rw [Lexeme.cutNumber_of_point hq, Source.scanNumber, htake₁, List.append_nil]
      dsimp only
      rw [Binary64.getD_ofText?_point (hdigits text) (hdigits q)]
    · rw [Source.scanNumber, htake₁]
      exact h₂
  · have hlast : s₁.takeNumber false = ([], s₁) := h₁.takeNumber_last fun c hc => by
      rw [not_or]
      refine ⟨by simp [stops_dropWhile Char.isDigit text c hc], ?_⟩
      rintro ⟨rfl, -⟩
      exact hpoint (List.head?_eq_some_iff.1 hc)
    rw [hlast] at htake₁
    refine ⟨text.dropWhile Char.isDigit, ?_, ?_⟩
    · rw [Lexeme.cutNumber_of_ne fun q hq => hpoint ⟨q, hq⟩, Source.scanNumber, htake₁,
        List.append_nil]
      dsimp only
      rw [Binary64.getD_ofText?_whole (hdigits text)]
    · rw [Source.scanNumber, htake₁]
      exact h₁

/-- No word goes beyond its line. -/
theorem takeWhile_ahead (h : s.Within text later line) {p : Char → Bool} (hp : p '\n' = false) :
    s.ahead.takeWhile p = text.takeWhile p := by
  obtain ⟨body, -, hahead⟩ := h.inLine
  have htext := h.stands.text_eq
  rcases hahead with hahead | ⟨hahead, hunread⟩
  · rw [← htext, hahead, List.append_assoc]
    exact (takeWhile_append_cons hp body []).trans (takeWhile_append_cons hp body _).symm
  · rw [hunread] at htext
    rw [← htext]
    simp [SourceBytes.runs, SourceBytes.lines]

theorem wordFrom (h : s.Within (c :: text) later line) (hc : c ≠ '\n') :
    s.wordFrom 0 = c :: text.takeWhile inWord := by
  have hrest : s.wordFrom 1 = text.takeWhile inWord := by
    rw [wordFrom_succ, List.drop_one, ← ahead_advance]
    exact (h.advance hc).takeWhile_ahead (by decide)
  rw [Source.wordFrom]
  split
  · next hnone => cases hnone.symm.trans h.peekInLine
  · next d hsome =>
    obtain rfl : d = c := Option.some.inj (hsome.symm.trans h.peekInLine)
    rw [if_pos (.inl rfl), hrest]

theorem advanceBy {w : Text} (h : s.Within (w ++ r) later line) (hw : '\n' ∉ w) :
    (s.advanceBy w.length).Within r later line := by
  induction w generalizing s with
  | nil => exact h
  | cons c w ih =>
    rw [List.mem_cons, not_or] at hw
    exact ih (h.advance (Ne.symm hw.1)) hw.2

/-- A word goes on as far as its characters do, up to the digits that a keyword runs into. -/
theorem scanWord (h : s.Within (c :: text) later line) (hc : CharClass.ofChar c = .word) :
    ∃ r, Lexeme.cutWord c text = (s.scanWord.1, r) ∧ s.scanWord.2.Within r later line := by
  have hfeed : c ≠ '\n' := by
    rintro rfl
    cases hc
  rw [Source.scanWord, h.peekInLine, List.head?_cons]
  by_cases hquestion : c = '?'
  · subst hquestion
    exact ⟨text, rfl, h.advance hfeed⟩
  · have hne : some c ≠ some '?' := fun heq => hquestion (Option.some.inj heq)
    rw [if_neg hne, h.wordFrom hfeed]
    have hsplit := Lexeme.splitWord_append (c :: text.takeWhile inWord)
    rw [Lexeme.cutWord, if_neg hquestion]
    generalize Lexeme.splitWord (c :: text.takeWhile inWord) = parts at hsplit
    refine ⟨parts.2 ++ text.dropWhile inWord, rfl, ?_⟩
    refine advanceBy ?_ ?_
    · rw [← List.append_assoc, hsplit, List.cons_append, List.takeWhile_append_dropWhile]
      exact h
    · intro hmem
      have hword : '\n' ∈ c :: text.takeWhile inWord := hsplit ▸ List.mem_append_left _ hmem
      rcases List.mem_cons.1 hword with heq | hword
      · exact hfeed heq.symm
      · cases List.all_eq_true.1 List.all_takeWhile _ hword

/-- A line feed after a carriage return belongs to the same line end. -/
theorem scanLineEnd (h : s.Within (c :: text) later line) (hc : CharClass.ofChar c = .lineEnd) :
    ∃ r, Lexeme.cut (c :: text) = some (.lineEnd, r) ∧ (s.scanLineEnd c).Stands r later (line + 1) := by
  rcases ofChar_eq_lineEnd_iff.1 hc with rfl | rfl
  · exact ⟨text, Lexeme.cut_lineFeed, h.advance_lineFeed⟩
  · have hadvance := h.advance (by decide)
    have hpeek := hadvance.peekInLine
    rw [Source.scanLineEnd, if_pos rfl, hpeek]
    by_cases hfeed : text.head? = some '\n'
    · obtain ⟨r, rfl⟩ := List.head?_eq_some_iff.1 hfeed
      exact ⟨r, rfl, hadvance.advance_lineFeed⟩
    · rw [if_neg hfeed]
      obtain ⟨⟨htext, hlater, hline, hin, hend⟩, -⟩ := hadvance
      exact ⟨text, Lexeme.cut_return hfeed, htext, hlater, congrArg (· + 1) hline, hin, hend⟩

/-- After a lexeme that is no line end the source stands within its line. -/
theorem scanLexeme (h : s.Within (c :: text) later line) (hc : CharClass.ofChar c ≠ .blank) :
    ∃ r, Lexeme.cut (c :: text) = some ((s.scanLexeme c).1, r) ∧
      (s.scanLexeme c).2.Stands r later (line + (s.scanLexeme c).1.lines) ∧
      ((s.scanLexeme c).1 ≠ .lineEnd → (s.scanLexeme c).2.InLine) := by
  have hfeed : CharClass.ofChar c ≠ .lineEnd → c ≠ '\n' := by
    rintro hne rfl
    exact hne rfl
  rw [Lexeme.cut_cons, Source.scanLexeme]
  cases hclass : CharClass.ofChar c with
  | blank => exact absurd hclass hc
  | lineEnd =>
    obtain ⟨r, hcut, hstands⟩ := h.scanLineEnd hclass
    rw [Lexeme.cut_cons, hclass] at hcut
    exact ⟨r, hcut, hstands, fun hne => absurd rfl hne⟩
  | quote =>
    obtain ⟨r, hcut, hwithin⟩ := (h.advance (hfeed (by rw [hclass]; decide))).takeQuoted
    exact ⟨r, congrArg some hcut, hwithin.stands, fun _ => hwithin.inLine⟩
  | numeric =>
    obtain ⟨r, hcut, hwithin⟩ := h.scanNumber
    exact ⟨r, congrArg some hcut, hwithin.stands, fun _ => hwithin.inLine⟩
  | word =>
    obtain ⟨r, hcut, hwithin⟩ := h.scanWord hclass
    refine ⟨r, congrArg some hcut, ?_, fun _ => hwithin.inLine⟩
    have hlines : s.scanWord.1.lines = 0 := by
      unfold Source.scanWord
      split <;> rfl
    rw [hlines]
    exact hwithin.stands
  | punctuation | escape | other =>
    have hwithin := h.advance (hfeed (by rw [hclass]; decide))
    exact ⟨text, rfl, hwithin.stands, fun _ => hwithin.inLine⟩

end Within

inductive Scanned (text : Text) (later : List Text) (line : Nat) :
    Except Error (Option (Nat × Lexeme)) × Source → Prop
  | lexeme {s : Source} {x : Lexeme} {r : Text} : Lexeme.cut text = some (x, r) →
      s.Stands r later (line + x.lines) → (x ≠ .lineEnd → s.InLine) →
      Scanned text later line (.ok (some (line, x)), s)
  | finished {s : Source} : Lexeme.cut text = none → later = [] → s.Within [] [] line →
      Scanned text later line (.ok none, s)
  | undecodable {s : Source} {text' : Text} {later' : List Text} : Lexeme.cut text = none →
      later = text' :: later' → s.Stands text' later' line →
      Scanned text later line (.error .undecodable, s)

theorem Scanned.of_cut_eq {text' : Text} {answer : Except Error (Option (Nat × Lexeme)) × Source}
    (h : Scanned text later line answer) (hcut : Lexeme.cut text = Lexeme.cut text') :
    Scanned text' later line answer := by
  cases h with
  | lexeme hsome hstands hin => exact .lexeme (hcut ▸ hsome) hstands hin
  | finished hnone hlater hwithin => exact .finished (hcut ▸ hnone) hlater hwithin
  | undecodable hnone hlater hstands => exact .undecodable (hcut ▸ hnone) hlater hstands

theorem Stands.scan (h : s.Stands text later line) : Scanned text later line s.scan := by
  fun_induction Source.scan s generalizing text with
  | case1 s e s' heq =>
    have hpeek := h.peek
    rw [heq] at hpeek
    cases hpeek with
    | undecodable hstands => exact .undecodable rfl rfl hstands
  | case2 s s' heq =>
    have hpeek := h.peek
    rw [heq] at hpeek
    cases hpeek with
    | finished hwithin => exact .finished rfl rfl hwithin
  | case3 s c s' heq hblank ih =>
    have hpeek := h.peek
    rw [heq] at hpeek
    cases hpeek with
    | char hwithin =>
      have hne : c ≠ '\n' := by
        rintro rfl
        cases hblank
      exact (ih (hwithin.advance hne).stands).of_cut_eq (Lexeme.cut_blank hblank).symm
  | case4 s c s' heq hblank x rest hscan =>
    have hpeek := h.peek
    rw [heq] at hpeek
    cases hpeek with
    | char hwithin =>
      obtain ⟨r, hcut, hstands, hin⟩ := hwithin.scanLexeme hblank
      rw [hscan] at hcut hstands hin
      rw [hwithin.stands.line_eq]
      exact .lexeme hcut hstands hin

/-- Within a line the input ends with the last lexeme. -/
theorem Within.later_eq_nil_of_cut (h : s.Within text later line) (hcut : Lexeme.cut text = none) :
    later = [] :=
  h.later_eq_nil fun hmem => (Lexeme.cut_eq_none_iff.1 hcut _ hmem).2.1 rfl

inductive LineTaken (later : List Text) (line : Nat) : Bool → Text → Source → Prop
  | ended {s : Source} {r : Text} : s.Stands r later (line + 1) → LineTaken later line true ('\n' :: r) s
  | last {s : Source} : s.Stands [] later line → LineTaken later line false [] s

theorem Within.takeLine (h : s.Within text later line) :
    ∃ ended s', s.takeLine = (.ok (text.takeWhile (· != '\n'), ended), s') ∧
      LineTaken later line ended (text.dropWhile (· != '\n')) s' := by
  induction text generalizing s with
  | nil =>
    obtain ⟨s', hpeek, hwithin⟩ := h.peek
    refine ⟨false, s', ?_, .last hwithin.stands⟩
    rw [Source.takeLine]
    split <;> simp_all
  | cons c text ih =>
    obtain ⟨s', hpeek, hwithin⟩ := h.peek
    by_cases hc : c = '\n'
    · subst hc
      refine ⟨true, s'.advance, ?_, .ended hwithin.advance_lineFeed⟩
      rw [Source.takeLine]
      split <;> simp_all
    · obtain ⟨ended, rest, htake, htaken⟩ := ih (hwithin.advance hc)
      have htakeWhile : (c :: text).takeWhile (· != '\n') = c :: text.takeWhile (· != '\n') :=
        List.takeWhile_cons_of_pos (by simpa using hc)
      have hdropWhile : (c :: text).dropWhile (· != '\n') = text.dropWhile (· != '\n') :=
        List.dropWhile_cons_of_pos (by simpa using hc)
      rw [htakeWhile, hdropWhile]
      refine ⟨ended, rest, ?_, htaken⟩
      rw [Source.takeLine]
      split <;> simp_all

end Scan

end Source

end Applesoft
