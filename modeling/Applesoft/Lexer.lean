import Applesoft.TokenStream

/-!
# The lexer

Draws tokens from bytes that are read line by line. Words, numbers and strings stay within a line, so that
looking ahead needs no more than the line at hand. A lexeme that has been read can be put back, and the end
of a line that a comment has used up is owed.
-/
namespace Applesoft

structure Source where
  unread : List UInt8
  buffer : Array Char
  position : Nat
  line : Nat
  atEnd : Bool
  deriving DecidableEq, Repr

namespace Source

def ofBytes (bytes : List UInt8) : Source := ⟨bytes, #[], 0, 1, false⟩

def fill (s : Source) : Except Error Bool × Source :=
  if s.position < s.buffer.size then (.ok true, s)
  else if s.atEnd then (.ok false, s)
  else
    match _h : SourceBytes.cutLine s.unread with
    | ([], _) => (.ok false, { s with atEnd := true })
    | (b :: line, unread) =>
      match SourceBytes.decode? (b :: line) with
      | some t => fill { s with unread := unread, buffer := t.toArray, position := 0 }
      | none => (.error .undecodable, { s with unread := unread })
termination_by s.unread.length
decreasing_by exact SourceBytes.length_cutLine _h

def peekInLine (s : Source) (offset : Nat) : Option Char :=
  s.buffer[s.position + offset]?

def peek (s : Source) : Except Error (Option Char) × Source :=
  match s.fill with
  | (.ok true, s) => (.ok (s.peekInLine 0), s)
  | (.ok false, s) => (.ok none, s)
  | (.error e, s) => (.error e, s)

def advance (s : Source) : Source :=
  { s with
    position := s.position + 1
    line := if s.peekInLine 0 = some '\n' then s.line + 1 else s.line }

def advanceBy : Nat → Source → Source
  | 0, s => s
  | n + 1, s => advanceBy n s.advance

theorem lt_size_of_peekInLine {s : Source} {offset : Nat} {c : Char}
    (h : s.peekInLine offset = some c) : s.position + offset < s.buffer.size :=
  (Array.getElem?_eq_some_iff.1 h).1

def takeQuoted (s : Source) : Text × Source :=
  match _h : s.peekInLine 0 with
  | none => ([], s)
  | some c =>
    if c = '\n' ∨ c = '\r' then ([], s)
    else if c = '"' then ([], s.advance)
    else
      let (text, s) := s.advance.takeQuoted
      (c :: text, s)
termination_by s.buffer.size - s.position
decreasing_by
  have := lt_size_of_peekInLine _h
  simp only [advance]
  omega

def takeNumber (decimal : Bool) (s : Source) : Text × Source :=
  match _h : s.peekInLine 0 with
  | none => ([], s)
  | some c =>
    if c.isDigit ∨ c = '.' ∧ decimal = false then
      let (text, s) := s.advance.takeNumber (decimal || c = '.')
      (c :: text, s)
    else ([], s)
termination_by s.buffer.size - s.position
decreasing_by
  have := lt_size_of_peekInLine _h
  simp only [advance]
  omega

/-- The characters of a word from an offset on; the first one is in it whatever it is. -/
def wordFrom (offset : Nat) (s : Source) : Text :=
  match _h : s.peekInLine offset with
  | none => []
  | some c => if offset = 0 ∨ inWord c then c :: s.wordFrom (offset + 1) else []
termination_by s.buffer.size - (s.position + offset)
decreasing_by
  have := lt_size_of_peekInLine _h
  omega

/-- A lone point reads as zero. -/
def scanNumber (s : Source) : Lexeme × Source :=
  let (text, s) := s.takeNumber false
  (.number ((Binary64.ofText? text).getD .zero), s)

def scanWord (s : Source) : Lexeme × Source :=
  if s.peekInLine 0 = some '?' then (.word ['?'], s.advance)
  else
    let word := (Lexeme.splitWord (s.wordFrom 0)).1
    (.word word, s.advanceBy word.length)

/-- A carriage return takes a line feed along; alone it ends a line all the same. -/
def scanLineEnd (c : Char) (s : Source) : Source :=
  let s := s.advance
  if c = '\r' then
    if s.peekInLine 0 = some '\n' then s.advance else { s with line := s.line + 1 }
  else s

def scanLexeme (c : Char) (s : Source) : Lexeme × Source :=
  match CharClass.ofChar c with
  | .lineEnd => (.lineEnd, s.scanLineEnd c)
  | .quote =>
    let (text, s) := s.advance.takeQuoted
    (.quoted text, s)
  | .numeric => s.scanNumber
  | .word => s.scanWord
  | .blank | .punctuation | .escape | .other => (.mark c, s.advance)

def left (s : Source) : Nat :=
  s.unread.length + (s.buffer.size - s.position)

section Left

variable {s s' : Source}

theorem left_advance_le (s : Source) : s.advance.left ≤ s.left := by
  simp only [left, advance]
  omega

theorem left_advance_lt {c : Char} (h : s.peekInLine 0 = some c) : s.advance.left < s.left := by
  have hlt := lt_size_of_peekInLine h
  simp only [left, advance]
  omega

theorem left_advanceBy_le (n : Nat) (s : Source) : (s.advanceBy n).left ≤ s.left := by
  induction n generalizing s with
  | zero => exact Nat.le_refl _
  | succ n ih => exact Nat.le_trans (ih s.advance) (left_advance_le s)

theorem left_fill_le (s : Source) : s.fill.2.left ≤ s.left := by
  fun_induction fill s with
  | case1 | case2 | case3 => exact Nat.le_refl _
  | case4 s _ _ b line unread hcut t hdecode ih =>
    have hlength := congrArg List.length (SourceBytes.cutLine_append s.unread)
    have hchars := SourceBytes.length_le_of_decode? hdecode
    simp only [hcut, left, List.length_append, List.size_toArray] at hlength ih ⊢
    omega
  | case5 s _ _ b line unread hcut =>
    have hlength := SourceBytes.length_cutLine hcut
    simp only [left]
    omega

theorem left_peek_le (s : Source) : s.peek.2.left ≤ s.left := by
  have hfill := left_fill_le s
  unfold peek
  split <;> next heq => simpa only [heq] using hfill

theorem peekInLine_of_peek {c : Char} (h : s.peek = (.ok (some c), s')) :
    s'.peekInLine 0 = some c := by
  unfold peek at h
  split at h
  · obtain ⟨hc, rfl⟩ := Prod.mk.inj h
    exact Except.ok.inj hc
  · cases h
  · cases h

/-- The character that is peeked at is not yet used up. -/
theorem left_advance_of_peek {c : Char} (h : s.peek = (.ok (some c), s')) :
    s'.advance.left < s.left := by
  have hpeek := left_peek_le s
  have hadvance := left_advance_lt (peekInLine_of_peek h)
  simp only [h] at hpeek
  omega

theorem left_takeQuoted_le (s : Source) : s.takeQuoted.2.left ≤ s.left := by
  fun_induction takeQuoted s with
  | case1 | case2 => exact Nat.le_refl _
  | case3 s => exact left_advance_le s
  | case4 s _ _ _ _ _ _ heq ih =>
    simp only [heq] at ih
    exact Nat.le_trans ih (left_advance_le s)

theorem left_takeNumber_le (decimal : Bool) (s : Source) : (s.takeNumber decimal).2.left ≤ s.left := by
  fun_induction takeNumber decimal s with
  | case1 | case3 => exact Nat.le_refl _
  | case2 _ s _ _ _ _ _ heq ih =>
    simp only [heq] at ih
    exact Nat.le_trans ih (left_advance_le s)

theorem left_scanNumber_lt {c : Char} (h : s.peekInLine 0 = some c) (hc : c.isDigit = true ∨ c = '.') :
    s.scanNumber.2.left < s.left := by
  have hstep : s.takeNumber false =
      (c :: (s.advance.takeNumber (c = '.')).1, (s.advance.takeNumber (c = '.')).2) := by
    rw [takeNumber]
    split
    · next hnone => cases hnone.symm.trans h
    · next c' hsome =>
      obtain rfl := Option.some.inj (hsome.symm.trans h)
      rw [if_pos (by simpa using hc)]
      rfl
  have hrest := left_takeNumber_le (c = '.') s.advance
  have hadvance := left_advance_lt h
  simp only [scanNumber, hstep]
  omega

theorem left_scanWord_lt {c : Char} (h : s.peekInLine 0 = some c) : s.scanWord.2.left < s.left := by
  unfold scanWord
  split
  · exact left_advance_lt h
  · have hword : s.wordFrom 0 ≠ [] := by
      rw [wordFrom]
      split
      · next hnone => cases hnone.symm.trans h
      · simp
    -- at least the first character is used up
    obtain ⟨n, hn⟩ := Nat.exists_eq_succ_of_ne_zero
      (mt List.length_eq_zero_iff.1 (Lexeme.splitWord_fst_ne_nil hword))
    have hrest := left_advanceBy_le n s.advance
    have hadvance := left_advance_lt h
    simp only [hn, advanceBy]
    omega

theorem left_scanLineEnd_lt {c c' : Char} (h : s.peekInLine 0 = some c) :
    (s.scanLineEnd c').left < s.left := by
  have hadvance := left_advance_lt h
  have hagain := left_advance_le s.advance
  unfold scanLineEnd
  dsimp only
  split
  · split
    · omega
    · exact hadvance
  · exact hadvance

theorem left_scanLexeme_lt {c : Char} (h : s.peekInLine 0 = some c) :
    (s.scanLexeme c).2.left < s.left := by
  have hadvance := left_advance_lt h
  unfold scanLexeme
  split
  · exact left_scanLineEnd_lt h
  · exact Nat.lt_of_le_of_lt (left_takeQuoted_le s.advance) hadvance
  · next hc => exact left_scanNumber_lt h (CharClass.of_ofChar_numeric hc)
  · exact left_scanWord_lt h
  all_goals exact hadvance

end Left

def scan (s : Source) : Except Error (Option (Nat × Lexeme)) × Source :=
  match _h : s.peek with
  | (.error e, s) => (.error e, s)
  | (.ok none, s) => (.ok none, s)
  | (.ok (some c), s') =>
    if CharClass.ofChar c = .blank then s'.advance.scan
    else
      let (x, rest) := s'.scanLexeme c
      (.ok (some (s'.line, x)), rest)
termination_by s.left
decreasing_by exact left_advance_of_peek _h

def takeLine (s : Source) : Except Error (Text × Bool) × Source :=
  match _h : s.peek with
  | (.error e, s) => (.error e, s)
  | (.ok none, s) => (.ok ([], false), s)
  | (.ok (some c), s') =>
    if c = '\n' then (.ok ([], true), s'.advance)
    else
      match s'.advance.takeLine with
      | (.ok (text, ended), s) => (.ok (c :: text, ended), s)
      | (.error e, s) => (.error e, s)
termination_by s.left
decreasing_by exact left_advance_of_peek _h

section Left

variable {s s' : Source}

theorem left_scan_le (s : Source) : s.scan.2.left ≤ s.left := by
  have hpeek := left_peek_le s
  fun_induction scan s with
  | case1 _ _ _ heq | case2 _ _ heq => simpa only [heq] using hpeek
  | case3 s c s' heq _ ih =>
    have hlt := left_advance_of_peek heq
    have hrest := ih (left_peek_le s'.advance)
    omega
  | case4 s c s' heq _ x rest hscan =>
    have hlt := left_scanLexeme_lt (peekInLine_of_peek heq)
    simp only [heq, hscan] at hpeek hlt
    exact Nat.le_trans (Nat.le_of_lt hlt) hpeek

/-- A lexeme uses something up. -/
theorem left_scan_lt {found : Nat × Lexeme} (h : s.scan = (.ok (some found), s')) :
    s'.left < s.left := by
  have hpeek := left_peek_le s
  fun_induction scan s with
  | case1 | case2 => cases (Prod.mk.inj h).1
  | case3 s c s' heq _ ih =>
    have hlt := left_advance_of_peek heq
    have hrest := ih h (left_peek_le s'.advance)
    omega
  | case4 s c s' heq _ x rest hscan =>
    have hlt := left_scanLexeme_lt (peekInLine_of_peek heq)
    obtain ⟨-, rfl⟩ := Prod.mk.inj h
    simp only [heq, hscan] at hpeek hlt
    exact Nat.lt_of_lt_of_le hlt hpeek

/-- A line feed that is used up makes up for the line end that is owed for it. -/
theorem left_takeLine (s : Source) :
    s.takeLine.2.left + (s.takeLine.1.toOption.any (·.2)).toNat ≤ s.left := by
  have hpeek := left_peek_le s
  fun_induction takeLine s with
  | case1 _ _ _ heq | case2 _ _ heq => simpa [heq, Except.toOption] using hpeek
  | case3 s s' heq =>
    have hlt := left_advance_of_peek heq
    exact hlt
  | case4 s c s' heq _ text ended rest hrest ih | case5 s c s' heq _ e rest hrest ih =>
    have hlt := left_advance_of_peek heq
    have htail := ih (left_peek_le s'.advance)
    rw [hrest] at htail
    exact Nat.le_trans htail (Nat.le_of_lt hlt)

end Left

end Source

structure Lexer where
  source : Source
  /-- A lexeme that has been put back, and its line. -/
  pushed : Option (Nat × Lexeme)
  /-- The line of which a comment has used up the end. -/
  owed : Option Nat
  mayHaveMore : Bool
  deriving DecidableEq, Repr

namespace Lexer

open TokenStream (Draw Mode)

def ofBytes (bytes : List UInt8) : Lexer := ⟨.ofBytes bytes, none, none, true⟩

def nextLexeme (x : Lexer) : Except Error (Option (Nat × Lexeme)) × Lexer :=
  match x.pushed with
  | some found => (.ok (some found), { x with pushed := none })
  | none =>
    let (answer, source) := x.source.scan
    (answer, { x with source := source })

def readComment (x : Lexer) : Except Error Text × Lexer :=
  let line := x.source.line
  match x.source.peek with
  | (.error e, s) => (.error e, { x with source := s })
  | (.ok first, s) =>
    match (if first = some ' ' then s.advance else s).takeLine with
    | (.error e, s) => (.error e, { x with source := s })
    | (.ok (text, ended), s) =>
      (.ok (if text.getLast? = some '\r' then text.dropLast else text),
        { x with source := s, owed := if ended then some line else x.owed })

def readWord (line : Nat) (word : Text) (x : Lexer) : Draw × Lexer :=
  match Keyword.ofWord? word with
  | some .rem =>
    match x.readComment with
    | (.ok text, x) => (.token ⟨line, .comment text⟩, x)
    | (.error e, x) => (.fault e, x)
  | some k =>
    match k.mark? with
    | none => (.token ⟨line, .keyword (if k = .question then .print else k)⟩, x)
    | some mark =>
      match x.nextLexeme with
      | (.error e, x) => (.fault e, x)
      | (.ok found, x) =>
        if found.map Prod.snd = some (.mark mark) then (.token ⟨line, .keyword k⟩, x)
        else (.fault (.missingMark line k mark), x)
  | none =>
    if word.head? = some '$' then (.token ⟨line, .directive word⟩, x)
    else
      match x.nextLexeme with
      | (.error e, x) => (.fault e, x)
      | (.ok none, x) => (.token ⟨line, .identifier word⟩, x)
      | (.ok (some (_, .mark '(')), x) => (.token ⟨line, .identifier (word ++ ['('])⟩, x)
      | (.ok (some other), x) => (.token ⟨line, .identifier word⟩, { x with pushed := some other })

def left (x : Lexer) : Nat :=
  x.source.left + x.pushed.isSome.toNat + x.owed.isSome.toNat

theorem left_nextLexeme_le (x : Lexer) : x.nextLexeme.2.left ≤ x.left := by
  have hscan := Source.left_scan_le x.source
  unfold nextLexeme
  split <;> simp_all [left]

theorem left_nextLexeme_lt {x x' : Lexer} {found : Nat × Lexeme}
    (h : x.nextLexeme = (.ok (some found), x')) : x'.left < x.left := by
  unfold nextLexeme at h
  split at h
  · next hpushed =>
    obtain ⟨-, rfl⟩ := Prod.mk.inj h
    simp only [left, hpushed, Option.isSome_none, Option.isSome_some, Bool.toNat_true, Bool.toNat_false]
    omega
  · next hpushed =>
    cases hscan : x.source.scan with
    | mk answer source =>
      rw [hscan] at h
      obtain ⟨rfl, rfl⟩ := Prod.mk.inj h
      have hlt := Source.left_scan_lt hscan
      simp only [left]
      omega

theorem left_readComment_le (x : Lexer) : x.readComment.2.left ≤ x.left := by
  have hpeek := Source.left_peek_le x.source
  unfold readComment
  split
  · next heq =>
    simp only [heq] at hpeek
    simp only [left]
    omega
  · next first s heq =>
    have hskip : (if first = some ' ' then s.advance else s).left ≤ s.left := by
      split
      · exact Source.left_advance_le s
      · exact Nat.le_refl _
    have hline := Source.left_takeLine (if first = some ' ' then s.advance else s)
    simp only [heq] at hpeek
    split
    · next hrest =>
      simp only [hrest, Except.toOption, Option.any_none, Bool.toNat_false] at hline
      simp only [left]
      omega
    · next text ended rest hrest =>
      simp only [hrest, Except.toOption, Option.any_some] at hline
      cases ended <;> simp only [left, Bool.toNat_true, Bool.toNat_false, if_true, if_false,
        Option.isSome_some, reduceCtorEq] at hline ⊢ <;> omega

theorem left_readWord_le (line : Nat) (word : Text) (x : Lexer) :
    (x.readWord line word).2.left ≤ x.left := by
  have hcomment := left_readComment_le x
  have hnext := left_nextLexeme_le x
  unfold readWord
  split
  · split <;> next heq => simpa only [heq] using hcomment
  · split
    · exact Nat.le_refl _
    · split
      · next heq => simpa only [heq] using hnext
      · next heq =>
        simp only [heq] at hnext
        split <;> exact hnext
  · split
    · exact Nat.le_refl _
    · split
      · next heq => simpa only [heq] using hnext
      · next heq => simpa only [heq] using hnext
      · next heq => simpa only [heq] using hnext
      · next heq =>
        -- what is put back has been used up before
        have hlt := left_nextLexeme_lt heq
        have hone : ∀ b : Bool, b.toNat ≤ 1 := by decide
        simp only [left, Option.isSome_some, Bool.toNat_true] at hlt ⊢
        omega

/-- Reads on to a token; a line end after a backslash is passed over. -/
def readOn (x : Lexer) : Draw × Lexer :=
  match _h : x.nextLexeme with
  | (.error e, x) => (.fault e, x)
  | (.ok none, x) => (.finished, { x with mayHaveMore := false })
  | (.ok (some (line, .lineEnd)), x) => (.token ⟨line, .lineEnd⟩, x)
  | (.ok (some (line, .number value)), x) => (.token ⟨line, .number value⟩, x)
  | (.ok (some (line, .quoted text)), x) => (.token ⟨line, .quoted text⟩, x)
  | (.ok (some (line, .word word)), x) => x.readWord line word
  | (.ok (some (line, .mark c)), x') =>
    match CharClass.ofChar c with
    | .escape =>
      match _h' : x'.nextLexeme with
      | (.error e, x) => (.fault e, x)
      | (.ok none, x) => (.fault (.openContinuation line), x)
      | (.ok (some (_, .lineEnd)), x) => x.readOn
      | (.ok (some (line, other)), x) => (.fault (.unexpectedLexeme line other), x)
    | .punctuation =>
      match Keyword.ofWord? [c] with
      | some k => (.token ⟨line, .keyword k⟩, x')
      | none => (.token ⟨line, .punct c⟩, x')
    | _ => (.fault (.unexpectedLexeme line (.mark c)), x')
termination_by x.left
decreasing_by exact Nat.lt_trans (left_nextLexeme_lt _h') (left_nextLexeme_lt _h)

def next (x : Lexer) : Draw × Lexer :=
  match x.owed with
  | some line => (.token ⟨line, .lineEnd⟩, { x with owed := none })
  | none => x.readOn

def nextUnlessStopped (x : Lexer) : Draw × Lexer :=
  if x.mayHaveMore then
    match x.next with
    | (.fault e, x) => (.fault e, { x with mayHaveMore := false })
    | answer => answer
  else (.finished, x)

def draw : Mode → Lexer → Draw × Lexer
  | .resuming, x => x.next
  | .stopping, x => x.nextUnlessStopped

theorem left_readOn_lt {x x' : Lexer} {t : Token} (h : x.readOn = (.token t, x')) :
    x'.left < x.left := by
  fun_induction readOn x with
  | case1 | case2 | case7 | case8 | case10 | case13 => cases (Prod.mk.inj h).1
  | case3 | case4 | case5 | case11 | case12 =>
    obtain ⟨-, rfl⟩ := Prod.mk.inj h
    exact left_nextLexeme_lt (by assumption)
  | case6 x line word x₁ heq =>
    have hword := left_readWord_le line word x₁
    rw [h] at hword
    exact Nat.lt_of_le_of_lt hword (left_nextLexeme_lt heq)
  | case9 _ _ _ _ heq _ _ _ heq' ih =>
    exact Nat.lt_trans (ih h) (Nat.lt_trans (left_nextLexeme_lt heq') (left_nextLexeme_lt heq))

theorem left_next_lt {x x' : Lexer} {t : Token} (h : x.next = (.token t, x')) : x'.left < x.left := by
  unfold next at h
  split at h
  · next howed =>
    obtain ⟨-, rfl⟩ := Prod.mk.inj h
    simp only [left, howed, Option.isSome_none, Option.isSome_some, Bool.toNat_true, Bool.toNat_false]
    omega
  · exact left_readOn_lt h

theorem left_nextUnlessStopped_lt {x x' : Lexer} {t : Token}
    (h : x.nextUnlessStopped = (.token t, x')) : x'.left < x.left := by
  unfold nextUnlessStopped at h
  split at h
  · split at h
    · cases (Prod.mk.inj h).1
    · exact left_next_lt h
  · cases (Prod.mk.inj h).1

def drawMany (mode : Mode) : Nat → Lexer → List (Draw × Bool)
  | 0, _ => []
  | n + 1, x =>
    let (answer, x) := x.draw mode
    (answer, x.mayHaveMore) :: drawMany mode n x

def lexed (x : Lexer) : Lexing.Lexed :=
  match _h : x.nextUnlessStopped with
  | (.token t, x) =>
    let more := x.lexed
    ⟨t :: more.tokens, more.fault⟩
  | (.fault e, _) => ⟨[], some e⟩
  | (.finished, _) => ⟨[], none⟩
termination_by x.left
decreasing_by exact left_nextUnlessStopped_lt _h

def tokenize (bytes : List UInt8) : Except Error (List Token) :=
  (ofBytes bytes).lexed.result

end Lexer

end Applesoft
