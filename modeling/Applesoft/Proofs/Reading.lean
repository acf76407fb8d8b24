import Applesoft.Proofs.Words

/-!
# Readings

`Reads` says that some tokens are read one after another and what text is left. Readings compose, and
the tokens of a text begin with the tokens of any reading of it.
-/
namespace Applesoft

def Keyword.meant (k : Keyword) : Keyword :=
  if k = .question then .print else k

namespace Lexing

variable {line : Nat} {s r : Text}

def readLexeme (line : Nat) : Option (Lexeme × Text) → Reading
  | none => .done line
  | some (.lineEnd, r) => .token ⟨line, .lineEnd⟩ r (line + 1)
  | some (.number value, r) => .token ⟨line, .number value⟩ r line
  | some (.quoted text, r) => .token ⟨line, .quoted text⟩ r line
  | some (.word word, r) => readWord line word r
  | some (.mark c, r) =>
    match CharClass.ofChar c with
    | .escape =>
      match Lexeme.cut r with
      | some (.lineEnd, r') => readToken (line + 1) r'
      | some (x, r') => .fault (.unexpectedLexeme line x) r' line
      | none => .fault (.openContinuation line) [] line
    | .punctuation => readPunctuation line c r
    | _ => .fault (.unexpectedLexeme line (.mark c)) r line

/-- What is read depends on the first lexeme alone. -/
theorem readToken_eq (line : Nat) (s : Text) :
    readToken line s = readLexeme line (Lexeme.cut s) := by
  rw [readToken]
  split
  case h_6 c r h =>
    rw [h, readLexeme]
    cases hclass : CharClass.ofChar c with
    | escape =>
      cases hcut : Lexeme.cut r with
      | none => rfl
      | some p =>
        obtain ⟨x, r'⟩ := p
        cases x <;> rfl
    | _ => rfl
  all_goals simp_all [readLexeme]

theorem readToken_congr {s' : Text} (h : Lexeme.cut s = Lexeme.cut s') :
    readToken line s = readToken line s' := by
  rw [readToken_eq, readToken_eq, h]

theorem readToken_word {word : Text} (h : Lexeme.cut s = some (.word word, r)) :
    readToken line s = readWord line word r := by
  rw [readToken_eq, h, readLexeme]

theorem readToken_punctuation {c : Char} (hc : CharClass.ofChar c = .punctuation) :
    readToken line (c :: r) = readPunctuation line c r := by
  rw [readToken_eq, Lexeme.cut_mark hc]
  simp only [readLexeme, hc]

theorem readToken_lineFeed (line : Nat) (s : Text) :
    readToken line ('\n' :: s) = .token ⟨line, .lineEnd⟩ s (line + 1) := by
  rw [readToken_eq, Lexeme.cut_lineFeed, readLexeme]

theorem readToken_colon (line : Nat) (s : Text) :
    readToken line (':' :: s) = .token ⟨line, .punct ':'⟩ s line := by
  rw [readToken_punctuation (by decide)]
  rfl

theorem readIdentifier_array {name : Text} (h : Lexeme.cut s = some (.mark '(', r)) :
    readIdentifier line name s = .token ⟨line, .identifier (name ++ ['('])⟩ r line := by
  rw [readIdentifier, h]
  rfl

theorem readIdentifier_of_ne {name : Text} (h : ∀ r, Lexeme.cut s ≠ some (.mark '(', r)) :
    readIdentifier line name s = .token ⟨line, .identifier name⟩ s line := by
  unfold readIdentifier
  split
  · next r hcut => exact absurd hcut (h r)
  · rfl

section Words

variable {r' : Text} {k : Keyword} {mark : Char}

theorem readKeyword_of_mark_eq_none (hmark : k.mark? = none) :
    readKeyword line k r = .token ⟨line, .keyword k.meant⟩ r line := by
  rw [readKeyword, hmark]
  rfl

theorem readKeyword_of_mark (hmark : k.mark? = some mark)
    (hcut : Lexeme.cut r = some (.mark mark, r')) :
    readKeyword line k r = .token ⟨line, .keyword k⟩ r' line := by
  rw [readKeyword, hmark, hcut]
  exact if_pos rfl

theorem readKeyword_of_ne (hmark : k.mark? = some mark)
    (hcut : ∀ r', Lexeme.cut r ≠ some (.mark mark, r')) :
    ∃ r' l, readKeyword line k r = .fault (.missingMark line k mark) r' l := by
  rw [readKeyword, hmark]
  dsimp only
  cases hsome : Lexeme.cut r with
  | none => exact ⟨_, _, rfl⟩
  | some p =>
    obtain ⟨x, r'⟩ := p
    have hx : x ≠ .mark mark := by
      rintro rfl
      exact hcut r' hsome
    exact ⟨_, _, if_neg hx⟩

theorem readWord_keyword {word : Text} (hsome : Keyword.ofWord? word = some k) (hrem : k ≠ .rem) :
    readWord line word r = readKeyword line k r := by
  rw [readWord, hsome]
  split
  · next h => exact absurd (Option.some.inj h) hrem
  · next h => rw [Option.some.inj h]
  · next h => cases h

end Words

def trimReturn (text : Text) : Text :=
  if text.getLast? = some '\r' then text.dropLast else text

theorem trimReturn_subset (text : Text) : trimReturn text ⊆ text := by
  unfold trimReturn
  split
  · exact List.dropLast_subset _
  · exact List.Subset.refl _

theorem trimReturn_of_not_mem {text : Text} (h : '\r' ∉ text) : trimReturn text = text :=
  if_neg fun hlast => h (List.mem_of_getLast? hlast)

theorem commentBody_of_space (s : Text) : commentBody (' ' :: s) =
    (trimReturn (s.takeWhile (· != '\n')), s.dropWhile (· != '\n')) := rfl

theorem commentBody_of_ne (h : s.head? ≠ some ' ') : commentBody s =
    (trimReturn (s.takeWhile (· != '\n')), s.dropWhile (· != '\n')) := by
  cases s with
  | nil => rfl
  | cons c rest =>
    have hc : c ≠ ' ' := by simpa using h
    simp [commentBody, trimReturn, hc]

/-- A comment is the rest of its line after at most one space. -/
theorem exists_commentBody (s : Text) :
    ∃ space body, (space = [] ∨ space = [' ']) ∧ s = space ++ body ∧ commentBody s =
      (trimReturn (body.takeWhile (· != '\n')), body.dropWhile (· != '\n')) := by
  by_cases h : s.head? = some ' '
  · obtain ⟨rest, rfl⟩ := List.head?_eq_some_iff.1 h
    exact ⟨[' '], rest, .inr rfl, rfl, commentBody_of_space rest⟩
  · exact ⟨[], s, .inl rfl, rfl, commentBody_of_ne h⟩

def Lexed.after (ts : List Token) (x : Lexed) : Lexed := ⟨ts ++ x.tokens, x.fault⟩

theorem Lexed.after_append (ts us : List Token) (x : Lexed) :
    x.after (ts ++ us) = (x.after us).after ts := by
  simp [after]

theorem lexFrom_token {t : Token} {l : Nat} (h : readToken line s = .token t r l) :
    lexFrom line s = (lexFrom l r).after [t] := by
  rw [lexFrom]
  split <;> simp_all [Lexed.after]

theorem lexFrom_done {l : Nat} (h : readToken line s = .done l) :
    lexFrom line s = ⟨[], none⟩ := by
  rw [lexFrom]
  split <;> simp_all

theorem lexFrom_fault {e : Error} {l : Nat} (h : readToken line s = .fault e r l) :
    lexFrom line s = ⟨[], some e⟩ := by
  rw [lexFrom]
  split <;> simp_all

theorem lexFrom_congr {line' : Nat} {s' : Text} (h : readToken line s = readToken line' s') :
    lexFrom line s = lexFrom line' s' := by
  rw [lexFrom, lexFrom, h]

theorem lexFrom_blank (s : Text) : lexFrom line (' ' :: s) = lexFrom line s :=
  lexFrom_congr (readToken_congr (Lexeme.cut_blank (by decide)))

/-- The tokens `ts` are read one after another off the text `s`, and the text `r` is left. -/
inductive Reads : Nat → Text → List Token → Nat → Text → Prop
  | nil {line : Nat} {s : Text} : Reads line s [] line s
  | cons {line l l' : Nat} {s s' r : Text} {t : Token} {ts : List Token} :
      readToken line s = .token t s' l → Reads l s' ts l' r → Reads line s (t :: ts) l' r

namespace Reads

variable {l l' : Nat} {r' : Text} {ts us : List Token}

theorem trans (h : Reads line s ts l r) (h' : Reads l r us l' r') :
    Reads line s (ts ++ us) l' r' := by
  induction h with
  | nil => exact h'
  | cons hread _ ih => exact .cons hread (ih h')

theorem lexFrom_eq (h : Reads line s ts l r) : lexFrom line s = (lexFrom l r).after ts := by
  induction h with
  | nil => rfl
  | @cons _ _ _ _ _ _ t ts hread _ ih =>
    rw [lexFrom_token hread, ih, ← Lexed.after_append]
    rfl

/-- Without a fault the tokens of a text are those that are read and those of what is left. -/
theorem of_lexFrom (h : Reads line s ts l r) (hlex : lexFrom line s = ⟨us, none⟩) :
    ∃ us', us = ts ++ us' ∧ lexFrom l r = ⟨us', none⟩ := by
  rw [h.lexFrom_eq, Lexed.after, Lexed.mk.injEq] at hlex
  refine ⟨(lexFrom l r).tokens, hlex.1.symm, ?_⟩
  rw [← hlex.2]

theorem single {t : Token} (h : readToken line s = .token t r l) : Reads line s [t] l r :=
  .cons h .nil

end Reads

/-- A text is read token by token up to its end or its first fault. -/
theorem exists_reads (line : Nat) (s : Text) :
    ∃ l r, Reads line s (lexFrom line s).tokens l r ∧
      ((lexFrom line s).fault = none ∧ (∃ l', readToken l r = .done l') ∨
        ∃ e r' l', (lexFrom line s).fault = some e ∧ readToken l r = .fault e r' l') := by
  fun_induction lexFrom line s with
  | case1 line s l hread => exact ⟨line, s, .nil, .inl ⟨rfl, l, hread⟩⟩
  | case2 line s e r l hread => exact ⟨line, s, .nil, .inr ⟨e, r, l, rfl, hread⟩⟩
  | case3 line s t r l hread more ih =>
    obtain ⟨l', r', hreads, hend⟩ := ih
    exact ⟨l', r', .cons hread hreads, hend⟩

theorem exists_reads_of_ok {ts : List Token} (h : lexFrom line s = ⟨ts, none⟩) :
    ∃ l r l', Reads line s ts l r ∧ readToken l r = .done l' := by
  obtain ⟨l, r, hreads, ⟨-, l', hdone⟩ | ⟨e, _, _, hfault, _⟩⟩ := exists_reads line s
  · rw [h] at hreads
    exact ⟨l, r, l', hreads, hdone⟩
  · rw [h] at hfault
    cases hfault

theorem result_eq_ok_iff {x : Lexed} {ts : List Token} : x.result = .ok ts ↔ x = ⟨ts, none⟩ := by
  obtain ⟨us, _ | e⟩ := x <;> simp [Lexed.result]

end Lexing

theorem lex_eq_ok_iff {s : Text} {ts : List Token} :
    lex s = .ok ts ↔ Lexing.lexFrom 1 s = ⟨ts, none⟩ :=
  Lexing.result_eq_ok_iff

end Applesoft
