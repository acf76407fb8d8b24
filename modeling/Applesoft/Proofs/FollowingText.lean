import Mathlib.Data.List.Infix
import Applesoft.Proofs.EmittedTokens

/-!
# Text that goes on

How the reading of a text changes when more text follows. If no token of the text can take in the next
character, the same tokens are read, except that a name at the very end takes in a parenthesis, and
that a fault may go away that came from the end of the text.
-/
namespace Applesoft

open Lexeme

/-- Nowhere in the text do the letters `REM` stand together, in any letter case. -/
def NoRem (u : Text) : Prop := ∀ s ∈ u.tails, (s.take 3).map Char.toUpper ≠ ['R', 'E', 'M']

instance (u : Text) : Decidable (NoRem u) :=
  inferInstanceAs (Decidable (∀ s ∈ u.tails, _))

theorem NoRem.of_suffix {u r : Text} (h : NoRem u) (hr : r <:+ u) : NoRem r := fun s hs =>
  h s ((List.mem_tails _ _).2 (((List.mem_tails _ _).1 hs).trans hr))

theorem NoRem.ofWord?_ne {u word r : Text} (h : NoRem u)
    (hcut : cut u = some (.word word, r)) : Keyword.ofWord? word ≠ some .rem := by
  intro hrem
  have hupper := Keyword.map_toUpper_of_rem hrem
  have hlength : word.length = 3 := by simpa using congrArg List.length hupper
  refine h _ ((List.mem_tails _ _).2 (cut_word_suffix hcut)) ?_
  rw [List.take_append_of_le_length (Nat.le_of_eq hlength.symm),
    List.take_of_length_le (Nat.le_of_eq hlength), hupper]

/-- No token that begins in `u` takes in `d`: neither a word or a number, nor a line end, nor a string
or a comment. -/
structure Separates (d : Char) (u : Text) : Prop where
  word : inWord d = false
  point : d ≠ '.'
  lineEnd : d = '\n' → '\r' ∉ u
  inside : d = '\n' ∨ '"' ∉ u ∧ NoRem u

theorem Separates.of_suffix {d : Char} {u r : Text} (h : Separates d u) (hr : r <:+ u) :
    Separates d r := by
  refine ⟨h.word, h.point, fun hd hmem => h.lineEnd hd (hr.subset hmem), ?_⟩
  rcases h.inside with hd | ⟨hquote, hrem⟩
  · exact .inl hd
  · exact .inr ⟨fun hmem => hquote (hr.subset hmem), hrem.of_suffix hr⟩

section Cuts

variable {p : Char → Bool} {d : Char} {u r v : Text}

theorem takeWhile_append_cons (hd : p d = false) (u v : Text) :
    (u ++ d :: v).takeWhile p = u.takeWhile p := by
  induction u with
  | nil => simp [hd]
  | cons c u ih => by_cases hc : p c = true <;> simp [hc, ih]

theorem dropWhile_append_cons (hd : p d = false) (u v : Text) :
    (u ++ d :: v).dropWhile p = u.dropWhile p ++ d :: v := by
  induction u with
  | nil => simp [hd]
  | cons c u ih => by_cases hc : p c = true <;> simp [hc, ih]

namespace Lexeme

theorem cutNumber_append (hdigit : d.isDigit = false) (hpoint : d ≠ '.') (u v : Text) :
    cutNumber (u ++ d :: v) = ((cutNumber u).1, (cutNumber u).2 ++ d :: v) := by
  unfold cutNumber
  rw [takeWhile_append_cons hdigit, dropWhile_append_cons hdigit]
  rcases u.dropWhile Char.isDigit with _ | ⟨c, r⟩
  · simp [hpoint]
  · by_cases hc : c = '.'
    · subst hc
      simp [takeWhile_append_cons hdigit, dropWhile_append_cons hdigit]
    · simp [hc]

theorem cutWord_append (hword : inWord d = false) (c : Char) (u v : Text) :
    cutWord c (u ++ d :: v) = ((cutWord c u).1, (cutWord c u).2 ++ d :: v) := by
  unfold cutWord
  by_cases hc : c = '?'
  · simp [hc]
  · simp [hc, takeWhile_append_cons hword, dropWhile_append_cons hword]

theorem cutQuoted_append (u v : Text) :
    cutQuoted (u ++ '\n' :: v) = ((cutQuoted u).1, (cutQuoted u).2 ++ '\n' :: v) := by
  have hfeed : inQuotes '\n' = false := by decide
  unfold cutQuoted
  rw [takeWhile_append_cons hfeed, dropWhile_append_cons hfeed]
  rcases u.dropWhile inQuotes with _ | ⟨c, r⟩
  · simp
  · by_cases hc : c = '"'
    · simp [hc]
    · simp [hc]

theorem cut_append_none (hcut : cut u = none) (v : Text) : cut (u ++ v) = cut v := by
  have hblanks := cut_eq_none_iff.1 hcut
  clear hcut
  induction u with
  | nil => rfl
  | cons c u ih =>
    rw [List.forall_mem_cons] at hblanks
    rw [List.cons_append, cut_blank (ofChar_eq_blank_iff.2 hblanks.1), ih hblanks.2]

theorem cut_blanks_append {blanks : Text} (hblanks : ∀ c ∈ blanks, IsBlank c) (s : Text) :
    cut (blanks ++ s) = cut s :=
  cut_append_none (cut_eq_none_iff.2 hblanks) s

theorem cut_backslash (v : Text) : cut ('\\' :: v) = some (.mark '\\', v) := by
  have hclass : CharClass.ofChar '\\' = .escape := by decide
  simp only [cut_cons, hclass]

/-- The first lexeme is the same where a character follows that is in no word and no number, unless the
lexeme is a string or the character completes a line end. -/
theorem cut_append_of_break {x : Lexeme} (hword : inWord d = false) (hpoint : d ≠ '.')
    (hreturn : d = '\n' → '\r' ∉ u) (hquoted : d = '\n' ∨ ∀ text, x ≠ .quoted text)
    (hcut : cut u = some (x, r)) (v : Text) : cut (u ++ d :: v) = some (x, r ++ d :: v) := by
  fun_induction cut u with
  | case1 => cases hcut
  | case2 c rest hc ih =>
    rw [List.cons_append, cut_blank hc]
    exact ih (fun hd hmem => hreturn hd (List.mem_cons_of_mem c hmem)) hcut
  | case3 r' hc =>
    obtain ⟨rfl, rfl⟩ := Prod.mk.inj (Option.some.inj hcut)
    simp only [List.cons_append, cut_cons, hc]
  | case4 c hc rest hno =>
    obtain ⟨rfl, rfl⟩ := Prod.mk.inj (Option.some.inj hcut)
    simp only [List.cons_append, cut_cons, hc]
    split
    · next r' heq =>
      cases rest with
      | nil =>
        obtain ⟨hd, -⟩ := List.cons.inj heq
        exact absurd List.mem_cons_self (hreturn hd)
      | cons c' rest =>
        obtain ⟨rfl, -⟩ := List.cons.inj heq
        exact absurd rfl (hno rest rfl)
    · rfl
  | case5 c rest hc =>
    obtain rfl : d = '\n' := by
      refine hquoted.resolve_right fun hno => ?_
      exact hno (rest.takeWhile inQuotes) (by rw [← cutQuoted_fst, Option.some.inj hcut])
    simp only [List.cons_append, cut_cons, hc]
    rw [cutQuoted_append, Option.some.inj hcut]
  | case6 c rest hc =>
    rw [List.cons_append, cut_numeric hc, ← List.cons_append,
      cutNumber_append (isDigit_of_not_inWord hword) hpoint, Option.some.inj hcut]
  | case7 c rest hc =>
    simp only [List.cons_append, cut_cons, hc]
    rw [cutWord_append hword, Option.some.inj hcut]
  | case8 c rest hc | case9 c rest hc | case10 c rest hc =>
    obtain ⟨rfl, rfl⟩ := Prod.mk.inj (Option.some.inj hcut)
    simp only [List.cons_append, cut_cons, hc]

theorem mem_of_cut_quoted {text : Text} (hcut : cut u = some (.quoted text, r)) : '"' ∈ u := by
  obtain ⟨blanks, piece, rfl, -, hspelling⟩ := cut_spelling hcut
  cases hspelling <;> simp

/-- The first lexeme of a text is the same where a character follows that it does not take in. -/
theorem cut_append_some {x : Lexeme} (h : Separates d u) (hcut : cut u = some (x, r)) (v : Text) :
    cut (u ++ d :: v) = some (x, r ++ d :: v) := by
  refine cut_append_of_break h.word h.point h.lineEnd ?_ hcut v
  rcases h.inside with hd | ⟨hquote, -⟩
  · exact .inl hd
  · refine .inr ?_
    rintro text rfl
    exact hquote (mem_of_cut_quoted hcut)

end Lexeme

end Cuts

namespace Lexing

variable {line l : Nat} {d : Char} {u r v w : Text}

/-- A gap is passed over, with its lines. -/
theorem readToken_gap {gap : Text} (h : Gap gap) (line : Nat) (s : Text) :
    readToken line (gap ++ s) = readToken (line + gap.count '\n') s := by
  induction h generalizing line with
  | nil => rfl
  | @blank c gap hc _ ih =>
    rw [List.cons_append, readToken_congr (cut_blank (ofChar_eq_blank_iff.2 hc)), ih,
      List.count_cons_of_ne hc.2.1]
  | @continuation blanks gap hblanks _ ih =>
    have hclass : CharClass.ofChar '\\' = .escape := by decide
    have hend : cut (blanks ++ '\n' :: (gap ++ s)) = some (.lineEnd, gap ++ s) := by
      rw [cut_blanks_append hblanks, cut_lineFeed]
    have hcount : ('\\' :: (blanks ++ '\n' :: gap)).count '\n' = 1 + gap.count '\n' := by
      simp [count_blanks hblanks, Nat.add_comm]
    rw [hcount, ← Nat.add_assoc, ← ih, List.cons_append, List.append_assoc, List.cons_append,
      readToken_eq, cut_backslash]
    simp only [readLexeme, hclass, hend]

inductive GoesOn (w : Text) : Reading → Reading → Prop
  | token {t : Token} {r : Text} {l : Nat} : GoesOn w (.token t r l) (.token t (r ++ w) l)
  /-- A name at the end of the text takes in a parenthesis. -/
  | array {line : Nat} {name r r' : Text} {l : Nat} : cut r = none →
      cut w = some (.mark '(', r') →
      GoesOn w (.token ⟨line, .identifier name⟩ r l)
        (.token ⟨line, .identifier (name ++ ['('])⟩ r' l)
  | fault {e : Error} {r : Text} {l : Nat} : GoesOn w (.fault e r l) (.fault e (r ++ w) l)
  /-- What is missing at the end of the text may follow, but a backslash is never what is missing. -/
  | unfinished {e : Error} {l : Nat} {y : Reading} :
      (∀ r, cut w = some (.mark '\\', r) → ∃ e' r' l', y = .fault e' r' l') →
      GoesOn w (.fault e [] l) y
  | done {l : Nat} : GoesOn w (.done l) (readToken l w)

theorem GoesOn.eq_of_done {y : Reading} (h : GoesOn w (.done l) y) : y = readToken l w := by
  cases h
  rfl

theorem commentBody_append (u v : Text) :
    commentBody (u ++ '\n' :: v) = ((commentBody u).1, (commentBody u).2 ++ '\n' :: v) := by
  have htake (u : Text) : (u ++ '\n' :: v).takeWhile (· != '\n') = u.takeWhile (· != '\n') :=
    takeWhile_append_cons rfl u v
  have hdrop (u : Text) :
      (u ++ '\n' :: v).dropWhile (· != '\n') = u.dropWhile (· != '\n') ++ '\n' :: v :=
    dropWhile_append_cons rfl u v
  by_cases hu : u.head? = some ' '
  · obtain ⟨rest, rfl⟩ := List.head?_eq_some_iff.1 hu
    rw [List.cons_append, commentBody_of_space, commentBody_of_space, htake, hdrop]
  · have huv : (u ++ '\n' :: v).head? ≠ some ' ' := by
      cases u with
      | nil => simp
      | cons c u => exact hu
    rw [commentBody_of_ne huv, commentBody_of_ne hu, htake, hdrop]

theorem readKeyword_append (h : Separates d r) (k : Keyword) (v : Text) :
    GoesOn (d :: v) (readKeyword line k r) (readKeyword line k (r ++ d :: v)) := by
  unfold readKeyword
  cases hmark : k.mark? with
  | none => exact .token
  | some mark =>
    have hne : mark ≠ '\\' := by
      rintro rfl
      exact absurd (k.spelled.mark _ hmark).2 (by decide)
    cases hcut : cut r with
    | none =>
      -- a keyword at the end of the text lacks its mark
      refine .unfinished fun r' hr' => ?_
      rw [cut_append_none hcut, hr']
      exact ⟨_, _, _, if_neg (by simpa using hne.symm)⟩
    | some p =>
      obtain ⟨x, r'⟩ := p
      rw [cut_append_some h hcut]
      by_cases hx : x = .mark mark
      · simp only [if_pos hx]
        exact .token
      · simp only [if_neg hx]
        exact .fault

theorem readIdentifier_append (h : Separates d r) (name v : Text) :
    GoesOn (d :: v) (readIdentifier line name r) (readIdentifier line name (r ++ d :: v)) := by
  by_cases hparen : ∃ r', cut (r ++ d :: v) = some (.mark '(', r')
  · obtain ⟨r', hr'⟩ := hparen
    rw [readIdentifier_array hr']
    cases hcut : cut r with
    | none =>
      rw [readIdentifier_of_ne (by simp [hcut])]
      rw [cut_append_none hcut] at hr'
      exact .array hcut hr'
    | some p =>
      obtain ⟨x, s⟩ := p
      rw [cut_append_some h hcut] at hr'
      obtain ⟨rfl, rfl⟩ := Prod.mk.inj (Option.some.inj hr')
      rw [readIdentifier_array hcut]
      exact .token
  · rw [not_exists] at hparen
    have hno : ∀ r', cut r ≠ some (.mark '(', r') := fun r' hr' =>
      hparen _ (cut_append_some h hr' v)
    rw [readIdentifier_of_ne hno, readIdentifier_of_ne hparen]
    exact .token

theorem readWord_append {word : Text} (h : Separates d r)
    (hrem : d = '\n' ∨ Keyword.ofWord? word ≠ some .rem) (v : Text) :
    GoesOn (d :: v) (readWord line word r) (readWord line word (r ++ d :: v)) := by
  unfold readWord
  split
  · next hsome =>
    obtain rfl : d = '\n' := hrem.resolve_right fun hno => hno hsome
    rw [commentBody_append]
    exact .token
  · exact readKeyword_append h _ v
  · split
    · exact .token
    · exact readIdentifier_append h _ v

theorem readPunctuation_append (c : Char) (r w : Text) :
    GoesOn w (readPunctuation line c r) (readPunctuation line c (r ++ w)) := by
  unfold readPunctuation
  split <;> exact .token

/-- A text is read as before when more text follows that its tokens do not take in. -/
theorem readToken_append (line : Nat) (h : Separates d u) (v : Text) :
    GoesOn (d :: v) (readToken line u) (readToken line (u ++ d :: v)) := by
  fun_induction readToken line u with
  | case1 line u hcut =>
    rw [readToken_congr (cut_append_none hcut (d :: v))]
    exact .done
  | case2 line u r hcut | case3 line u _ r hcut | case4 line u _ r hcut =>
    rw [readToken_eq, cut_append_some h hcut]
    exact .token
  | case5 line u word r hcut =>
    have hrem : d = '\n' ∨ Keyword.ofWord? word ≠ some .rem :=
      h.inside.imp_right fun hno => hno.2.ofWord?_ne hcut
    rw [readToken_word (cut_append_some h hcut v)]
    exact readWord_append (h.of_suffix (cut_suffix hcut)) hrem v
  | case6 line u c r hcut hc r' hend ih =>
    have hr := h.of_suffix (cut_suffix hcut)
    rw [readToken_eq line (u ++ d :: v), cut_append_some h hcut]
    simp only [readLexeme, hc, cut_append_some hr hend]
    exact ih (hr.of_suffix (cut_suffix hend))
  | case7 line u c r hcut hc x r' hno hend =>
    have hr := h.of_suffix (cut_suffix hcut)
    rw [readToken_eq, cut_append_some h hcut]
    simp only [readLexeme, hc, cut_append_some hr hend]
    exact .fault
  | case8 line u c r hcut hc hend =>
    -- a backslash at the end of the text lacks its line end
    rw [readToken_eq, cut_append_some h hcut]
    refine .unfinished fun r' hr' => ?_
    simp only [readLexeme, hc, cut_append_none hend, hr']
    exact ⟨_, _, _, rfl⟩
  | case9 line u c r hcut hc =>
    rw [readToken_eq, cut_append_some h hcut]
    simp only [readLexeme, hc]
    exact readPunctuation_append c r _
  | case10 line u c r hcut hno hno' =>
    rw [readToken_eq, cut_append_some h hcut]
    simp only [readLexeme]
    exact .fault

/-- A reading goes on when more text follows, or its last token, with nothing but blanks after it, is a
name that takes in a parenthesis. -/
theorem Reads.append {ts : List Token} (hreads : Reads line u ts l r) (h : Separates d u) (v : Text) :
    Reads line (u ++ d :: v) ts l (r ++ d :: v) ∨
      ∃ before t name r', ts = before ++ [t] ∧ t.kind = .identifier name ∧ cut r = none ∧
        cut (d :: v) = some (.mark '(', r') ∧
        Reads line (u ++ d :: v) (before ++ [⟨t.line, .identifier (name ++ ['('])⟩]) l r' := by
  induction hreads with
  | nil => exact .inl .nil
  | @cons line l l' u u' r t ts hread hrest ih =>
    have happ := readToken_append line h v
    rw [hread] at happ
    generalize hy : readToken line (u ++ d :: v) = y at happ
    cases happ with
    | token =>
      rcases ih (h.of_suffix (readToken_suffix hread)) with hgoes | ⟨before, t', name, r', htokens⟩
      · exact .inl (.cons hy hgoes)
      · obtain ⟨rfl, hkind, hcut, hparen, hgoes⟩ := htokens
        exact .inr ⟨t :: before, t', name, r', rfl, hkind, hcut, hparen, .cons hy hgoes⟩
    | @array line name _ r' _ hcut hparen =>
      -- only blanks are left, so no further token is read
      cases hrest with
      | nil => exact .inr ⟨[], _, name, r', rfl, rfl, hcut, hparen, .single hy⟩
      | cons hnext _ =>
        rw [readToken_eq, hcut] at hnext
        cases hnext

theorem Reads.append_of_ne {ts : List Token} (hreads : Reads line u ts l r) (h : Separates d u)
    (hparen : ∀ r', cut (d :: v) ≠ some (.mark '(', r')) :
    Reads line (u ++ d :: v) ts l (r ++ d :: v) := by
  refine (hreads.append h v).resolve_right ?_
  rintro ⟨_, _, _, r', -, -, -, hcut, -⟩
  exact hparen r' hcut

end Lexing

end Applesoft
