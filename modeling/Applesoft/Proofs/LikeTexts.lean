import Mathlib.Data.List.Forall2
import Applesoft.Proofs.Reading

/-!
# Texts that are read alike

Two texts that differ, but whose lexemes correspond one to one, are read in step: to tokens that differ
in the text they carry only, on the same lines, or to faults of the same kind on the same line. What
corresponds to what is a `Likeness`.
-/
namespace Applesoft

/-- Keywords that mean the same are the same, or have no mark. -/
theorem Keyword.eq_or_of_meant {k k' : Keyword} (h : k.meant = k'.meant) :
    k = k' ∨ k.mark? = none ∧ k'.mark? = none := by
  unfold meant at h
  split at h <;> split at h
  · next hk hk' => exact .inl (hk.trans hk'.symm)
  · next hk hk' => exact .inr ⟨hk ▸ rfl, h ▸ rfl⟩
  · next hk hk' => exact .inr ⟨h ▸ rfl, hk' ▸ rfl⟩
  · exact .inl h

theorem rel_of_map_eq {α β : Type} {f : α → β} {x y : Option α} (h : x.map f = y.map f) :
    Option.Rel (fun a b => f a = f b) x y := by
  cases x with
  | none =>
    cases y with
    | none => exact .none
    | some => cases h
  | some a =>
    cases y with
    | none => cases h
    | some b => exact .some (Option.some.inj h)

theorem rel_of_imp {α : Type} {R S : α → α → Prop} {x y : Option α} (h : Option.Rel R x y)
    (himp : ∀ a b, x = some a → R a b → S a b) : Option.Rel S x y := by
  cases h with
  | none => exact .none
  | some hab => exact .some (himp _ _ rfl hab)

inductive Lexeme.Like (words payloads : Text → Text → Prop) : Lexeme → Lexeme → Prop
  | lineEnd : Like words payloads .lineEnd .lineEnd
  | number {value : Binary64} : Like words payloads (.number value) (.number value)
  | mark {c : Char} : Like words payloads (.mark c) (.mark c)
  | word {w w' : Text} : words w w' → Like words payloads (.word w) (.word w')
  | quoted {text text' : Text} : payloads text text' →
      Like words payloads (.quoted text) (.quoted text')

inductive TokenKind.Like (payloads : Text → Text → Prop) : TokenKind → TokenKind → Prop
  | lineEnd : Like payloads .lineEnd .lineEnd
  | number {value : Binary64} : Like payloads (.number value) (.number value)
  | keyword {k : Keyword} : Like payloads (.keyword k) (.keyword k)
  | punct {c : Char} : Like payloads (.punct c) (.punct c)
  | identifier {name name' : Text} : payloads name name' →
      Like payloads (.identifier name) (.identifier name')
  | quoted {text text' : Text} : payloads text text' → Like payloads (.quoted text) (.quoted text')
  | directive {name name' : Text} : payloads name name' →
      Like payloads (.directive name) (.directive name')
  | comment {text text' : Text} : payloads text text' →
      Like payloads (.comment text) (.comment text')

def Token.Like (payloads : Text → Text → Prop) (t t' : Token) : Prop :=
  t.line = t'.line ∧ t.kind.Like payloads t'.kind

inductive Error.Like (words payloads : Text → Text → Prop) : Error → Error → Prop
  | unexpectedLexeme {line : Nat} {x x' : Lexeme} : x.Like words payloads x' →
      Like words payloads (.unexpectedLexeme line x) (.unexpectedLexeme line x')
  | openContinuation {line : Nat} :
      Like words payloads (.openContinuation line) (.openContinuation line)
  | missingMark {line : Nat} {k : Keyword} {mark : Char} :
      Like words payloads (.missingMark line k mark) (.missingMark line k mark)

theorem Error.Like.kind_eq {words payloads : Text → Text → Prop} {e e' : Error}
    (h : e.Like words payloads e') : e.kind = e'.kind ∧ e.line? = e'.line? := by
  cases h <;> exact ⟨rfl, rfl⟩

section Equal

variable {words payloads : Text → Text → Prop}

theorem Lexeme.Like.refl {x : Lexeme} (hwords : ∀ w, x = .word w → words w w)
    (hpayloads : ∀ text, payloads text text) : x.Like words payloads x := by
  cases x with
  | lineEnd => exact .lineEnd
  | number => exact .number
  | word w => exact .word (hwords w rfl)
  | quoted text => exact .quoted (hpayloads text)
  | mark => exact .mark

theorem Lexeme.Like.eq {x x' : Lexeme} (h : x.Like words (· = ·) x')
    (hwords : ∀ w w', words w w' → w = w') : x = x' := by
  cases h with
  | lineEnd | number | mark => rfl
  | word hw => rw [hwords _ _ hw]
  | quoted htext => rw [htext]

theorem Token.Like.eq {t t' : Token} (h : t.Like (· = ·) t') : t = t' := by
  obtain ⟨line, kind⟩ := t
  obtain ⟨line', kind'⟩ := t'
  obtain ⟨rfl, hkind⟩ : line = line' ∧ kind.Like (· = ·) kind' := h
  cases hkind with
  | lineEnd | number | keyword | punct => rfl
  | identifier htext | quoted htext | directive htext | comment htext => rw [htext]

theorem Token.eq_of_forall₂_like {ts ts' : List Token}
    (h : List.Forall₂ (Token.Like (· = ·)) ts ts') : ts = ts' := by
  have heq : List.Forall₂ (· = ·) ts ts' := h.imp fun _ _ => Token.Like.eq
  rwa [List.forall₂_eq_eq_eq] at heq

theorem Error.Like.eq {e e' : Error} (h : e.Like words (· = ·) e')
    (hwords : ∀ w w', words w w' → w = w') : e = e' := by
  cases h with
  | unexpectedLexeme hx => rw [hx.eq hwords]
  | openContinuation | missingMark => rfl

end Equal

namespace Lexing

open Lexeme

inductive WordsAlike (texts payloads : Text → Text → Prop) (w w' : Text) : Prop
  | rem : Keyword.ofWord? w = some .rem → Keyword.ofWord? w' = some .rem →
      (∀ r r', texts r r' → payloads (commentBody r).1 (commentBody r').1 ∧
        texts (commentBody r).2 (commentBody r').2) → WordsAlike texts payloads w w'
  | keyword {k k' : Keyword} : Keyword.ofWord? w = some k → Keyword.ofWord? w' = some k' →
      k ≠ .rem → k.meant = k'.meant → WordsAlike texts payloads w w'
  | name : Keyword.ofWord? w = none → Keyword.ofWord? w' = none →
      (w.head? = some '$' ↔ w'.head? = some '$') → payloads w w' →
      payloads (w ++ ['(']) (w' ++ ['(']) → WordsAlike texts payloads w w'

/-- A word that is not `REM` is read like itself. -/
theorem wordsAlike_self {texts : Text → Text → Prop} {w : Text}
    (hrem : Keyword.ofWord? w ≠ some .rem) : WordsAlike texts (· = ·) w w := by
  cases hword : Keyword.ofWord? w with
  | none => exact .name hword hword Iff.rfl rfl rfl
  | some k =>
    have hk : k ≠ .rem := fun hk => hrem (hword.trans (congrArg some hk))
    exact .keyword hword hword hk rfl

/-- A correspondence of texts in which lexeme follows on lexeme and like words are read alike. -/
structure Likeness where
  texts : Text → Text → Prop
  words : Text → Text → Prop
  payloads : Text → Text → Prop
  cut {s s' : Text} : texts s s' →
    Option.Rel (fun p p' => p.1.Like words payloads p'.1 ∧ texts p.2 p'.2) (cut s) (cut s')
  wordsAlike {w w' : Text} : words w w' → WordsAlike texts payloads w w'

namespace Likeness

variable (L : Likeness) {line : Nat} {s s' r r' : Text}

/-- Readings in step: like tokens on the same line with like texts left, like faults, or the end. -/
inductive InStep : Reading → Reading → Prop
  | token {line l : Nat} {k k' : TokenKind} {r r' : Text} : k.Like L.payloads k' → L.texts r r' →
      InStep (.token ⟨line, k⟩ r l) (.token ⟨line, k'⟩ r' l)
  | fault {e e' : Error} {r r' : Text} {l l' : Nat} : e.Like L.words L.payloads e' →
      InStep (.fault e r l) (.fault e' r' l')
  | done {l : Nat} : InStep (.done l) (.done l)

variable {L}

theorem cut_none (h : L.texts s s') (hcut : Lexeme.cut s = none) : Lexeme.cut s' = none := by
  have hrel := L.cut h
  rw [hcut] at hrel
  generalize Lexeme.cut s' = x at hrel ⊢
  cases hrel
  rfl

theorem cut_some {x : Lexeme} (h : L.texts s s') (hcut : Lexeme.cut s = some (x, r)) :
    ∃ x' r', Lexeme.cut s' = some (x', r') ∧ x.Like L.words L.payloads x' ∧ L.texts r r' := by
  have hrel := L.cut h
  rw [hcut] at hrel
  generalize Lexeme.cut s' = y at hrel ⊢
  cases hrel with
  | some hlike => exact ⟨_, _, rfl, hlike⟩

theorem cut_mark {c : Char} (h : L.texts s s') (hcut : Lexeme.cut s = some (.mark c, r)) :
    ∃ r', Lexeme.cut s' = some (.mark c, r') ∧ L.texts r r' := by
  obtain ⟨x', r', hcut', hlike, hrest⟩ := cut_some h hcut
  cases hlike
  exact ⟨r', hcut', hrest⟩

/-- The same mark comes first in both texts, or in neither. -/
theorem cut_ne_mark {c : Char} (h : L.texts s s') (hno : ∀ r, Lexeme.cut s ≠ some (.mark c, r)) :
    ∀ r', Lexeme.cut s' ≠ some (.mark c, r') := by
  intro r' hcut'
  cases hcut : Lexeme.cut s with
  | none =>
    rw [cut_none h hcut] at hcut'
    cases hcut'
  | some p =>
    obtain ⟨x, r⟩ := p
    obtain ⟨x', r'', hcut'', hlike, -⟩ := cut_some h hcut
    rw [hcut'', Option.some.injEq, Prod.mk.injEq] at hcut'
    obtain ⟨rfl, -⟩ := hcut'
    cases hlike
    exact hno r hcut

theorem readKeyword_inStep {k k' : Keyword} (hk : k.meant = k'.meant) (h : L.texts r r') :
    L.InStep (readKeyword line k r) (readKeyword line k' r') := by
  rcases Keyword.eq_or_of_meant hk with rfl | ⟨hmark, hmark'⟩
  · cases hmark : k.mark? with
    | none =>
      rw [readKeyword_of_mark_eq_none hmark, readKeyword_of_mark_eq_none hmark]
      exact .token .keyword h
    | some mark =>
      by_cases hcut : ∃ r₁, Lexeme.cut r = some (.mark mark, r₁)
      · obtain ⟨r₁, hr₁⟩ := hcut
        obtain ⟨r₁', hr₁', hrest⟩ := cut_mark h hr₁
        rw [readKeyword_of_mark hmark hr₁, readKeyword_of_mark hmark hr₁']
        exact .token .keyword hrest
      · have hno := not_exists.1 hcut
        obtain ⟨r₁, l, hread⟩ := @readKeyword_of_ne line _ _ _ hmark hno
        obtain ⟨r₁', l', hread'⟩ := @readKeyword_of_ne line _ _ _ hmark (cut_ne_mark h hno)
        rw [hread, hread']
        exact .fault .missingMark
  · rw [readKeyword_of_mark_eq_none hmark, readKeyword_of_mark_eq_none hmark', hk]
    exact .token .keyword h

theorem readIdentifier_inStep {name name' : Text} (hname : L.payloads name name')
    (harray : L.payloads (name ++ ['(']) (name' ++ ['('])) (h : L.texts r r') :
    L.InStep (readIdentifier line name r) (readIdentifier line name' r') := by
  by_cases hparen : ∃ r₁, Lexeme.cut r = some (.mark '(', r₁)
  · obtain ⟨r₁, hr₁⟩ := hparen
    obtain ⟨r₁', hr₁', hrest⟩ := cut_mark h hr₁
    rw [readIdentifier_array hr₁, readIdentifier_array hr₁']
    exact .token (.identifier harray) hrest
  · have hno := not_exists.1 hparen
    rw [readIdentifier_of_ne hno, readIdentifier_of_ne (cut_ne_mark h hno)]
    exact .token (.identifier hname) h

theorem readWord_inStep {w w' : Text} (hw : L.words w w') (h : L.texts r r') :
    L.InStep (readWord line w r) (readWord line w' r') := by
  cases L.wordsAlike hw with
  | rem hsome hsome' hcomment =>
    obtain ⟨htext, hrest⟩ := hcomment r r' h
    rw [readWord, readWord, hsome, hsome']
    exact .token (.comment htext) hrest
  | @keyword k k' hsome hsome' hrem hmeant =>
    have hrem' : k' ≠ .rem := by
      rintro rfl
      unfold Keyword.meant at hmeant
      split at hmeant
      · cases hmeant
      · exact hrem hmeant
    rw [readWord_keyword hsome hrem, readWord_keyword hsome' hrem']
    exact readKeyword_inStep hmeant h
  | name hnone hnone' hdollar hname harray =>
    rw [readWord, readWord, hnone, hnone']
    by_cases hhead : w.head? = some '$'
    · simp only [if_pos hhead, if_pos (hdollar.1 hhead)]
      exact .token (.directive hname) h
    · simp only [if_neg hhead, if_neg (mt hdollar.2 hhead)]
      exact readIdentifier_inStep hname harray h

theorem readPunctuation_inStep (c : Char) (h : L.texts r r') :
    L.InStep (readPunctuation line c r) (readPunctuation line c r') := by
  unfold readPunctuation
  split
  · exact .token .keyword h
  · exact .token .punct h

/-- Like texts are read in step. -/
theorem readToken_inStep (L : Likeness) (line : Nat) (h : L.texts s s') :
    L.InStep (readToken line s) (readToken line s') := by
  fun_induction readToken line s generalizing s' with
  | case1 line s hcut =>
    rw [readToken_eq, cut_none h hcut]
    exact .done
  | case2 line s r hcut | case3 line s value r hcut =>
    obtain ⟨x', r', hcut', hlike, hrest⟩ := cut_some h hcut
    cases hlike
    rw [readToken_eq, hcut', readLexeme]
    first
      | exact .token .lineEnd hrest
      | exact .token .number hrest
  | case4 line s text r hcut =>
    obtain ⟨x', r', hcut', hlike, hrest⟩ := cut_some h hcut
    cases hlike with
    | quoted htext =>
      rw [readToken_eq, hcut', readLexeme]
      exact .token (.quoted htext) hrest
  | case5 line s word r hcut =>
    obtain ⟨x', r', hcut', hlike, hrest⟩ := cut_some h hcut
    cases hlike with
    | word hword =>
      rw [readToken_word hcut']
      exact readWord_inStep hword hrest
  | case6 line s c r hcut hc r' hend ih =>
    obtain ⟨t, hcut', hrest⟩ := cut_mark h hcut
    obtain ⟨x', t', hend', hlike, hrest'⟩ := cut_some hrest hend
    cases hlike
    rw [readToken_eq line s', hcut']
    simp only [readLexeme, hc, hend']
    exact ih hrest'
  | case7 line s c r hcut hc x r' hno hend =>
    obtain ⟨t, hcut', hrest⟩ := cut_mark h hcut
    obtain ⟨x', t', hend', hlike, -⟩ := cut_some hrest hend
    rw [readToken_eq, hcut']
    simp only [readLexeme, hc, hend']
    split
    · next heq =>
      obtain ⟨rfl, -⟩ := Prod.mk.inj (Option.some.inj heq)
      cases hlike
      exact absurd rfl hno
    · next heq =>
      obtain ⟨rfl, rfl⟩ := Prod.mk.inj (Option.some.inj heq)
      exact .fault (.unexpectedLexeme hlike)
    · next heq => cases heq
  | case8 line s c r hcut hc hend =>
    obtain ⟨t, hcut', hrest⟩ := cut_mark h hcut
    rw [readToken_eq, hcut']
    simp only [readLexeme, hc, cut_none hrest hend]
    exact .fault .openContinuation
  | case9 line s c r hcut hc =>
    obtain ⟨t, hcut', hrest⟩ := cut_mark h hcut
    rw [readToken_eq, hcut']
    simp only [readLexeme, hc]
    exact readPunctuation_inStep c hrest
  | case10 line s c r hcut hno hno' =>
    obtain ⟨t, hcut', hrest⟩ := cut_mark h hcut
    rw [readToken_eq, hcut']
    simp only [readLexeme]
    exact .fault (.unexpectedLexeme .mark)

/-- Like texts are lexed alike: to like tokens, and to like faults or to the end. -/
theorem lexFrom_like (L : Likeness) (line : Nat) (s : Text) : ∀ s', L.texts s s' →
    List.Forall₂ (Token.Like L.payloads) (lexFrom line s).tokens (lexFrom line s').tokens ∧
      Option.Rel (Error.Like L.words L.payloads) (lexFrom line s).fault (lexFrom line s').fault := by
  fun_induction lexFrom line s with
  | case1 line s l hread =>
    intro s' h
    have hstep := L.readToken_inStep line h
    rw [hread] at hstep
    generalize hread' : readToken line s' = x at hstep
    cases hstep
    rw [lexFrom_done hread']
    exact ⟨.nil, .none⟩
  | case2 line s e r l hread =>
    intro s' h
    have hstep := L.readToken_inStep line h
    rw [hread] at hstep
    generalize hread' : readToken line s' = x at hstep
    cases hstep with
    | fault herror =>
      rw [lexFrom_fault hread']
      exact ⟨.nil, .some herror⟩
  | case3 line s t r l hread more ih =>
    intro s' h
    have hstep := L.readToken_inStep line h
    rw [hread] at hstep
    generalize hread' : readToken line s' = x at hstep
    cases hstep with
    | token hkind hrest =>
      obtain ⟨htokens, hfault⟩ := ih _ hrest
      rw [lexFrom_token hread']
      exact ⟨.cons ⟨rfl, hkind⟩ htokens, hfault⟩

theorem lex_like (L : Likeness) (h : L.texts s s') :
    (∃ ts ts', lex s = .ok ts ∧ lex s' = .ok ts' ∧ List.Forall₂ (Token.Like L.payloads) ts ts') ∨
      ∃ e e', lex s = .error e ∧ lex s' = .error e' ∧ e.Like L.words L.payloads e' := by
  obtain ⟨htokens, hfault⟩ := L.lexFrom_like 1 s s' h
  unfold lex Lexed.result
  generalize lexFrom 1 s = x at htokens hfault
  generalize lexFrom 1 s' = x' at htokens hfault
  obtain ⟨ts, fault⟩ := x
  obtain ⟨ts', fault'⟩ := x'
  cases hfault with
  | none => exact .inl ⟨ts, ts', rfl, rfl, htokens⟩
  | some herror => exact .inr ⟨_, _, rfl, rfl, herror⟩

/-- Texts are lexed the same if none of the text that tokens carry differs. -/
theorem lex_eq (L : Likeness) (hpayloads : L.payloads = (· = ·))
    (hwords : ∀ w w', L.words w w' → w = w') (h : L.texts s s') : lex s' = lex s := by
  rcases L.lex_like h with ⟨ts, ts', hs, hs', htokens⟩ | ⟨e, e', hs, hs', herror⟩
  · rw [hpayloads] at htokens
    rw [hs, hs', Token.eq_of_forall₂_like htokens]
  · rw [hpayloads] at herror
    rw [hs, hs', herror.eq hwords]

end Likeness

end Lexing

end Applesoft
