import Applesoft.Proofs.SourceLines

/-!
# Lines broken by a backslash

A backslash and a line feed are read like a blank, but only between tokens. A break within a token,
that is between a keyword and its mark or between a name and its parenthesis, and one between another
backslash and its line end, ends what stands before it.
-/
namespace Applesoft

namespace Lexing

open Lexeme

variable {line l l' : Nat} {u r v : Text} {ts : List Token}

/-- Outside strings and comments no token takes in a blank or a backslash. -/
theorem separates_outside {d : Char} (hd : d = ' ' ∨ d = '\\') (hquote : '"' ∉ u) (hrem : NoRem u) :
    Separates d u := by
  have hfeed : d ≠ '\n' := by rcases hd with rfl | rfl <;> decide
  refine ⟨?_, ?_, fun h => absurd h hfeed, .inr ⟨hquote, hrem⟩⟩
  · rcases hd with rfl | rfl <;> decide
  · rcases hd with rfl | rfl <;> decide

theorem readToken_continuation (line : Nat) (v : Text) :
    readToken line ('\\' :: '\n' :: v) = readToken (line + 1) v :=
  readToken_gap (.continuation (List.forall_mem_nil _) .nil) line v

theorem lexFrom_continuation (line : Nat) (v : Text) :
    lexFrom line ('\\' :: '\n' :: v) = (lexFrom line v).down 1 := by
  rw [lexFrom_congr (readToken_continuation line v), lexFrom_down]

theorem Reads.lexFrom_append {d : Char} (hreads : Reads line (u ++ d :: v) ts l (r ++ d :: v))
    (hdone : readToken l r = .done l') (h : Separates d r) :
    lexFrom line (u ++ d :: v) = (lexFrom l' (d :: v)).after ts := by
  have happ := readToken_append l h v
  rw [hdone] at happ
  rw [hreads.lexFrom_eq, lexFrom_congr happ.eq_of_done]

theorem Reads.append_backslash (hreads : Reads line u ts l r) (hquote : '"' ∉ u) (hrem : NoRem u)
    (v : Text) : Reads line (u ++ '\\' :: v) ts l (r ++ '\\' :: v) :=
  hreads.append_of_ne (separates_outside (.inr rfl) hquote hrem) fun r' hcut => by
    simp [cut_backslash] at hcut

/-- What is refused is refused as well when a backslash follows: it is never what is missing. -/
theorem fault_append_backslash (hquote : '"' ∉ u) (hrem : NoRem u)
    (h : (lexFrom line u).fault ≠ none) (v : Text) :
    (lexFrom line (u ++ '\\' :: v)).fault ≠ none := by
  obtain ⟨l, r, hreads, ⟨hnone, -⟩ | ⟨e, r', l', -, hread⟩⟩ := exists_reads line u
  · exact absurd hnone h
  · have hsep := (separates_outside (.inr rfl) hquote hrem).of_suffix hreads.suffix
    have happ := readToken_append l hsep v
    rw [hread] at happ
    have hfault : ∃ e r' l', readToken l (r ++ '\\' :: v) = .fault e r' l' := by
      generalize readToken l (r ++ '\\' :: v) = y at happ ⊢
      cases happ with
      | fault => exact ⟨_, _, _, rfl⟩
      | unfinished hmissing => exact hmissing v (cut_backslash v)
    obtain ⟨e', r'', l'', hfault⟩ := hfault
    rw [(hreads.append_backslash hquote hrem v).lexFrom_eq, lexFrom_fault hfault]
    simp [Lexed.after]

theorem lexFrom_append_continuation (hquote : '"' ∉ u) (hrem : NoRem u) (hreads : Reads line u ts l r)
    (hdone : readToken l r = .done l') (v : Text) :
    lexFrom line (u ++ '\\' :: '\n' :: v) = ((lexFrom l' v).down 1).after ts := by
  have hsep := (separates_outside (.inr rfl) hquote hrem).of_suffix hreads.suffix
  have hgoes := hreads.append_backslash hquote hrem ('\n' :: v)
  rw [hgoes.lexFrom_append hdone hsep, lexFrom_continuation]

/-- Where a text is read to its end, a blank after it is passed over, unless the text ends in a name and
a parenthesis follows. -/
theorem lexFrom_append_space (hquote : '"' ∉ u) (hrem : NoRem u) (hreads : Reads line u ts l r)
    (hdone : readToken l r = .done l') (v : Text) :
    lexFrom line (u ++ ' ' :: v) = (lexFrom l' v).after ts ∨
      ∃ before t name r', ts = before ++ [t] ∧ t.kind = .identifier name ∧
        lexFrom line (u ++ ' ' :: v) =
          (lexFrom l r').after (before ++ [⟨t.line, .identifier (name ++ ['('])⟩]) := by
  have hsep := separates_outside (.inl rfl) hquote hrem
  rcases hreads.append hsep v with hgoes | ⟨before, t, name, r', htokens, hkind, -, -, harray⟩
  · refine .inl ?_
    rw [hgoes.lexFrom_append hdone (hsep.of_suffix hreads.suffix), lexFrom_blank]
  · exact .inr ⟨before, t, name, r', htokens, hkind, harray.lexFrom_eq⟩

/-- The name before the break is no array, while the name before the blank is one. -/
theorem not_prefix_of_array {before more : List Token} {t : Token} {name : Text}
    (hkind : t.kind = .identifier name) :
    ¬ (before ++ [t]).map Token.kind <+:
      (before ++ [Token.mk t.line (.identifier (name ++ ['(']))] ++ more).map Token.kind := by
  intro hbegins
  rw [List.append_assoc, List.map_append, List.map_append, List.prefix_append_right_inj,
    List.singleton_append, List.map_cons, List.map_cons, List.cons_prefix_cons, hkind] at hbegins
  simpa using hbegins.1

end Lexing

open Lexing in
/-- Breaking a line in place of a blank, outside strings and comments, keeps the tokens exactly where the
text before the break is read by itself to some of the tokens: the break is not within a token. -/
theorem lex_continuation_iff {u v : Text} {ts : List Token} (hquote : '"' ∉ u) (hrem : NoRem u)
    (h : lex (u ++ ' ' :: v) = .ok ts) :
    (∃ ts', lex (u ++ '\\' :: '\n' :: v) = .ok ts' ∧ ts'.map Token.kind = ts.map Token.kind) ↔
      ∃ tu, lex u = .ok tu ∧ tu <+: ts := by
  rw [lex_eq_ok_iff] at h
  simp only [lex_eq_ok_iff]
  obtain ⟨l, r, hreads, ⟨hnone, l', hdone⟩ | ⟨e, -, -, hfault, -⟩⟩ := exists_reads 1 u
  · generalize htu : (lexFrom 1 u).tokens = tu at hreads
    have hlex : lexFrom 1 u = ⟨tu, none⟩ := by rw [← htu, ← hnone]
    rw [hlex, lexFrom_append_continuation hquote hrem hreads hdone]
    rcases lexFrom_append_space hquote hrem hreads hdone v with
      hblank | ⟨before, t, name, r', rfl, hkind, harray⟩
    · rw [hblank, Lexed.after, Lexed.mk.injEq] at h
      obtain ⟨rfl, hrest⟩ := h
      constructor
      · intro _
        exact ⟨tu, rfl, List.prefix_append _ _⟩
      · intro _
        refine ⟨tu ++ (lexFrom l' v).tokens.map (Token.down 1), ?_, ?_⟩
        · rw [Lexed.after, Lexed.down, hrest, Option.map_none]
        · simp [Token.down]
    · rw [harray, Lexed.after, Lexed.mk.injEq] at h
      obtain ⟨rfl, -⟩ := h
      have hno := @not_prefix_of_array before (lexFrom l r').tokens t name hkind
      constructor
      · rintro ⟨ts', hts', hkinds⟩
        rw [Lexed.after, Lexed.mk.injEq] at hts'
        rw [← hkinds, ← hts'.1] at hno
        exact absurd ((List.prefix_append _ _).map Token.kind) hno
      · rintro ⟨tu, htu, hbegins⟩
        obtain rfl := (Lexed.mk.inj htu).1
        exact absurd (hbegins.map Token.kind) hno
  · constructor
    · rintro ⟨ts', hts', -⟩
      have hne : (lexFrom 1 u).fault ≠ none := by simp [hfault]
      have hbroken := fault_append_backslash hquote hrem hne ('\n' :: v)
      rw [hts'] at hbroken
      exact absurd rfl hbroken
    · rintro ⟨tu, htu, -⟩
      rw [htu] at hfault
      cases hfault

theorem lex_continuation_between_tokens :
    let u := "10 PR # 1 : A".toList
    let v := "= b (2)".toList
    let ts := [⟨1, .number (.ofNat 10)⟩, ⟨1, .keyword .prSlot⟩, ⟨1, .number (.ofNat 1)⟩,
      ⟨1, .punct ':'⟩, ⟨1, .identifier ['A']⟩, ⟨1, .keyword .equal⟩, ⟨1, .identifier ['b', '(']⟩,
      ⟨1, .number (.ofNat 2)⟩, ⟨1, .punct ')'⟩]
    '"' ∉ u ∧ NoRem u ∧ lex (u ++ ' ' :: v) = .ok ts ∧
      ((∃ ts', lex (u ++ '\\' :: '\n' :: v) = .ok ts' ∧ ts'.map Token.kind = ts.map Token.kind) ↔
        ∃ tu, lex u = .ok tu ∧ tu <+: ts) := by
  intro u v ts
  have hquote : '"' ∉ u := by decide
  have hrem : NoRem u := by decide
  have h : lex (u ++ ' ' :: v) = .ok ts := by decide +kernel
  exact ⟨hquote, hrem, h, lex_continuation_iff hquote hrem h⟩

/-- A break between a keyword and its mark is refused, while a blank there is passed over. -/
theorem lex_broken_before_mark :
    let u := "10 PR".toList
    let v := "#1".toList
    '"' ∉ u ++ v ∧ NoRem u ∧ NoRem v ∧
      lex (u ++ ' ' :: v) = .ok
        [⟨1, .number (.ofNat 10)⟩, ⟨1, .keyword .prSlot⟩, ⟨1, .number (.ofNat 1)⟩] ∧
      lex (u ++ '\\' :: '\n' :: v) = .error (.missingMark 1 .prSlot '#') := by
  decide +kernel

end Applesoft
