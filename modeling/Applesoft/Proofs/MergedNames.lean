import Applesoft.Proofs.ListedStatements
import Applesoft.Proofs.TokenBytes

/-!
# Names that merge with a parenthesis

A name and a parenthesis after it have the same text and the same bytes as one name that ends with
the parenthesis. `merged` puts such names together, and a listing cannot tell a statement from what it
is merged to.
-/
namespace Applesoft

variable {letters : LetterCase} {r : Text}

namespace TokenKind

def withParen : TokenKind → TokenKind
  | .identifier name => .identifier (name ++ ['('])
  | k => k

theorem exists_of_merges {k k' : TokenKind} (h : k.merges k' = true) :
    ∃ name, k = .identifier name ∧ name.getLast? ≠ some '(' ∧ k' = .punct '(' := by
  simp only [merges, Bool.and_eq_true, beq_iff_eq] at h
  cases k with
  | identifier name => exact ⟨name, rfl, by simpa [isOpenName] using h.1, h.2⟩
  | _ => simp [isOpenName] at h

theorem not_clashes_withParen (name : Text) (k' : TokenKind) :
    (identifier (name ++ ['('])).clashes k' = false := by
  cases k' <;> simp [clashes, isOpenName, isDirective, isOpenKeyword]

theorem not_clashes_paren (k' : TokenKind) : (punct '(').clashes k' = false := by
  cases k' <;> simp [clashes, isOpenName, isDirective, isOpenKeyword]

theorem clashes_withParen (k k' : TokenKind) : k.clashes k'.withParen = k.clashes k' := by
  cases k' <;> rfl

theorem not_merges_withParen (k : TokenKind) {k' : TokenKind} (h : k'.isOpenName = true) :
    k.merges k'.withParen = false := by
  cases k' with
  | identifier name => simp [merges, withParen]
  | _ => simp [isOpenName] at h

theorem bytes_withParen (name : Text) :
    (identifier (name ++ ['('])).bytes = (identifier name).bytes ++ (punct '(').bytes := by
  have hparen : Text.toUpper ['('] = ['('] := by decide
  simp only [bytes, asciiBytes, Text.toUpper_append, hparen, List.map_append]

end TokenKind

namespace Statement

def merged : Statement → Statement
  | t :: t' :: rest =>
    if t.kind.merges t'.kind then ⟨t.line, t.kind.withParen⟩ :: merged rest
    else t :: merged (t' :: rest)
  | s => s

def reread (letters : LetterCase) (line : Nat) (s : Statement) : Statement :=
  s.merged.map (Token.reread letters line)

theorem head_merged (t : Token) (rest : Statement) : ∃ u, (merged (t :: rest)).head? = some u ∧
    (u.kind = t.kind ∨ t.kind.isOpenName = true ∧ u.kind = t.kind.withParen) := by
  cases rest with
  | nil => exact ⟨t, rfl, .inl rfl⟩
  | cons t' rest =>
    rw [merged]
    split
    · next hmerge =>
      simp only [TokenKind.merges, Bool.and_eq_true] at hmerge
      exact ⟨_, rfl, .inr ⟨hmerge.1, rfl⟩⟩
    · exact ⟨t, rfl, .inl rfl⟩

theorem merged_eq_nil {s : Statement} : s.merged = [] ↔ s = [] := by
  cases s with
  | nil => rfl
  | cons t rest =>
    obtain ⟨u, hu, -⟩ := head_merged t rest
    refine iff_of_false (fun hnil => ?_) (List.cons_ne_nil t rest)
    rw [hnil] at hu
    cases hu

/-- Induction along the names that merge. -/
theorem merged_induct {motive : Statement → Prop}
    (merge : ∀ line line' name rest, name.getLast? ≠ some '(' →
      merged (⟨line, .identifier name⟩ :: ⟨line', .punct '('⟩ :: rest) =
        ⟨line, .identifier (name ++ ['('])⟩ :: merged rest →
      motive rest → motive (⟨line, .identifier name⟩ :: ⟨line', .punct '('⟩ :: rest))
    (keep : ∀ t t' rest, t.kind.merges t'.kind = false →
      merged (t :: t' :: rest) = t :: merged (t' :: rest) →
      motive (t' :: rest) → motive (t :: t' :: rest))
    (nil : motive []) (single : ∀ t, motive [t]) (s : Statement) : motive s := by
  fun_induction merged s with
  | case1 t t' rest hmerge ih =>
    obtain ⟨line, kind⟩ := t
    obtain ⟨line', kind'⟩ := t'
    obtain ⟨name, rfl, hopen, rfl⟩ := TokenKind.exists_of_merges hmerge
    exact merge line line' name rest hopen (by rw [merged, if_pos hmerge]; rfl) ih
  | case2 t t' rest hmerge ih =>
    have hkeep := (Bool.not_eq_true _).mp hmerge
    exact keep t t' rest hkeep (by rw [merged, if_neg hmerge]) ih
  | case3 s hs =>
    cases s with
    | nil => exact nil
    | cons t rest =>
      cases rest with
      | nil => exact single t
      | cons t' rest => exact absurd rfl (hs t t' rest)

theorem forall_mem_merged {P : TokenKind → Prop} {s : Statement} (h : ∀ t ∈ s, P t.kind)
    (hparen : ∀ name, name.getLast? ≠ some '(' → P (.identifier name) →
      P (.identifier (name ++ ['(']))) : ∀ t ∈ s.merged, P t.kind := by
  induction s using merged_induct with
  | merge line line' name rest hopen hmerged ih =>
    rw [List.forall_mem_cons, List.forall_mem_cons] at h
    rw [hmerged]
    exact List.forall_mem_cons.2 ⟨hparen name hopen h.1, ih h.2.2⟩
  | keep t t' rest _ hmerged ih =>
    rw [List.forall_mem_cons] at h
    rw [hmerged]
    exact List.forall_mem_cons.2 ⟨h.1, ih h.2⟩
  | nil | single => exact h

theorem length_merged_le (s : Statement) : s.merged.length ≤ s.length := by
  induction s using merged_induct with
  | merge line line' name rest _ hmerged ih =>
    rw [hmerged]
    simp only [List.length_cons]
    omega
  | keep t t' rest _ hmerged ih =>
    rw [hmerged]
    simp only [List.length_cons] at ih ⊢
    omega
  | nil | single => exact Nat.le_refl _

/-- A merged statement has as many tokens as before only if nothing merges. -/
theorem isChain_of_length_merged {s : Statement} (h : s.merged.length = s.length) :
    s.IsChain fun t t' => t.kind.merges t'.kind = false := by
  induction s using merged_induct with
  | merge line line' name rest _ hmerged ih =>
    have hle := length_merged_le rest
    rw [hmerged] at h
    simp only [List.length_cons] at h
    omega
  | keep t t' rest hkeep hmerged ih =>
    rw [hmerged] at h
    simp only [List.length_cons, Nat.add_right_cancel_iff] at h
    exact List.isChain_cons_cons.2 ⟨hkeep, ih (by simpa using h)⟩
  | nil => exact .nil
  | single t => exact .singleton t

theorem merged_of_isChain {s : Statement}
    (h : s.IsChain fun t t' => t.kind.merges t'.kind = false) : s.merged = s := by
  induction s using merged_induct with
  | merge line line' name rest hopen _ _ =>
    have hmerge : (TokenKind.identifier name).merges (.punct '(') = true := by
      simpa [TokenKind.merges, TokenKind.isOpenName] using hopen
    rw [(List.isChain_cons_cons.1 h).1] at hmerge
    cases hmerge
  | keep t t' rest _ hmerged ih => rw [hmerged, ih h.tail]
  | nil | single => rfl

theorem bytesOf_merged (s : Statement) : bytesOf s.merged = bytesOf s := by
  induction s using merged_induct with
  | merge line line' name rest _ hmerged ih =>
    rw [hmerged]
    simp only [bytesOf_cons, ih, TokenKind.bytes_withParen, List.append_assoc]
  | keep t t' rest _ hmerged ih => rw [hmerged, bytesOf_cons, ih, ← bytesOf_cons]
  | nil | single => rfl

theorem merged_isChain (s : Statement) :
    s.merged.IsChain fun t t' => t.kind.merges t'.kind = false := by
  induction s using merged_induct with
  | merge line line' name rest _ hmerged ih =>
    rw [hmerged]
    refine ih.cons fun u _ => ?_
    simp [TokenKind.merges, TokenKind.isOpenName]
  | keep t t' rest hkeep hmerged ih =>
    rw [hmerged]
    refine ih.cons fun u hu => ?_
    obtain ⟨v, hv, hkind⟩ := head_merged t' rest
    obtain rfl := Option.mem_unique hu hv
    rcases hkind with hkind | ⟨hopen, hkind⟩
    · rw [hkind, hkeep]
    · rw [hkind, TokenKind.not_merges_withParen _ hopen]
  | nil => exact .nil
  | single t => exact .singleton t

theorem clashes_isChain_merged {s : Statement} :
    (s.merged.IsChain fun t t' => t.kind.clashes t'.kind = false) ↔
      s.IsChain fun t t' => t.kind.clashes t'.kind = false := by
  induction s using merged_induct with
  | merge line line' name rest _ hmerged ih =>
    have hpair : (TokenKind.identifier name).clashes (.punct '(') = false := rfl
    rw [hmerged, List.isChain_cons, List.isChain_cons_cons, List.isChain_cons, ih]
    simp [hpair, TokenKind.not_clashes_withParen, TokenKind.not_clashes_paren]
  | keep t t' rest _ hmerged ih =>
    have hhead : (∀ u ∈ (merged (t' :: rest)).head?, t.kind.clashes u.kind = false) ↔
        t.kind.clashes t'.kind = false := by
      obtain ⟨u, hu, hkind⟩ := head_merged t' rest
      have hclash : t.kind.clashes u.kind = t.kind.clashes t'.kind := by
        rcases hkind with hkind | ⟨-, hkind⟩
        · rw [hkind]
        · rw [hkind, TokenKind.clashes_withParen]
      simp [hu, hclash]
    rw [hmerged, List.isChain_cons, List.isChain_cons_cons, ih, hhead]
  | nil | single => rfl

theorem keepsBytes_merged {s : Statement} : s.merged.KeepsBytes ↔ s.KeepsBytes := by
  have hlisted : (∀ t ∈ s.merged, t.kind.isUnlistable = false) ↔
      ∀ t ∈ s, t.kind.isUnlistable = false := by
    induction s using merged_induct with
    | merge line line' name rest _ hmerged ih =>
      have hnames : ∀ name, (TokenKind.identifier name).isUnlistable = false := fun _ => rfl
      have hmark : (TokenKind.punct '(').isUnlistable = false := rfl
      simp only [hmerged, List.forall_mem_cons, ih, hnames, hmark, true_and]
    | keep t t' rest _ hmerged ih =>
      rw [hmerged]
      simp only [List.forall_mem_cons] at ih ⊢
      rw [ih]
    | nil | single => rfl
  rw [KeepsBytes, KeepsBytes, clashes_isChain_merged, hlisted]

theorem commentLast_cons {t : Token} {rest : Statement} (ht : ∀ text, t.kind ≠ .comment text)
    (hrest : rest.CommentLast r) : CommentLast r (t :: rest) := by
  cases rest with
  | nil => exact fun text htext => absurd htext (ht text)
  | cons t' rest => exact ⟨ht, hrest⟩

theorem commentLast_merged {s : Statement} (h : s.CommentLast r) : s.merged.CommentLast r := by
  induction s using merged_induct with
  | merge line line' name rest _ hmerged ih =>
    rw [hmerged]
    refine commentLast_cons (by simp) (ih ?_)
    cases rest with
    | nil => trivial
    | cons t rest => exact h.2.2
  | keep t t' rest _ hmerged ih =>
    rw [hmerged]
    exact commentLast_cons h.1 (ih h.2)
  | nil | single => exact h

theorem proper_of_mem_merged {s : Statement} (h : ∀ t ∈ s, t.kind.Proper) :
    ∀ t ∈ s.merged, t.kind.Proper := by
  refine forall_mem_merged h fun name hopen hname => ?_
  have hIsName : IsName name := hname.wellFormed.resolve_right fun ⟨w, _, hw⟩ =>
    hopen (by rw [hw, List.getLast?_concat])
  refine ⟨.inr ⟨name, hIsName, rfl⟩, fun c hc => ?_, by simp, by simp⟩
  rcases List.mem_append.1 hc with hc | hc
  · exact hname.plain c hc
  · rw [List.mem_singleton.1 hc]; decide

theorem Proper.merged {s : Statement} (h : s.Proper r) : s.merged.Proper r where
  token := proper_of_mem_merged h.token
  comment := commentLast_merged h.comment
  closes := h.closes

theorem tokensAfter_congr {k k' : TokenKind} (h : ∀ k'', k.needsBlank k'' = k'.needsBlank k'')
    (ts : List Token) : Listing.tokensAfter letters k ts = Listing.tokensAfter letters k' ts := by
  cases ts with
  | nil => rfl
  | cons t rest => rw [Listing.tokensAfter, Listing.tokensAfter, h]

theorem listed_withParen {name : Text} (hplain : ∀ c ∈ name, IsPlain c) :
    (TokenKind.identifier (name ++ ['('])).listed letters =
      (TokenKind.identifier name).listed letters ++ ['('] := by
  have happly : letters.apply ['('] = ['('] := by cases letters <;> decide
  rw [TokenKind.listed, TokenKind.listed, letters.apply_append hplain (by decide), happly]

/-- A listing does not tell a statement from what it is merged to. -/
theorem tokensAfter_merged {s : Statement} (hplain : ∀ t ∈ s, t.kind.IsPlain) (k : TokenKind) :
    Listing.tokensAfter letters k s.merged = Listing.tokensAfter letters k s := by
  induction s using merged_induct generalizing k with
  | merge line line' name rest hopen hmerged ih =>
    rw [List.forall_mem_cons, List.forall_mem_cons] at hplain
    obtain ⟨hname, -, hrest⟩ := hplain
    have hrest' : Listing.tokensAfter letters (.identifier (name ++ ['('])) rest =
        Listing.tokensAfter letters (.punct '(') rest :=
      tokensAfter_congr (by simp [TokenKind.needsBlank, TokenKind.endsWithLetter,
        TokenKind.endsWordLike, TokenKind.isWordLike]) rest
    have hblank : (TokenKind.identifier name).needsBlank (.punct '(') = false := by
      simp [TokenKind.needsBlank, TokenKind.endsWithLetter, TokenKind.startsWithLetter,
        TokenKind.isWordLike]
    have hbefore : k.needsBlank (.identifier (name ++ ['('])) = k.needsBlank (.identifier name) := rfl
    have htext : (TokenKind.identifier (name ++ ['('])).listed letters =
        (TokenKind.identifier name).listed letters ++ (TokenKind.punct '(').listed letters :=
      listed_withParen hname
    rw [hmerged]
    simp only [Listing.tokensAfter, ih hrest, hrest', hblank, hbefore, htext, Bool.false_eq_true,
      if_false, List.nil_append, List.append_assoc]
  | keep t t' rest _ hmerged ih =>
    rw [hmerged, Listing.tokensAfter, ih fun t ht => hplain t (List.mem_cons_of_mem _ ht)]
    rfl
  | nil | single => rfl

theorem statement_merged {s : Statement} (hplain : ∀ t ∈ s, t.kind.IsPlain) :
    Listing.statement letters s.merged = Listing.statement letters s := by
  -- after a keyword that ends with a letter any statement is listed as it is, with a blank before it
  have hafter : ∀ s : Statement, s ≠ [] →
      Listing.tokensAfter letters (.keyword .endRun) s = ' ' :: Listing.statement letters s := by
    intro s hs
    cases s with
    | nil => exact absurd rfl hs
    | cons t rest =>
      have hend : (TokenKind.keyword .endRun).endsWithLetter = true := by decide
      simp [Listing.tokensAfter, Listing.statement, TokenKind.needsBlank, hend]
  cases s with
  | nil => rfl
  | cons t rest =>
    have hne : merged (t :: rest) ≠ [] := mt merged_eq_nil.1 (List.cons_ne_nil t rest)
    have h := @tokensAfter_merged letters _ hplain (.keyword .endRun)
    rw [hafter _ hne, hafter _ (List.cons_ne_nil t rest)] at h
    exact List.tail_eq_of_cons_eq h

end Statement

end Applesoft
