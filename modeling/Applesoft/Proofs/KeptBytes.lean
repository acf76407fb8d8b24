import Applesoft.Proofs.Divergence
import Applesoft.Proofs.Flattening

/-!
# Statements that keep their bytes

If the tokens read from a listed statement have the bytes of the statement's own tokens, then no tokens
of the statement clash and each can be listed.
-/
namespace Applesoft.Lexing

variable {letters : LetterCase} {line : Nat} {r : Text}

theorem not_diverges {s r' : Text} {g : TokenKind} {us : List Token} {b y : List UInt8}
    (hread : readToken line s = .token ⟨line, g⟩ r' line) (hg : g ≠ .lineEnd)
    (hlex : lexFrom line s = ⟨us, none⟩) (hbytes : bytesOf (restOfLine us) = b ++ y) :
    ¬ Diverges g.bytes b := by
  intro hdiverges
  obtain ⟨us', rfl, -⟩ := (Reads.single hread).of_lexFrom hlex
  rw [List.singleton_append, restOfLine_cons hg, bytesOf_cons] at hbytes
  exact hdiverges.append_ne _ _ hbytes

/-- A comment that loses its carriage return has fewer bytes than before. -/
theorem not_return_of_lexFrom {text : Text} {us : List Token} {y : List UInt8}
    (htext : '\n' ∉ text) (hr : r.head? = some '\n')
    (hlex : lexFrom line ((TokenKind.comment text).listed letters ++ r) = ⟨us, none⟩)
    (hbytes : bytesOf (restOfLine us) = (TokenKind.comment text).bytes ++ y) :
    text.getLast? ≠ some '\r' := by
  intro hlast
  obtain ⟨rest, rfl⟩ := List.head?_eq_some_iff.1 hr
  have hstop : Stops (· != '\n') ('\n' :: rest) := stops_cons.2 (by decide)
  have hread := @readToken_comment letters line _ text htext hstop
  rw [if_pos hlast] at hread
  obtain ⟨us', rfl, hrest⟩ := (Reads.single hread).of_lexFrom hlex
  have hend : restOfLine us' = [] := by
    have hhead := @lexFrom_head_of_stops line _ hstop
    rw [hrest] at hhead
    cases us' with
    | nil => rfl
    | cons u us' => exact List.takeWhile_cons_of_neg (by simpa using hhead u rfl)
  have hlength := congrArg List.length hbytes
  rw [List.singleton_append, restOfLine_cons (by simp), bytesOf_cons, hend] at hlength
  have hne : text ≠ [] := by rintro rfl; cases hlast
  have hpos := List.length_pos_iff.2 hne
  have hspace : (if text.dropLast = [] then [] else [MemoryImage.spaceByte]).length ≤ 1 := by
    split <;> simp
  simp only [TokenKind.bytes, asciiBytes, bytesOf, List.length_append, List.length_cons,
    List.length_map, List.length_dropLast, List.length_nil, List.isEmpty_iff, hne, if_false,
    List.map_nil, List.flatMap_nil] at hlength
  omega

theorem recased_eq_lineEnd {k : TokenKind} : k.recased letters = .lineEnd ↔ k = .lineEnd := by
  cases k <;> simp [TokenKind.recased]

theorem bytes_recased {k : TokenKind} (hplain : k.IsPlain) :
    (k.recased letters).bytes = k.bytes := by
  cases k with
  | identifier name =>
    rw [TokenKind.recased, TokenKind.bytes, letters.toUpper_apply hplain, TokenKind.bytes]
  | _ => rfl

theorem not_unlistable_of_bytes {k : TokenKind} {us : List Token} {y : List UInt8}
    (hk : k.Proper) (hcomment : ∀ text, k = .comment text → r.head? = some '\n')
    (hlex : lexFrom line (k.listed letters ++ r) = ⟨us, none⟩)
    (hbytes : bytesOf (restOfLine us) = k.bytes ++ y) : k.isUnlistable = false := by
  cases k with
  | number value =>
    by_contra hinfinite
    obtain ⟨g, r', hread, hg, hdiverges⟩ :=
      @TokenKind.infinite_diverges line r value hk.wellFormed
        (by simpa [TokenKind.isUnlistable] using hinfinite)
    exact not_diverges hread hg hlex hbytes hdiverges
  | comment text =>
    have hlast := not_return_of_lexFrom hk.wellFormed (hcomment text rfl) hlex hbytes
    simpa [TokenKind.isUnlistable] using hlast
  | _ => rfl

/-- Two tokens that clash would be read with a token whose bytes are not those of the two. -/
theorem not_clashes_of_bytes {t t' : Token} {rest us : List Token} {y : List UInt8}
    (ht : t.kind.Proper) (hproper : Statement.Proper (t :: t' :: rest) r)
    (hlex : lexFrom line (t.kind.listed letters ++
      (Listing.tokensAfter letters t.kind (t' :: rest) ++ r)) = ⟨us, none⟩)
    (hbytes : bytesOf (restOfLine us) = t.kind.bytes ++ (bytesOf (t' :: rest) ++ y)) :
    ¬ (t.kind.clashes t'.kind = true ∨
      t.kind.isOpenKeyword = true ∧ t'.kind.isUnlistable = true) := by
  intro hclash
  have ht' := hproper.token t' (by simp)
  have hafter : ∀ text, t'.kind = .comment text →
      Stops inWord (Listing.tokensAfter letters t'.kind rest ++ r) := by
    intro text htext
    cases rest with
    | cons t'' rest => exact absurd htext (hproper.comment.2.1 text)
    | nil =>
      obtain ⟨more, rfl⟩ := List.head?_eq_some_iff.1 (hproper.comment.2 text htext)
      exact stops_cons.2 (by decide)
  obtain ⟨g, r', hread, hg, hdiverges⟩ :=
    @TokenKind.clash_diverges letters line _ _ _ ht ht' hclash hafter
  rw [bytesOf_cons, ← List.append_assoc, ← List.append_assoc, List.append_assoc _ _ y] at hbytes
  refine not_diverges hread hg ?_ hbytes hdiverges
  rw [← hlex, Listing.tokensAfter]
  simp only [List.append_assoc]

theorem keepsBytes_of_tokens {t : Token} {rest us : List Token} {y : List UInt8}
    (hproper : Statement.Proper (t :: rest) r)
    (hmerges : (t :: rest).IsChain fun t t' => t.kind.merges t'.kind = false)
    (hlex : lexFrom line
      (t.kind.listed letters ++ (Listing.tokensAfter letters t.kind rest ++ r)) = ⟨us, none⟩)
    (hbytes : bytesOf (restOfLine us) = bytesOf (t :: rest) ++ y) :
    Statement.KeepsBytes (t :: rest) := by
  have ht := hproper.token t List.mem_cons_self
  rw [bytesOf_cons, List.append_assoc] at hbytes
  induction rest generalizing t us with
  | nil =>
    have hlisted := not_unlistable_of_bytes ht hproper.comment hlex hbytes
    exact ⟨by simpa using hlisted, .singleton t⟩
  | cons t' rest ih =>
    have ht' := hproper.token t' (by simp)
    have hlisted := not_unlistable_of_bytes ht
      (fun text h => absurd h (hproper.comment.1 text)) hlex hbytes
    have hnoClash := not_clashes_of_bytes ht hproper hlex hbytes
    rw [not_or] at hnoClash
    have hends : t.kind.EndsBefore (Listing.tokensAfter letters t.kind (t' :: rest) ++ r) := by
      rw [Listing.tokensAfter, List.append_assoc]
      exact TokenKind.endsBefore_listed hproper.comment.1 ht'.wellFormed ht'.plain ht'.ne_lineEnd
        (by simpa using hnoClash.1) (List.isChain_cons_cons.1 hmerges).1
        (fun h => by simpa [h] using hnoClash.2)
    have hread := @readToken_listed letters line _ _
      ht.wellFormed ht.plain hlisted ht.ne_lineEnd hends
    obtain ⟨us', rfl, hrest⟩ := (Reads.single hread).of_lexFrom hlex
    rw [List.singleton_append, restOfLine_cons (mt recased_eq_lineEnd.1 ht.ne_lineEnd),
      bytesOf_cons, bytes_recased ht.plain, List.append_cancel_left_eq] at hbytes
    have hkeeps : Statement.KeepsBytes (t' :: rest) := by
      refine ih hproper.tail hmerges.tail ?_ (by rw [hbytes, bytesOf_cons, List.append_assoc]) ht'
      rw [← hrest, Listing.tokensAfter]
      split
      · simp only [List.cons_append, List.nil_append, List.append_assoc, lexFrom_blank]
      · simp only [List.nil_append, List.append_assoc]
    refine ⟨List.forall_mem_cons.2 ⟨hlisted, hkeeps.1⟩, ?_⟩
    exact List.isChain_cons_cons.2 ⟨by simpa using hnoClash.1, hkeeps.2⟩

theorem reads_merged {s : Statement} (hproper : s.Proper r) (hkeeps : s.KeepsBytes) :
    Reads line (Listing.statement letters s ++ r) (s.reread letters line) line r := by
  rw [← Statement.statement_merged fun t ht => (hproper.token t ht).plain]
  exact reads_statement hproper.merged ⟨Statement.keepsBytes_merged.2 hkeeps, s.merged_isChain⟩

theorem keepsBytes_of_bytes {s : Statement} {us : List Token} {y : List UInt8}
    (hproper : s.Proper r) (hlex : lexFrom line (Listing.statement letters s ++ r) = ⟨us, none⟩)
    (hbytes : bytesOf (restOfLine us) = bytesOf s ++ y) : s.KeepsBytes := by
  have hplain : ∀ t ∈ s, t.kind.IsPlain := fun t ht => (hproper.token t ht).plain
  rw [← Statement.keepsBytes_merged]
  rw [← Statement.statement_merged hplain] at hlex
  rw [← Statement.bytesOf_merged s] at hbytes
  cases hs : s.merged with
  | nil => exact ⟨by simp, .nil⟩
  | cons t rest =>
    rw [hs, Listing.statement, List.append_assoc] at hlex
    rw [hs] at hbytes
    exact keepsBytes_of_tokens (hs ▸ hproper.merged) (hs ▸ s.merged_isChain) hlex hbytes

end Applesoft.Lexing
