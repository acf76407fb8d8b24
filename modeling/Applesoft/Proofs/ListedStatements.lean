import Applesoft.Proofs.Boundaries
import Applesoft.Proofs.Grouping

/-!
# Listed statements read back

A statement without clashing tokens is read back token by token, on whatever source line its listing
stands.
-/
namespace Applesoft

variable {letters : LetterCase} {line : Nat} {r : Text}

def Token.reread (letters : LetterCase) (line : Nat) (t : Token) : Token :=
  ⟨line, t.kind.recased letters⟩

structure TokenKind.Proper (k : TokenKind) : Prop where
  wellFormed : k.WellFormed
  plain : k.IsPlain
  ne_lineEnd : k ≠ .lineEnd
  ne_colon : k ≠ .colon

namespace Statement

def CommentLast (r : Text) : Statement → Prop
  | [] => True
  | [t] => ∀ text, t.kind = .comment text → r.head? = some '\n'
  | t :: t' :: rest => (∀ text, t.kind ≠ .comment text) ∧ CommentLast r (t' :: rest)

structure Proper (s : Statement) (r : Text) : Prop where
  token : ∀ t ∈ s, t.kind.Proper
  comment : s.CommentLast r
  closes : TokenKind.Closes r

theorem Proper.tail {t t' : Token} {rest : List Token} (h : Proper (t :: t' :: rest) r) :
    Proper (t' :: rest) r where
  token t ht := h.token t (List.mem_cons_of_mem _ ht)
  comment := h.comment.2
  closes := h.closes

/-- Each token keeps its bytes in a listing: it can be listed, and it does not clash with the token
before it. -/
def KeepsBytes (s : Statement) : Prop :=
  (∀ t ∈ s, t.kind.isUnlistable = false) ∧
    s.IsChain fun t t' => t.kind.clashes t'.kind = false

/-- Each token keeps its kind in a listing: besides, no name merges with a parenthesis after it. -/
def KeepsTokens (s : Statement) : Prop :=
  s.KeepsBytes ∧ s.IsChain fun t t' => t.kind.merges t'.kind = false

instance (s : Statement) : Decidable s.KeepsBytes :=
  inferInstanceAs (Decidable (_ ∧ _))

instance (s : Statement) : Decidable s.KeepsTokens :=
  inferInstanceAs (Decidable (_ ∧ _))

theorem KeepsBytes.tail {t : Token} {rest : List Token} (h : KeepsBytes (t :: rest)) :
    KeepsBytes rest :=
  ⟨fun t ht => h.1 t (List.mem_cons_of_mem _ ht), h.2.tail⟩

theorem KeepsTokens.tail {t : Token} {rest : List Token} (h : KeepsTokens (t :: rest)) :
    KeepsTokens rest :=
  ⟨h.1.tail, h.2.tail⟩

end Statement

namespace Lexing

theorem Reads.blank {l : Nat} {s r : Text} {ts : List Token} (h : Reads line s ts l r)
    (hts : ts ≠ []) : Reads line (' ' :: s) ts l r := by
  have hclass : CharClass.ofChar ' ' = .blank := by decide
  cases h with
  | nil => exact absurd rfl hts
  | cons hread hrest =>
    exact .cons ((readToken_congr (Lexeme.cut_blank hclass)).trans hread) hrest

theorem reads_tokens {t : Token} {rest : List Token} (hproper : Statement.Proper (t :: rest) r)
    (hkeeps : Statement.KeepsTokens (t :: rest)) :
    Reads line (t.kind.listed letters ++ (Listing.tokensAfter letters t.kind rest ++ r))
      ((t :: rest).map (Token.reread letters line)) line r := by
  have ht := hproper.token t List.mem_cons_self
  have hlisted := hkeeps.1.1 t List.mem_cons_self
  induction rest generalizing t with
  | nil =>
    have hends : t.kind.EndsBefore r := TokenKind.endsBefore_of_closes hproper.closes hproper.comment
    exact .cons (readToken_listed ht.wellFormed ht.plain hlisted ht.ne_lineEnd hends) .nil
  | cons t' rest ih =>
    have ht' := hproper.token t' (by simp)
    have hlisted' := hkeeps.1.1 t' (by simp)
    have hends : t.kind.EndsBefore (Listing.tokensAfter letters t.kind (t' :: rest) ++ r) := by
      rw [Listing.tokensAfter, List.append_assoc]
      exact TokenKind.endsBefore_listed hproper.comment.1 ht'.wellFormed ht'.plain ht'.ne_lineEnd
        (List.isChain_cons_cons.1 hkeeps.1.2).1 (List.isChain_cons_cons.1 hkeeps.2).1
        (fun h => by rw [hlisted'] at h; cases h)
    refine .cons (readToken_listed ht.wellFormed ht.plain hlisted ht.ne_lineEnd hends) ?_
    have hrest := ih hproper.tail hkeeps.tail ht' hlisted'
    rw [Listing.tokensAfter, List.append_assoc, List.append_assoc]
    split
    · exact hrest.blank (by simp)
    · exact hrest

theorem reads_statement {s : Statement} (hproper : s.Proper r) (hkeeps : s.KeepsTokens) :
    Reads line (Listing.statement letters s ++ r) (s.map (Token.reread letters line)) line r := by
  cases s with
  | nil => exact .nil
  | cons t rest =>
    rw [Listing.statement, List.append_assoc]
    exact reads_tokens hproper hkeeps

end Lexing

end Applesoft
