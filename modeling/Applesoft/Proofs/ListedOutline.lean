import Applesoft.Proofs.ListedPrograms

/-!
# The tree of a listed program

`Program.outline` is what a program tree says besides source lines and the letter case of names. The
statements that keep their tokens are those that keep it when a program is listed and read back.
-/
namespace Applesoft

variable {letters : LetterCase} {id line : Nat}

/-- A token kind up to the ASCII letter case of names. -/
def TokenKind.folded : TokenKind → TokenKind
  | .identifier name => .identifier (name.map Char.toUpper)
  | k => k

def Statement.outline (s : Statement) : List TokenKind := s.map (·.kind.folded)

def Line.outline (l : Line) : UInt16 × List (List TokenKind) :=
  (l.number, l.statements.map Statement.outline)

/-- The line numbers, statements and token kinds of a program. -/
def Program.outline (p : Program) : List (UInt16 × List (List TokenKind)) :=
  p.lines.map Line.outline

namespace TokenKind

theorem bytes_folded (k : TokenKind) : k.folded.bytes = k.bytes := by
  cases k with
  | identifier name => rw [folded, bytes, toUpper_map_toUpper, bytes]
  | _ => rfl

theorem folded_recased {k : TokenKind} (h : IsAscii k.payload) :
    (k.recased letters).folded = k.folded := by
  cases k with
  | identifier name => exact congrArg identifier (letters.map_toUpper_apply h)
  | _ => rfl

theorem isPlain_of_ascii {k : TokenKind} (h : IsAscii k.payload) : k.IsPlain := by
  cases k with
  | identifier name => exact fun c hc => Applesoft.isPlain_of_ascii (h c hc)
  | _ => trivial

end TokenKind

theorem map_intercalate {α β : Type} (f : α → β) (sep : List α) (xs : List (List α)) :
    (sep.intercalate xs).map f = (sep.map f).intercalate (xs.map (·.map f)) := by
  cases xs with
  | nil => rfl
  | cons x rest =>
    induction rest generalizing x with
    | nil => simp [List.intercalate]
    | cons x' rest ih =>
      rw [List.map_cons, List.map_cons, List.intercalate_cons_cons, List.intercalate_cons_cons,
        List.map_append, List.map_append, ih, List.map_cons]

theorem Line.bytes_eq_outline (l : Line) :
    l.bytes = ([TokenKind.colon].intercalate l.outline.2).flatMap TokenKind.bytes := by
  have hkinds : [TokenKind.colon].intercalate l.outline.2 = l.kinds.map TokenKind.folded := by
    rw [Line.kinds, map_intercalate, List.map_map]
    simp only [Line.outline, Function.comp_def, List.map_map]
    rfl
  rw [hkinds, List.flatMap_map]
  exact List.flatMap_congr fun k _ => k.bytes_folded.symm

theorem bytes_eq_of_outline {lines lines' : List Line}
    (h : lines'.map Line.outline = lines.map Line.outline) :
    lines.map Line.bytes = lines'.map Line.bytes := by
  have hmap : ∀ lines : List Line, lines.map Line.bytes = (lines.map Line.outline).map fun o =>
      ([TokenKind.colon].intercalate o.2).flatMap TokenKind.bytes := fun lines => by
    rw [List.map_map]
    exact List.map_congr_left fun l _ => l.bytes_eq_outline
  rw [hmap, hmap, h]

/-- A statement reads as itself only if no names of it merge. -/
theorem Statement.outline_reread_iff {s : Statement} (hascii : ∀ t ∈ s, IsAscii t.kind.payload) :
    (s.reread letters line).outline = s.outline ↔
      s.IsChain fun t t' => t.kind.merges t'.kind = false := by
  constructor
  · intro h
    apply isChain_of_length_merged
    simpa [outline, reread] using congrArg List.length h
  · intro h
    rw [reread, merged_of_isChain h, outline, outline, List.map_map]
    exact List.map_congr_left fun t ht => TokenKind.folded_recased (hascii t ht)

theorem outline_relist_iff {lines : List Line}
    (hascii : ∀ l ∈ lines, ∀ s ∈ l.statements, ∀ t ∈ s, IsAscii t.kind.payload) :
    (relist letters id line lines).map Line.outline = lines.map Line.outline ↔
      ∀ l ∈ lines, ∀ s ∈ l.statements, s.IsChain fun t t' => t.kind.merges t'.kind = false := by
  induction lines generalizing line with
  | nil => simp [relist]
  | cons l rest ih =>
    rw [List.forall_mem_cons] at hascii
    rw [relist, List.map_cons, List.map_cons, List.cons_eq_cons, ih hascii.2, List.forall_mem_cons]
    refine and_congr_left fun _ => ?_
    rw [Line.outline, Line.outline, Line.reread, Prod.mk.injEq, List.map_map,
      List.map_inj_left]
    simp only [true_and, Function.comp_apply]
    exact forall₂_congr fun s hs => Statement.outline_reread_iff (hascii.1 s hs)

namespace Program

/-- A program of ASCII text is read back from its listing exactly if every statement keeps its
tokens. -/
theorem listing_outline_iff {source : Text} {p : Program} (hsource : ∀ c ∈ source, c.toNat < 128)
    (h : parse id source = .ok p) (letters : LetterCase) (id' : Nat) :
    (∃ p', parse id' (p.listing letters) = .ok p' ∧ p'.outline = p.outline) ↔
      ∀ l ∈ p.lines, ∀ s ∈ l.statements, s.KeepsTokens := by
  have hascii : ∀ l ∈ p.lines, ∀ s ∈ l.statements, ∀ t ∈ s, IsAscii t.kind.payload :=
    fun l hl s hs t ht c hc => hsource c ((parse_wellFormed h hl).2 s hs t ht hc)
  have hproper : ∀ l ∈ p.lines, l.Proper := fun l hl =>
    (parse_wellFormed h hl).1.proper fun s hs t ht =>
      TokenKind.isPlain_of_ascii (hascii l hl s hs t ht)
  constructor
  · rintro ⟨p', hparse, houtline⟩
    obtain ⟨ts, hlex, hlines, -⟩ := parse_eq_ok_iff.1 hparse
    have hkeeps := keepsBytes_of_lines hproper hlex hlines (bytes_eq_of_outline houtline)
    rw [parse_listing hproper hkeeps] at hparse
    obtain rfl := Except.ok.inj hparse
    intro l hl s hs
    exact ⟨hkeeps l hl s hs, (outline_relist_iff hascii).1 houtline l hl s hs⟩
  · intro hkeeps
    refine ⟨_, parse_listing hproper fun l hl s hs => (hkeeps l hl s hs).1, ?_⟩
    exact (outline_relist_iff hascii).2 fun l hl s hs => (hkeeps l hl s hs).2

/-- A listing may write a name in another letter case, and it is still the same name. -/
theorem listing_outline_lower_case : (∀ c ∈ "10 PRINT Ab(X) : REM HI\n".toList, c.toNat < 128) ∧
    ∃ p, parse 0 "10 PRINT Ab(X) : REM HI\n".toList = .ok p ∧
      ∃ p', parse 0 (p.listing .lower) = .ok p' ∧ p'.outline = p.outline := by
  let p : Program := ⟨0, [⟨10,
    [[⟨1, .keyword .print⟩, ⟨1, .identifier ['A', 'b', '(']⟩, ⟨1, .identifier ['X']⟩,
      ⟨1, .punct ')'⟩], [⟨1, .comment ['H', 'I']⟩]], 0⟩]⟩
  have hsource : ∀ c ∈ "10 PRINT Ab(X) : REM HI\n".toList, c.toNat < 128 := by decide
  have h : parse 0 "10 PRINT Ab(X) : REM HI\n".toList = .ok p := by decide +kernel
  exact ⟨hsource, p, h, (listing_outline_iff hsource h .lower 0).2 (by decide)⟩

end Program

end Applesoft
