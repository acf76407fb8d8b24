import Applesoft.Proofs.ListedLines

/-!
# Listed programs read back

The listing of a program reads as `relist` of its lines if every statement keeps its bytes, and only
then as lines with the bytes of the program's lines.
-/
namespace Applesoft

variable {letters : LetterCase} {id line : Nat} {r : Text} {us : List Token}

def relist (letters : LetterCase) (id : Nat) : Nat → List Line → List Line
  | _, [] => []
  | line, l :: rest => l.reread letters id line :: relist letters id (line + 1) rest

namespace Lexing

theorem restOfLine_append {ts : List Token} (hts : ∀ t ∈ ts, t.kind ≠ .lineEnd) :
    restOfLine (ts ++ us) = ts ++ restOfLine us :=
  List.takeWhile_append_of_pos (by simpa [Token.isLineEnd] using hts)

/-- After a statement that is read with its bytes, the rest of the line is read with the other
bytes. -/
theorem keepsBytes_step {s : Statement} {y : List UInt8} (hproper : s.Proper r)
    (hlex : lexFrom line (Listing.statement letters s ++ r) = ⟨us, none⟩)
    (hbytes : bytesOf (restOfLine us) = bytesOf s ++ y) :
    s.KeepsBytes ∧ ∃ us', lexFrom line r = ⟨us', none⟩ ∧ bytesOf (restOfLine us') = y := by
  have hkeeps := keepsBytes_of_bytes hproper hlex hbytes
  obtain ⟨us', rfl, hrest⟩ := (reads_merged hproper hkeeps).of_lexFrom hlex
  refine ⟨hkeeps, us', hrest, ?_⟩
  have hends : ∀ t ∈ s.reread letters line, t.kind ≠ .lineEnd := fun t ht =>
    (Statement.mem_reread hproper.token t ht).1
  rwa [restOfLine_append hends, bytesOf_append, Statement.bytesOf_reread hproper.token,
    List.append_cancel_left_eq] at hbytes

theorem keepsBytes_of_after {rest : List Statement} (hproper : ProperStatements rest)
    (hlex : lexFrom line (Listing.after letters rest r) = ⟨us, none⟩)
    (hbytes : bytesOf (restOfLine us) = bytesOf (rest.flatMap (⟨line, .colon⟩ :: ·))) :
    ∀ s ∈ rest, s.KeepsBytes := by
  induction rest generalizing us with
  | nil => simp
  | cons s rest ih =>
    rw [Listing.after_cons] at hlex
    obtain ⟨us', rfl, hrest⟩ := (Reads.single (readToken_colon _ _)).of_lexFrom hlex
    rw [List.singleton_append, restOfLine_cons (by simp), bytesOf_cons, List.flatMap_cons,
      List.cons_append, bytesOf_cons, List.append_cancel_left_eq, bytesOf_append] at hbytes
    obtain ⟨hkeeps, us'', hlex', hbytes'⟩ := keepsBytes_step hproper.head hrest hbytes
    exact List.forall_mem_cons.2 ⟨hkeeps, ih hproper.tail hlex' hbytes'⟩

theorem kinds_join (ss : List Statement) : (join line ss).map Token.kind =
    [TokenKind.colon].intercalate (ss.map (·.map Token.kind)) := by
  cases ss with
  | nil => rfl
  | cons s rest =>
    induction rest generalizing s with
    | nil => simp [join, List.intercalate]
    | cons s' rest ih =>
      rw [List.map_cons, List.map_cons, List.intercalate_cons_cons, ← List.map_cons, ← ih s']
      simp [join]

theorem bytes_eq_join (line : Nat) (l : Line) : l.bytes = bytesOf (join line l.statements) := by
  rw [Line.bytes, bytesOf, kinds_join, Line.kinds]

theorem keepsBytes_of_line {l : Line} (hproper : l.Proper)
    (hlex : lexFrom line (Listing.line letters l ++ r) = ⟨numberToken line l.number :: us, none⟩)
    (hbytes : bytesOf (restOfLine us) = l.bytes) : ∀ s ∈ l.statements, s.KeepsBytes := by
  rw [Listing.line_append] at hlex
  obtain ⟨us', hus, hrest⟩ := (Reads.single (reads_number _ _)).of_lexFrom hlex
  obtain rfl := List.tail_eq_of_cons_eq hus
  rw [bytes_eq_join line] at hbytes
  have hstatements := hproper.statements
  cases hss : l.statements with
  | nil => simp
  | cons s rest =>
    rw [hss, Listing.statements_cons, lexFrom_blank] at hrest
    rw [hss] at hstatements
    rw [hss, join, bytesOf_append] at hbytes
    obtain ⟨hkeeps, us', hlex', hbytes'⟩ := keepsBytes_step hstatements.head hrest hbytes
    exact List.forall_mem_cons.2 ⟨hkeeps, keepsBytes_of_after hstatements.tail hlex' hbytes'⟩

end Lexing

open Lexing

namespace Program

theorem linesOf_listing {lines : List Line} (hproper : ∀ l ∈ lines, l.Proper)
    (hkeeps : ∀ l ∈ lines, ∀ s ∈ l.statements, s.KeepsBytes) :
    ∃ ts, lexFrom line (lines.flatMap (Listing.line letters)) = ⟨ts, none⟩ ∧
      linesOf id ts = .ok (relist letters id line lines) := by
  induction lines generalizing line with
  | nil =>
    have hdone : readToken line [] = .done line := by rw [readToken_eq]; rfl
    exact ⟨[], lexFrom_done hdone, by rw [linesOf]; rfl⟩
  | cons l rest ih =>
    rw [List.forall_mem_cons] at hproper hkeeps
    obtain ⟨ts, hlex, hlines⟩ := @ih (line + 1) hproper.2 hkeeps.2
    have hread := @reads_line letters line (rest.flatMap (Listing.line letters)) l
      hproper.1.statements hkeeps.1
    refine ⟨_, by rw [List.flatMap_cons, hread.lexFrom_eq, hlex]; rfl, ?_⟩
    rw [linesOf_reread hproper.1, hlines]
    rfl

/-- A program whose statements keep their bytes is read back from its listing. -/
theorem parse_listing {p : Program} (hproper : ∀ l ∈ p.lines, l.Proper)
    (hkeeps : ∀ l ∈ p.lines, ∀ s ∈ l.statements, s.KeepsBytes) :
    parse id (p.listing letters) = .ok ⟨id, relist letters id 1 p.lines⟩ := by
  obtain ⟨ts, hlex, hlines⟩ := linesOf_listing hproper hkeeps
  exact parse_eq_ok_iff.2 ⟨ts, hlex, hlines, rfl⟩

theorem keepsBytes_of_lines {lines lines' : List Line} (hproper : ∀ l ∈ lines, l.Proper)
    (hlex : lexFrom line (lines.flatMap (Listing.line letters)) = ⟨us, none⟩)
    (hlines : linesOf id us = .ok lines')
    (hbytes : lines.map Line.bytes = lines'.map Line.bytes) :
    ∀ l ∈ lines, ∀ s ∈ l.statements, s.KeepsBytes := by
  induction lines generalizing line us lines' with
  | nil => simp
  | cons l rest ih =>
    rw [List.forall_mem_cons] at hproper
    rw [List.flatMap_cons] at hlex
    have hkeeps : ∀ s ∈ l.statements, s.KeepsBytes := by
      obtain ⟨us', rfl, -⟩ := (Reads.single (reads_number _ _)).of_lexFrom
        (@Listing.line_append letters _ l ▸ hlex)
      rw [List.singleton_append, linesOf_cons rfl
        (asLineNumber_numberToken hproper.1.number_le), map_eq_ok_iff] at hlines
      obtain ⟨more, -, rfl⟩ := hlines
      rw [List.map_cons, List.map_cons, List.cons_eq_cons] at hbytes
      refine keepsBytes_of_line hproper.1 hlex ?_
      rw [hbytes.1, Line.bytes, kinds_lineStatements]
      rfl
    obtain ⟨us', rfl, hlex'⟩ := (reads_line hproper.1.statements hkeeps).of_lexFrom hlex
    rw [linesOf_reread hproper.1, map_eq_ok_iff] at hlines
    obtain ⟨more, hmore, rfl⟩ := hlines
    rw [List.map_cons, List.map_cons, List.cons_eq_cons] at hbytes
    exact List.forall_mem_cons.2 ⟨hkeeps, ih hproper.2 hlex' hmore hbytes.2⟩

end Program

end Applesoft
