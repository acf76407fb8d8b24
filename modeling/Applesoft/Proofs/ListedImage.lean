import Applesoft.Proofs.ImageWalk
import Applesoft.Proofs.ListedPrograms

/-!
# The image of a listed program

The statements that keep their bytes are those that keep the memory image of their program when the
program is listed and read back.
-/
namespace Applesoft

open MemoryImage

variable {letters : LetterCase} {id line : Nat} {address : UInt16} {bytes : List UInt8}

namespace TokenKind

theorem Encodable.isPlain {k : TokenKind} (h : k.Encodable) : k.IsPlain := by
  cases k with
  | identifier name => exact fun c hc u hu => h u (List.mem_flatMap.2 ⟨c, hc, hu⟩)
  | _ => trivial

theorem Encodable.recased {k : TokenKind} (h : k.Encodable) : (k.recased letters).Encodable := by
  cases k with
  | identifier name =>
    have hupper : (letters.apply name).toUpper = name.toUpper := letters.toUpper_apply h.isPlain
    rw [TokenKind.recased, Encodable, hupper]
    exact h
  | _ => exact h

end TokenKind

theorem Statement.encodable_reread {s : Statement} (h : ∀ t ∈ s, t.kind.Encodable) :
    ∀ t ∈ s.reread letters line, t.kind.Encodable := by
  have hparen : IsAscii (Text.toUpper ['(']) := by decide
  have hmerged : ∀ t ∈ s.merged, t.kind.Encodable := by
    refine forall_mem_merged h fun name _ hname => ?_
    rw [TokenKind.Encodable, Text.toUpper_append]
    exact List.forall_mem_append.2 ⟨hname, hparen⟩
  exact List.forall_mem_map.2 fun t ht => (hmerged t ht).recased

theorem bytesOf_flatMap_reread {ss : List Statement} (h : ∀ s ∈ ss, ∀ t ∈ s, t.kind.Proper)
    (t : Token) :
    bytesOf ((ss.map (Statement.reread letters line)).flatMap (t :: ·)) =
      bytesOf (ss.flatMap (t :: ·)) := by
  induction ss with
  | nil => rfl
  | cons s rest ih =>
    rw [List.forall_mem_cons] at h
    simp only [List.map_cons, List.flatMap_cons, List.cons_append, bytesOf_cons, bytesOf_append,
      Statement.bytesOf_reread h.1, ih h.2]

theorem Line.bytes_reread {l : Line} (hproper : l.Proper) :
    (l.reread letters id line).bytes = l.bytes := by
  have htoken := hproper.statements.token
  simp only [Lexing.bytes_eq_join line, Line.reread]
  cases hss : l.statements with
  | nil => rfl
  | cons s rest =>
    rw [hss, List.forall_mem_cons] at htoken
    rw [List.map_cons, Lexing.join, Lexing.join, bytesOf_append, bytesOf_append,
      Statement.bytesOf_reread htoken.1, bytesOf_flatMap_reread htoken.2]

theorem Line.isBody_reread {l : Line} (hproper : l.Proper) {body : List UInt8}
    (h : IsBody l.statements body) : IsBody (l.reread letters id line).statements body := by
  obtain ⟨hencodable, rfl⟩ := isBody_iff.1 h
  refine isBody_iff.2 ⟨List.forall_mem_map.2 fun s hs => ?_, (l.bytes_reread hproper).symm⟩
  exact Statement.encodable_reread (hencodable s hs)

theorem forall₂_relist {lines : List Line} (hproper : ∀ l ∈ lines, l.Proper) :
    List.Forall₂ (fun l l' => l.number = l'.number ∧
      ∀ body, IsBody l.statements body → IsBody l'.statements body)
      lines (relist letters id line lines) := by
  induction lines generalizing line with
  | nil => exact .nil
  | cons l rest ih =>
    rw [List.forall_mem_cons] at hproper
    exact .cons ⟨rfl, fun body => Line.isBody_reread hproper.1⟩ (ih hproper.2)

theorem map_bytes_eq {start : Nat} {previous : Option UInt16} {lines : List Line}
    {records : List Record} (h : LaidOut start previous lines records) :
    lines.map Line.bytes = records.map Record.body := by
  induction h with
  | nil => rfl
  | cons _ hbody _ _ ih => rw [List.map_cons, List.map_cons, ih, (isBody_iff.1 hbody).2]

namespace Program

/-- A listing keeps the image of its program exactly if every statement keeps its bytes. -/
theorem listing_image_iff {source : Text} {p : Program} (h : parse id source = .ok p)
    (himage : p.image address = .ok bytes) (letters : LetterCase) (id' : Nat) :
    (∃ p', parse id' (p.listing letters) = .ok p' ∧ p'.image address = .ok bytes) ↔
      ∀ l ∈ p.lines, ∀ s ∈ l.statements, s.KeepsBytes := by
  obtain ⟨records, hlaid, rfl⟩ := Layout.image_start_eq_ok_iff.1 himage
  have hproper : ∀ l ∈ p.lines, l.Proper := by
    intro l hl
    obtain ⟨body, hbody⟩ := hlaid.exists_body l hl
    exact (parse_wellFormed h hl).1.proper fun s hs t ht =>
      ((isBody_iff.1 hbody).1 s hs t ht).isPlain
  constructor
  · rintro ⟨p', hparse, himage'⟩
    obtain ⟨records', hlaid', hbytes⟩ := Layout.image_start_eq_ok_iff.1 himage'
    obtain ⟨ts, hlex, hlines, -⟩ := parse_eq_ok_iff.1 hparse
    obtain rfl := hlaid.records_unique hlaid' (List.append_cancel_right hbytes)
    exact keepsBytes_of_lines hproper hlex hlines ((map_bytes_eq hlaid).trans (map_bytes_eq hlaid').symm)
  · intro hkeeps
    refine ⟨_, parse_listing hproper hkeeps, ?_⟩
    exact Layout.image_start_eq_ok_iff.2 ⟨records, hlaid.congr (forall₂_relist hproper), rfl⟩

/-- A keyword before a comment keeps its blank, so this program keeps its image. -/
theorem listing_image_comment : ∃ p bytes, parse 0 "10 HOME : REM HI\n".toList = .ok p ∧
    p.image 2049 = .ok bytes ∧
    ∃ p', parse 0 (p.listing .lower) = .ok p' ∧ p'.image 2049 = .ok bytes := by
  let p : Program := ⟨0, [⟨10, [[⟨1, .keyword .home⟩], [⟨1, .comment ['H', 'I']⟩]], 0⟩]⟩
  let bytes : List UInt8 := [0x0C, 8, 10, 0, 0x97, 0x3A, 0xB2, 0x20, 0x48, 0x49, 0, 0, 0]
  have h : parse 0 "10 HOME : REM HI\n".toList = .ok p := by decide +kernel
  have himage : p.image 2049 = .ok bytes := by decide
  exact ⟨p, bytes, h, himage, (listing_image_iff h himage .lower 0).2 (by decide)⟩

/-- A comment after a name is listed without a blank and read back as part of the name. -/
theorem listing_image_name_before_comment : ∃ p p' bytes bytes',
    parse 0 "10 A REM HI\n".toList = .ok p ∧ p.image 2049 = .ok bytes ∧
      parse 0 (p.listing .upper) = .ok p' ∧ p'.image 2049 = .ok bytes' ∧ bytes ≠ bytes' := by
  let p : Program := ⟨0, [⟨10, [[⟨1, .identifier ['A']⟩, ⟨1, .comment ['H', 'I']⟩]], 0⟩]⟩
  let p' : Program :=
    ⟨0, [⟨10, [[⟨1, .identifier ['A', 'R', 'E', 'M']⟩, ⟨1, .identifier ['H', 'I']⟩]], 0⟩]⟩
  let bytes : List UInt8 := [0x0B, 8, 10, 0, 0x41, 0xB2, 0x20, 0x48, 0x49, 0, 0, 0]
  let bytes' : List UInt8 := [0x0C, 8, 10, 0, 0x41, 0x52, 0x45, 0x4D, 0x48, 0x49, 0, 0, 0]
  have h : parse 0 "10 A REM HI\n".toList = .ok p ∧ parse 0 (p.listing .upper) = .ok p' := by
    decide +kernel
  exact ⟨p, p', bytes, bytes', h.1, by decide, h.2, by decide, by decide⟩

end Program

end Applesoft
