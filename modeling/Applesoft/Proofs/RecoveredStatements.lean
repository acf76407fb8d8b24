import Applesoft.Proofs.ListedImage
import Applesoft.Proofs.RecordEnds

/-!
# Statements recovered from an image

A reader of a record finds the statements of its line without knowing the program: a colon ends a
statement unless it stands in a string or in a comment. The bytes that are no ASCII are the keywords of
the line.
-/
namespace Applesoft

open MemoryImage

namespace MemoryImage

/-- Cuts the body of a line at its colons, from within a string or from outside one. A quote leads into
a string or out of it. What begins with the byte of a comment outside a string is not cut. -/
def statementPieces (quoted : Bool) : List UInt8 → List (List UInt8)
  | [] => [[]]
  | b :: rest =>
    if b = quoteByte then (statementPieces (!quoted) rest).modifyHead (b :: ·)
    else if quoted = true then (statementPieces quoted rest).modifyHead (b :: ·)
    else if b = Keyword.rem.code then [b :: rest]
    else if b = colonByte then [] :: statementPieces quoted rest
    else (statementPieces quoted rest).modifyHead (b :: ·)

/-- Bytes that are no cut and after which the scan is outside strings, as it was before them. -/
def StaysWhole (bytes : List UInt8) : Prop :=
  ∀ rest, statementPieces false (bytes ++ rest) = (statementPieces false rest).modifyHead (bytes ++ ·)

section Pieces

variable {bytes more : List UInt8}

theorem modifyHead_nil_append (pieces : List (List UInt8)) :
    pieces.modifyHead ([] ++ ·) = pieces := by
  cases pieces <;> rfl

theorem staysWhole_nil : StaysWhole [] := by
  intro rest
  rw [modifyHead_nil_append, List.nil_append]

theorem StaysWhole.append (h : StaysWhole bytes) (hmore : StaysWhole more) :
    StaysWhole (bytes ++ more) := by
  intro rest
  rw [List.append_assoc, h, hmore, List.modifyHead_modifyHead]
  congr 1
  funext piece
  exact (List.append_assoc bytes more piece).symm

theorem staysWhole_singleton {b : UInt8} (hquote : b ≠ quoteByte) (hrem : b ≠ Keyword.rem.code)
    (hcolon : b ≠ colonByte) : StaysWhole [b] := by
  intro rest
  rw [List.singleton_append, statementPieces, if_neg hquote, if_neg Bool.false_ne_true, if_neg hrem,
    if_neg hcolon]
  rfl

theorem staysWhole_of_forall (h : ∀ b ∈ bytes, StaysWhole [b]) : StaysWhole bytes := by
  induction bytes with
  | nil => exact staysWhole_nil
  | cons b bytes ih =>
    rw [List.forall_mem_cons] at h
    exact h.1.append (ih h.2)

theorem statementPieces_within (hquote : quoteByte ∉ bytes) (rest : List UInt8) :
    statementPieces true (bytes ++ rest) = (statementPieces true rest).modifyHead (bytes ++ ·) := by
  induction bytes with
  | nil => rw [modifyHead_nil_append, List.nil_append]
  | cons b bytes ih =>
    rw [List.mem_cons, not_or] at hquote
    rw [List.cons_append, statementPieces, if_neg (Ne.symm hquote.1), if_pos rfl, ih hquote.2,
      List.modifyHead_modifyHead]
    rfl

/-- A string is left by the quote that ends it. -/
theorem staysWhole_quoted (hquote : quoteByte ∉ bytes) :
    StaysWhole (quoteByte :: bytes ++ [quoteByte]) := by
  intro rest
  have hclose : statementPieces true (quoteByte :: rest) =
      (statementPieces false rest).modifyHead (quoteByte :: ·) := by
    rw [statementPieces, if_pos rfl]
    rfl
  rw [List.cons_append, List.cons_append, statementPieces, if_pos rfl, Bool.not_false,
    List.append_assoc, statementPieces_within hquote, List.singleton_append, hclose,
    List.modifyHead_modifyHead, List.modifyHead_modifyHead]
  congr 1
  funext piece
  simp

theorem statementPieces_comment (rest : List UInt8) :
    statementPieces false (Keyword.rem.code :: rest) = [Keyword.rem.code :: rest] := by
  have hquote : Keyword.rem.code ≠ quoteByte := by decide
  rw [statementPieces, if_neg hquote, if_neg Bool.false_ne_true, if_pos rfl]

theorem statementPieces_colon (rest : List UInt8) :
    statementPieces false (colonByte :: rest) = [] :: statementPieces false rest := by
  have hquote : colonByte ≠ quoteByte := by decide
  have hrem : colonByte ≠ Keyword.rem.code := by decide
  rw [statementPieces, if_neg hquote, if_neg Bool.false_ne_true, if_neg hrem, if_pos rfl]

theorem StaysWhole.pieces_colon (h : StaysWhole bytes) (rest : List UInt8) :
    statementPieces false (bytes ++ colonByte :: rest) = bytes :: statementPieces false rest := by
  rw [h, statementPieces_colon, List.modifyHead_cons, List.append_nil]

end Pieces

end MemoryImage

theorem lt_of_mem_asciiBytes {t : Text} (h : IsAscii t) : ∀ b ∈ asciiBytes t, b < 128 := by
  intro b hb
  obtain ⟨c, hc, rfl⟩ := List.mem_map.1 hb
  have hlt := h c hc
  rw [UInt8.lt_iff_toNat_lt, UInt8.toNat_ofNat_of_lt' (Nat.lt_trans hlt (by decide))]
  exact hlt

/-- Text without quotes and colons stays whole outside strings. -/
theorem staysWhole_asciiBytes {t : Text} (hascii : IsAscii t) (hquote : '"' ∉ t) (hcolon : ':' ∉ t) :
    StaysWhole (asciiBytes t) := by
  have hquoteAscii : '"'.toNat < 128 := by decide
  have hcolonAscii : ':'.toNat < 128 := by decide
  refine staysWhole_of_forall fun b hb => staysWhole_singleton ?_ ?_ ?_
  · rintro rfl
    exact hquote ((ofNat_mem_asciiBytes hascii hquoteAscii).1 hb)
  · rintro rfl
    exact absurd (lt_of_mem_asciiBytes hascii _ hb) (by decide)
  · rintro rfl
    exact hcolon ((ofNat_mem_asciiBytes hascii hcolonAscii).1 hb)

theorem Keyword.staysWhole_code {k : Keyword} (hrem : k ≠ .rem) : StaysWhole [k.code] := by
  have hcode : k.code ≠ quoteByte ∧ (k ≠ .rem → k.code ≠ Keyword.rem.code) ∧ k.code ≠ colonByte := by
    cases k <;> decide
  exact staysWhole_singleton hcode.1 (hcode.2.1 hrem) hcode.2.2

namespace TokenKind

def code? : TokenKind → Option UInt8
  | .keyword k => some k.code
  | .comment _ => some Keyword.rem.code
  | .lineEnd | .number _ | .identifier _ | .quoted _ | .directive _ | .punct _ => none

/-- No token is cut but a colon, and only a comment takes in what follows. -/
theorem staysWhole_bytes {k : TokenKind} (hwell : k.WellFormed) (hencodable : k.Encodable)
    (hcolon : k ≠ .colon) (hcomment : ∀ text, k ≠ .comment text) : StaysWhole k.bytes := by
  cases k with
  | lineEnd => exact staysWhole_nil
  | number value =>
    have hlisted := Binary64.mem_listingText hwell.1 hwell.2
    exact staysWhole_asciiBytes hencodable (fun hmem => absurd (hlisted _ hmem) (by decide))
      fun hmem => absurd (hlisted _ hmem) (by decide)
  | keyword k => exact Keyword.staysWhole_code hwell.1
  | identifier name =>
    exact staysWhole_asciiBytes hencodable
      (not_mem_toUpper hwell hencodable (by decide) (by decide))
      (not_mem_toUpper hwell hencodable (by decide) (by decide))
  | quoted text =>
    refine staysWhole_quoted fun hmem => ?_
    have hquote : '"' ∈ text := (ofNat_mem_asciiBytes hencodable (by decide)).1 hmem
    exact absurd (hwell _ hquote) (by decide)
  | directive name => exact hencodable.elim
  | comment text => exact absurd rfl (hcomment text)
  | punct c =>
    have hmarks : c ≠ '"' ∧ c ≠ ':' := by
      refine ⟨?_, fun h => hcolon (by rw [h])⟩
      rintro rfl
      revert hwell
      simp [WellFormed]
    exact staysWhole_asciiBytes hencodable (by simpa using hmarks.1.symm)
      (by simpa using hmarks.2.symm)

theorem filter_bytes {k : TokenKind} (hencodable : k.Encodable) :
    k.bytes.filter (128 ≤ ·) = k.code?.toList := by
  have hascii {t : Text} (ht : IsAscii t) : (asciiBytes t).filter (128 ≤ ·) = [] := by
    refine List.filter_eq_nil_iff.2 fun b hb => ?_
    simpa using lt_of_mem_asciiBytes ht b hb
  cases k with
  | lineEnd => rfl
  | number | identifier | punct => exact hascii hencodable
  | keyword k => cases k <;> decide
  | quoted text => simp [bytes, code?, hascii hencodable, quoteByte]
  | directive name => exact hencodable.elim
  | comment text =>
    have hrem : 128 ≤ Keyword.rem.code := by decide
    have hblank : (if text.isEmpty then [] else [spaceByte]).filter (128 ≤ ·) = [] := by
      split <;> decide
    simp only [bytes, code?, List.cons_append, List.filter_cons, hrem, decide_true, if_true,
      List.filter_append, hblank, hascii hencodable, List.append_nil, Option.toList_some]

end TokenKind

namespace Statement

variable {s : Statement} {t : Token} {rest : List Token} {r : Text}

theorem Proper.ne_comment (h : Proper (t :: rest) r) (hr : rest = [] → r.head? ≠ some '\n') :
    ∀ text, t.kind ≠ .comment text := by
  cases rest with
  | nil => exact fun text htext => hr rfl (h.comment text htext)
  | cons t' rest => exact h.comment.1

theorem Proper.of_cons (h : Proper (t :: rest) r) : Proper rest r := by
  cases rest with
  | nil => exact ⟨by simp, trivial, h.closes⟩
  | cons t' rest => exact h.tail

/-- A statement that another one follows has no comment, so all of it stays whole. -/
theorem Proper.staysWhole_bytesOf (h : s.Proper r) (hr : r.head? ≠ some '\n')
    (hencodable : ∀ t ∈ s, t.kind.Encodable) : StaysWhole (bytesOf s) := by
  induction s with
  | nil => exact staysWhole_nil
  | cons t rest ih =>
    have ht := h.token t List.mem_cons_self
    rw [List.forall_mem_cons] at hencodable
    have hbytes : StaysWhole t.kind.bytes :=
      TokenKind.staysWhole_bytes ht.wellFormed hencodable.1 ht.ne_colon (h.ne_comment fun _ => hr)
    rw [bytesOf_cons]
    exact hbytes.append (ih h.of_cons hencodable.2)

/-- A statement alone is one piece: what its comment takes in ends the line. -/
theorem Proper.statementPieces_bytesOf (h : s.Proper r) (hencodable : ∀ t ∈ s, t.kind.Encodable) :
    statementPieces false (bytesOf s) = [bytesOf s] := by
  induction s with
  | nil => rfl
  | cons t rest ih =>
    have ht := h.token t List.mem_cons_self
    rw [List.forall_mem_cons] at hencodable
    rw [bytesOf_cons]
    by_cases hcomment : ∃ text, t.kind = .comment text
    · obtain ⟨text, htext⟩ := hcomment
      rw [htext]
      exact statementPieces_comment _
    · have hbytes : StaysWhole t.kind.bytes :=
        TokenKind.staysWhole_bytes ht.wellFormed hencodable.1 ht.ne_colon (not_exists.1 hcomment)
      rw [hbytes, ih h.of_cons hencodable.2, List.modifyHead_cons]

end Statement

/-- The pieces of a body are the encodings of the statements of its line. -/
theorem ProperStatements.forall₂_statementPieces {ss : List Statement} {body : List UInt8}
    (h : ProperStatements ss) (hbody : IsBody ss body) (hne : ss ≠ []) :
    List.Forall₂ (fun s piece => statementBytes s = .ok piece) ss (statementPieces false body) := by
  induction ss generalizing body with
  | nil => exact absurd rfl hne
  | cons s rest ih =>
    have hproper : s.Proper (Listing.after .upper rest []) := h.head
    cases rest with
    | nil =>
      have hs := isBody_singleton.1 hbody
      obtain ⟨hencodable, rfl⟩ := statementBytes_eq_ok_iff.1 hs
      rw [hproper.statementPieces_bytesOf hencodable]
      exact .cons hs .nil
    | cons s' rest =>
      obtain ⟨piece, more, hs, hmore, rfl⟩ := isBody_cons_cons.1 hbody
      obtain ⟨hencodable, rfl⟩ := statementBytes_eq_ok_iff.1 hs
      -- a comment of the statement would need the line to end where a listing goes on with a colon
      have hcolon : (Listing.after .upper (s' :: rest) []).head? ≠ some '\n' := by
        rw [Listing.after_cons, List.head?_cons]
        decide
      rw [(hproper.staysWhole_bytesOf hcolon hencodable).pieces_colon]
      exact .cons hs (ih h.tail hmore (List.cons_ne_nil _ _))

namespace Line

variable {l : Line} {body : List UInt8}

theorem filterMap_kinds {α : Type} {f : TokenKind → Option α} (hcolon : f .colon = none) :
    l.kinds.filterMap f = l.tokens.filterMap (f ·.kind) := by
  obtain ⟨number, statements, owner⟩ := l
  simp only [kinds, tokens]
  induction statements with
  | nil => rfl
  | cons s rest ih =>
    cases rest with
    | nil => simp [List.intercalate, List.filterMap_map]
    | cons s' rest =>
      rw [List.map_cons] at ih
      rw [List.map_cons, List.map_cons, List.intercalate_cons_cons, List.filterMap_append,
        List.filterMap_append, ih, List.flatten_cons, List.filterMap_append]
      simp [hcolon, List.filterMap_map]

/-- Colons are ASCII, so the bytes beyond it come from the tokens of the line. -/
theorem filter_body (hbody : IsBody l.statements body) :
    body.filter (128 ≤ ·) = l.tokens.filterMap (·.kind.code?) := by
  obtain ⟨hencodable, rfl⟩ := isBody_iff.1 hbody
  have hkinds : ∀ k ∈ l.kinds, k.bytes.filter (128 ≤ ·) = k.code?.toList := by
    intro k hk
    by_cases hcolon : k = .colon
    · rw [hcolon]
      decide
    · obtain ⟨t, ht, rfl⟩ := (mem_kinds_iff hcolon).1 hk
      obtain ⟨s, hs, ht⟩ := List.mem_flatten.1 ht
      exact TokenKind.filter_bytes (hencodable s hs t ht)
  rw [Line.bytes, List.filter_flatMap, List.flatMap_congr hkinds,
    ← List.filterMap_eq_flatMap_toList, filterMap_kinds rfl]

end Line

namespace Tokenizer

variable {t : Tokenizer} {source : Text} {address : UInt16} {bytes : List UInt8}

/-- The image of a source, walked along its links, has the body of every line. -/
theorem exists_walk (h : (t.tokenizeText source address).1 = .ok bytes) :
    ∃ p stops last, Program.parse 0 source = .ok p ∧
      (⟨address.toNat, bytes⟩ : LoadedBytes).walk address.toNat = some (stops, last) ∧
      List.Forall₂ (fun stop l => stop.number = l.number.toNat ∧ l.WellFormed ∧
        IsBody l.statements stop.body) stops p.lines := by
  unfold tokenizeText at h
  split at h
  · next p hparse =>
    rw [(t.tokenize_eq p address).1] at h
    obtain ⟨records, hlaid, rfl⟩ := Layout.image_start_eq_ok_iff.1 h
    let m : LoadedBytes := ⟨address.toNat, records.flatMap Record.bytes ++ [0, 0]⟩
    obtain ⟨last, hwalk, -, -⟩ := LoadedBytes.walk_laidOut (m := m) hlaid [] rfl rfl
    have hlines := hlaid.forall₂
    refine ⟨p, _, last, hparse, hwalk, List.forall₂_map_left_iff.2 ?_⟩
    refine List.forall₂_iff_zip.2 ⟨hlines.length_eq, fun {r l} hmem => ?_⟩
    obtain ⟨hnumber, hbody⟩ := List.forall₂_zip hlines hmem
    exact ⟨congrArg UInt16.toNat hnumber,
      (Program.parse_wellFormed hparse (List.of_mem_zip hmem).2).1, hbody⟩
  · cases h

/-- In the image of a source the body of a line, cut at its colons outside strings and comments, gives
the encoding of each statement. Its bytes beyond ASCII are the codes of its keywords and of its
comments. -/
theorem statementPieces_tokenizeText (h : (t.tokenizeText source address).1 = .ok bytes) :
    ∃ p stops last, Program.parse 0 source = .ok p ∧
      (⟨address.toNat, bytes⟩ : LoadedBytes).walk address.toNat = some (stops, last) ∧
      List.Forall₂ (fun stop l => stop.number = l.number.toNat ∧
        (l.statements ≠ [] → List.Forall₂ (fun s piece => statementBytes s = .ok piece)
          l.statements (statementPieces false stop.body)) ∧
        stop.body.filter (128 ≤ ·) = l.tokens.filterMap (·.kind.code?)) stops p.lines := by
  obtain ⟨p, stops, last, hparse, hwalk, hlines⟩ := exists_walk h
  refine ⟨p, stops, last, hparse, hwalk, hlines.imp fun stop l ⟨hnumber, hwell, hbody⟩ => ?_⟩
  have hproper : l.Proper :=
    hwell.proper fun s hs t ht => ((isBody_iff.1 hbody).1 s hs t ht).isPlain
  exact ⟨hnumber, hproper.statements.forall₂_statementPieces hbody, l.filter_body hbody⟩

/-- Colons in a string, in a keyword and in a comment are no ends, and a statement may be empty. -/
theorem statementPieces_tokenizeText_colons :
    let source := "10 PRINT \"A:B\":HIMEM:9::REM X:\"Y\n20".toList
    let body : List UInt8 := [0xBA, 0x22, 0x41, 0x3A, 0x42, 0x22, 0x3A, 0xA3, 0x39, 0x3A, 0x3A,
      0xB2, 0x20, 0x58, 0x3A, 0x22, 0x59]
    let bytes : List UInt8 := [0x17, 8, 10, 0] ++ body ++ [0, 0x1C, 8, 20, 0, 0, 0, 0]
    (new.tokenizeText source 2049).1 = .ok bytes ∧
      statementPieces false body = [[0xBA, 0x22, 0x41, 0x3A, 0x42, 0x22], [0xA3, 0x39], [],
        [0xB2, 0x20, 0x58, 0x3A, 0x22, 0x59]] ∧
      ∃ p stops last, Program.parse 0 source = .ok p ∧
        (⟨2049, bytes⟩ : LoadedBytes).walk 2049 = some (stops, last) ∧
        List.Forall₂ (fun stop l => stop.number = l.number.toNat ∧
          (l.statements ≠ [] → List.Forall₂ (fun s piece => statementBytes s = .ok piece)
            l.statements (statementPieces false stop.body)) ∧
          stop.body.filter (128 ≤ ·) = l.tokens.filterMap (·.kind.code?)) stops p.lines := by
  intro source body bytes
  have h : (new.tokenizeText source 2049).1 = .ok bytes := by decide +kernel
  exact ⟨h, by decide, statementPieces_tokenizeText h⟩

end Tokenizer

end Applesoft
