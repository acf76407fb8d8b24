import Applesoft.Proofs.ImageWalk
import Applesoft.Proofs.LetterCase
import Applesoft.Proofs.TokenBytes
import Applesoft.Proofs.TokenizerRuns

/-!
# Where a scan of a record ends

A reader that does not follow links looks for the zero after the statements of a line. It finds the
end of the record unless the zero character stands in a string or a comment, whose text is stored as it
is; no other token has a zero among its bytes.
-/
namespace Applesoft

open MemoryImage

theorem ofNat_mem_asciiBytes {t : Text} (h : IsAscii t) {c : Char} (hc : c.toNat < 128) :
    UInt8.ofNat c.toNat ∈ asciiBytes t ↔ c ∈ t := by
  rw [asciiBytes, List.mem_map]
  constructor
  · rintro ⟨d, hd, hbyte⟩
    have hlt : d.toNat < 2 ^ 8 := Nat.lt_trans (h d hd) (by decide)
    have hcode : d.toNat = c.toNat := by
      rw [← UInt8.toNat_ofNat_of_lt' hlt, hbyte]
      exact UInt8.toNat_ofNat_of_lt' (Nat.lt_trans hc (by decide))
    rwa [← Char.ofNat_toNat c, ← hcode, Char.ofNat_toNat]
  · intro hmem
    exact ⟨c, hmem, rfl⟩

theorem zero_mem_asciiBytes {t : Text} (h : IsAscii t) : 0 ∈ asciiBytes t ↔ '\x00' ∈ t := by
  have hzero : '\x00'.toNat < 128 := by decide
  exact ofNat_mem_asciiBytes h hzero

theorem Keyword.code_ne_zero (k : Keyword) : k.code ≠ 0 := by
  cases k <;> decide

namespace TokenKind

theorem WellFormed.inWord_or_paren {name : Text} (h : (identifier name).WellFormed) :
    ∀ c ∈ name, inWord c = true ∨ c = '(' := by
  rcases h with hname | ⟨w, hname, rfl⟩
  · exact fun c hc => .inl (hname.inWord c hc)
  · rw [List.forall_mem_append, List.forall_mem_singleton]
    exact ⟨fun c hc => .inl (hname.inWord c hc), .inr rfl⟩

/-- Words stay words in upper case. -/
theorem not_mem_toUpper {name : Text} (hwell : (identifier name).WellFormed)
    (hascii : IsAscii name.toUpper) {c : Char} (hword : inWord c = false) (hparen : c ≠ '(') :
    c ∉ name.toUpper := by
  have hupperParen : Unicode.upperCase '(' = ['('] := by decide
  intro hmem
  obtain ⟨d, hd, hupper⟩ := List.mem_flatMap.1 hmem
  have hplain := isAscii_toUpper_iff.1 hascii d hd
  rcases hwell.inWord_or_paren d hd with hinWord | rfl
  · have hcWord := LetterCase.upper.inWord_ofChar hplain hinWord c hupper
    rw [hword] at hcWord
    cases hcWord
  · rw [hupperParen, List.mem_singleton] at hupper
    exact hparen hupper

theorem zero_mem_bytes_iff {k : TokenKind} (hwell : k.WellFormed) (hencodable : k.Encodable) :
    0 ∈ k.bytes ↔ '\x00' ∈ k.rawText := by
  cases k with
  | lineEnd => simp [bytes, rawText]
  | number value =>
    have hzero : '\x00' ∉ value.listingText := fun hmem => by
      have hlisted := Binary64.mem_listingText hwell.1 hwell.2 _ hmem
      revert hlisted
      decide
    simp [bytes, rawText, zero_mem_asciiBytes hencodable, hzero]
  | keyword k => simp [bytes, rawText, k.code_ne_zero.symm]
  | identifier name =>
    have hzero : '\x00' ∉ name.toUpper := not_mem_toUpper hwell hencodable (by decide) (by decide)
    simp [bytes, rawText, zero_mem_asciiBytes hencodable, hzero]
  | quoted text =>
    have hquote : (0 : UInt8) ≠ quoteByte := by decide
    simp [bytes, rawText, hquote, zero_mem_asciiBytes hencodable]
  | directive name => exact hencodable.elim
  | comment text =>
    have hspace : (0 : UInt8) ∉ (if text.isEmpty then [] else [spaceByte]) := by
      split <;> decide
    simp only [bytes, rawText, List.cons_append, List.mem_cons, Keyword.rem.code_ne_zero.symm,
      false_or, List.mem_append, hspace, zero_mem_asciiBytes hencodable]
  | punct c =>
    have hzero : '\x00' ≠ c := by
      rintro rfl
      revert hwell
      simp [WellFormed]
    simp [bytes, rawText, zero_mem_asciiBytes hencodable, hzero]

end TokenKind

/-- The body of a line has a zero where the raw text of one of its tokens has the zero character. -/
theorem Line.zero_mem_iff {l : Line} {body : List UInt8} (hwell : l.WellFormed)
    (hbody : IsBody l.statements body) :
    0 ∈ body ↔ ∃ t ∈ l.tokens, '\x00' ∈ t.kind.rawText := by
  obtain ⟨hencodable, rfl⟩ := isBody_iff.1 hbody
  rw [mem_bytes_iff (by decide)]
  refine exists_congr fun t => and_congr_right fun ht => ?_
  obtain ⟨s, hs, ht⟩ := List.mem_flatten.1 ht
  exact TokenKind.zero_mem_bytes_iff (hwell.token s hs t ht).1 (hencodable s hs t ht)

namespace LoadedBytes

variable {m : LoadedBytes} {first bound address link : Nat} {body : List UInt8}

def firstZero? (m : LoadedBytes) (address : Nat) : Option Nat :=
  ((m.bytes.drop (address - m.base)).findIdx? (· == 0)).map (address + ·)

theorem drop_of_span (hspan : m.span? first bound = some body) (hzero : m.byte? bound = some 0) :
    first + body.length = bound ∧ ∃ after, m.bytes.drop (first - m.base) = body ++ 0 :: after := by
  unfold span? at hspan
  split at hspan
  · next h =>
    obtain ⟨hbase, hbound, htop⟩ := h
    obtain rfl := Option.some.inj hspan
    have hbyte : (m.bytes.drop (first - m.base))[bound - first]? = some 0 := by
      rw [byte?, if_pos (by omega)] at hzero
      rw [List.getElem?_drop, ← hzero]
      congr 1
      omega
    obtain ⟨hlt, hget⟩ := List.getElem?_eq_some_iff.1 hbyte
    refine ⟨by rw [List.length_take]; omega,
      (m.bytes.drop (first - m.base)).drop (bound - first + 1), ?_⟩
    rw [← hget, List.getElem_cons_drop hlt, List.take_append_drop]
  · cases hspan

/-- A scan of bytes that a zero follows ends at that zero exactly if there is none among them. -/
theorem firstZero?_of_span (hspan : m.span? first bound = some body)
    (hzero : m.byte? bound = some 0) :
    ∃ z, m.firstZero? first = some z ∧ z ≤ bound ∧ (z = bound ↔ 0 ∉ body) := by
  obtain ⟨hbound, after, hdrop⟩ := drop_of_span hspan hzero
  rw [firstZero?, hdrop, List.findIdx?_append]
  cases hfind : body.findIdx? (· == 0) with
  | none =>
    have hno : 0 ∉ body := fun hmem => by
      simpa using List.findIdx?_eq_none_iff.1 hfind 0 hmem
    exact ⟨bound, by simp [List.findIdx?_cons, hbound], Nat.le_refl _, by simp [hno]⟩
  | some i =>
    obtain ⟨hlt, hget, -⟩ := List.findIdx?_eq_some_iff_getElem.1 hfind
    have hmem : 0 ∈ body := by
      rw [beq_iff_eq] at hget
      exact hget ▸ List.getElem_mem hlt
    refine ⟨first + i, rfl, by omega, ?_⟩
    simp only [hmem, not_true_eq_false, iff_false]
    omega

theorem firstZero?_of_stop {stop : Stop} (h : m.stop? address link = some stop) :
    ∃ z, m.firstZero? (stop.address + 4) = some z ∧ z ≤ stop.link - 1 ∧
      (z = stop.link - 1 ↔ 0 ∉ stop.body) := by
  unfold stop? at h
  split at h
  · next number body terminator _ hspan hbyte =>
    split at h
    · next hzero =>
      obtain rfl := Option.some.inj h
      exact firstZero?_of_span hspan (hzero ▸ hbyte)
    · cases h
  · cases h

/-- What a walk meets are stops. -/
theorem stop?_of_mem_walk {stops : List Stop} {last : Nat}
    (h : m.walk address = some (stops, last)) :
    ∀ stop ∈ stops, ∃ a link, m.stop? a link = some stop := by
  fun_induction walk m address generalizing stops last with
  | case1 | case3 | case5 => cases h
  | case2 => obtain ⟨rfl, -⟩ := Prod.mk.inj (Option.some.inj h); simp
  | case4 address link _ _ _ stop hstop ih =>
    obtain ⟨⟨more, last'⟩, hmore, heq⟩ := Option.map_eq_some_iff.1 h
    obtain ⟨rfl, -⟩ := Prod.mk.inj heq
    exact List.forall_mem_cons.2 ⟨⟨_, _, hstop⟩, ih hmore⟩

end LoadedBytes

namespace Tokenizer

/-- In the image of a source the first zero from the statements of a record on is the end of the record
or lies before it. It is the end exactly if no string and no comment of the line has the zero
character. -/
theorem firstZero?_tokenizeText {t : Tokenizer} {source : Text} {address : UInt16}
    {bytes : List UInt8} (h : (t.tokenizeText source address).1 = .ok bytes) :
    let m : LoadedBytes := ⟨address.toNat, bytes⟩
    ∃ p stops last, Program.parse 0 source = .ok p ∧
      m.walk address.toNat = some (stops, last) ∧
      List.Forall₂ (fun stop l =>
        (∃ z, m.firstZero? (stop.address + 4) = some z ∧ z ≤ stop.link - 1 ∧
          (z = stop.link - 1 ↔ 0 ∉ stop.body)) ∧
        stop.number = l.number.toNat ∧
        (0 ∈ stop.body ↔ ∃ token ∈ l.tokens, '\x00' ∈ token.kind.rawText)) stops p.lines := by
  intro m
  unfold tokenizeText at h
  split at h
  · next p hparse =>
    rw [(t.tokenize_eq p address).1] at h
    obtain ⟨records, hlaid, rfl⟩ := Layout.image_start_eq_ok_iff.1 h
    obtain ⟨last, hwalk, -, -⟩ := LoadedBytes.walk_laidOut (m := m) hlaid [] rfl rfl
    refine ⟨p, _, last, hparse, hwalk, (List.forall₂_and_left _ _).2 ⟨fun stop hstop => ?_, ?_⟩⟩
    · obtain ⟨_, _, hstop⟩ := LoadedBytes.stop?_of_mem_walk hwalk stop hstop
      exact LoadedBytes.firstZero?_of_stop hstop
    · have hlines := hlaid.forall₂
      rw [List.forall₂_map_left_iff, List.forall₂_iff_zip]
      refine ⟨hlines.length_eq, fun {r l} hmem => ?_⟩
      obtain ⟨hnumber, hbody⟩ := List.forall₂_zip hlines hmem
      have hwell := (Program.parse_wellFormed hparse (List.of_mem_zip hmem).2).1
      exact ⟨congrArg UInt16.toNat hnumber, Line.zero_mem_iff hwell hbody⟩
  · cases h

/-- A plain line and one with the zero character between quotes. -/
theorem firstZero?_tokenizeText_quoted :
    let source := "10 HOME\n20 PRINT \"\x00\"".toList
    let bytes : List UInt8 := [0x07, 8, 10, 0, 0x97, 0,
      0x10, 8, 20, 0, 0xBA, 0x22, 0, 0x22, 0, 0, 0]
    let m : LoadedBytes := ⟨2049, bytes⟩
    (new.tokenizeText source 2049).1 = .ok bytes ∧
      ∃ p stops last, Program.parse 0 source = .ok p ∧ m.walk 2049 = some (stops, last) ∧
        List.Forall₂ (fun stop l =>
          (∃ z, m.firstZero? (stop.address + 4) = some z ∧ z ≤ stop.link - 1 ∧
            (z = stop.link - 1 ↔ 0 ∉ stop.body)) ∧
          stop.number = l.number.toNat ∧
          (0 ∈ stop.body ↔ ∃ token ∈ l.tokens, '\x00' ∈ token.kind.rawText)) stops p.lines := by
  intro source bytes m
  have h : (new.tokenizeText source 2049).1 = .ok bytes := by decide +kernel
  exact ⟨h, firstZero?_tokenizeText h⟩

/-- A comment of the zero character: its byte comes before the end of the record. -/
theorem firstZero?_within_comment :
    let bytes : List UInt8 := [0x09, 8, 10, 0, 0xB2, 0x20, 0, 0, 0, 0]
    let m : LoadedBytes := ⟨2049, bytes⟩
    let stop : LoadedBytes.Stop := ⟨2049, 2057, 10, [0xB2, 0x20, 0]⟩
    (new.tokenizeText "10 REM \x00".toList 2049).1 = .ok bytes ∧
      m.walk 2049 = some ([stop], 2057) ∧ 0 ∈ stop.body ∧
      m.firstZero? (stop.address + 4) = some 2055 ∧ 2055 ≠ stop.link - 1 := by
  decide +kernel

end Tokenizer

end Applesoft
