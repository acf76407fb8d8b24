import Applesoft.Proofs.FirstFault
import Applesoft.Proofs.LetterCase
import Applesoft.Proofs.TokenizerRuns

/-!
# Source beyond ASCII

No character of a text that is read gets lost: it is a plain character or it is in the text that some
token carries. So a source that is tokenized has no characters beyond ASCII except the plain letters,
which are ASCII in upper case and pass in names and keywords.
-/
namespace Applesoft

open MemoryImage

theorem isPlain_iff {c : Char} : IsPlain c ↔ c.toNat < 128 ∨ c ∈ plainLetters := by
  have hcapitals : ∀ u ∈ Unicode.capitals, u.toNat < 128 := by decide
  refine ⟨IsPlain.ascii_or_mem, ?_⟩
  rintro (h | h)
  · exact isPlain_of_ascii h
  · exact fun u hu => hcapitals u ((Unicode.case_plainLetters c h).2.2.2 u hu)

theorem isPlain_of_isDigit {c : Char} (h : c.isDigit = true) : IsPlain c := by
  rw [isDigit_iff_toNat] at h
  exact isPlain_of_ascii (by omega)

theorem IsBlank.isPlain {c : Char} (h : IsBlank c) : IsPlain c := by
  have hle : c.toNat ≤ ' '.toNat := h.1
  exact isPlain_of_ascii (Nat.lt_of_le_of_lt hle (by decide))

theorem Keyword.isPlain_of_ofWord? {w : Text} {k : Keyword} (h : ofWord? w = some k) :
    ∀ c ∈ w, IsPlain c := by
  rw [← isAscii_toUpper_iff, ofWord?_eq_some_iff.1 h]
  exact fun c hc => (k.spelled.ascii c hc).1

namespace CharClass

theorem isPlain_of_mem_punctuationMarks : ∀ c ∈ punctuationMarks, IsPlain c := by decide

theorem eq_backslash_of_ofChar {c : Char} (h : ofChar c = .escape) : c = '\\' := by
  simp only [ofChar] at h
  repeat' split at h
  all_goals simp_all

end CharClass

namespace Lexeme

variable {s r : Text} {x : Lexeme}

theorem Spelling.isPlain_or_mem {piece : Text} (h : x.Spelling piece r) :
    ∀ c ∈ piece, IsPlain c ∨ c ∈ x.payload := by
  have hpoint : IsPlain '.' := by decide
  have hquote : IsPlain '"' := by decide
  intro c hc
  cases h with
  | lineFeed | carriageReturn | returnLineFeed =>
    left
    revert c
    decide
  | whole _ hw => exact .inl (isPlain_of_isDigit (hw c hc))
  | point hw hfraction =>
    left
    rcases List.mem_append.1 hc with hc | hc
    · exact isPlain_of_isDigit (hw c hc)
    · rcases List.mem_cons.1 hc with rfl | hc
      · exact hpoint
      · exact isPlain_of_isDigit (hfraction c hc)
  | question | word | mark => exact .inr hc
  | quoted =>
    rw [List.mem_cons, List.mem_append, List.mem_singleton] at hc
    rcases hc with rfl | hc | rfl
    · exact .inl hquote
    · exact .inr hc
    · exact .inl hquote
  | unclosed =>
    rcases List.mem_cons.1 hc with rfl | hc
    · exact .inl hquote
    · exact .inr hc

theorem isPlain_or_mem_of_cut (h : cut s = some (x, r)) :
    ∀ c ∈ s, IsPlain c ∨ c ∈ x.payload ∨ c ∈ r := by
  obtain ⟨blanks, piece, rfl, hblanks, hspelling⟩ := cut_spelling h
  intro c hc
  rw [List.mem_append, List.mem_append] at hc
  rcases hc with hc | hc | hc
  · exact .inl (hblanks c hc).isPlain
  · exact (hspelling.isPlain_or_mem c hc).imp_right .inl
  · exact .inr (.inr hc)

end Lexeme

def Reading.Keeps (s : Text) : Reading → Prop
  | .token t r _ => ∀ c ∈ s, IsPlain c ∨ c ∈ t.kind.payload ∨ c ∈ r
  | .done _ => ∀ c ∈ s, IsPlain c
  | .fault .. => True

theorem Reading.Keeps.mono {s s' : Text} {x : Reading} (h : x.Keeps s')
    (hs : ∀ c ∈ s, IsPlain c ∨ c ∈ s') : x.Keeps s := by
  cases x with
  | token => exact fun c hc => (hs c hc).elim .inl (h c)
  | done => exact fun c hc => (hs c hc).elim id (h c)
  | fault => trivial

namespace Lexing

variable {line : Nat} {word rest : Text}

theorem isPlain_or_mem_trimReturn (text : Text) :
    ∀ c ∈ text, IsPlain c ∨ c ∈ trimReturn text := by
  have hreturn : IsPlain '\r' := by decide
  intro c hc
  unfold trimReturn
  split
  · next hlast =>
    rw [← List.dropLast_append_getLast? _ hlast, List.mem_append, List.mem_singleton] at hc
    rcases hc with hc | rfl
    · exact .inr hc
    · exact .inl hreturn
  · exact .inr hc

theorem commentBody_keeps (s : Text) :
    ∀ c ∈ s, IsPlain c ∨ c ∈ (commentBody s).1 ∨ c ∈ (commentBody s).2 := by
  have hspace : IsPlain ' ' := by decide
  obtain ⟨space, body, hblank, rfl, hbody⟩ := exists_commentBody s
  rw [hbody]
  intro c hc
  rcases List.mem_append.1 hc with hc | hc
  · rcases hblank with rfl | rfl
    · cases hc
    · exact .inl (List.mem_singleton.1 hc ▸ hspace)
  · rw [← List.takeWhile_append_dropWhile (p := (· != '\n')) (l := body), List.mem_append] at hc
    rcases hc with hc | hc
    · exact (isPlain_or_mem_trimReturn _ c hc).imp_right .inl
    · exact .inr (.inr hc)

theorem readKeyword_keeps (k : Keyword) : (readKeyword line k rest).Keeps rest := by
  unfold readKeyword
  split
  · exact fun c hc => .inr (.inr hc)
  · next mark hmark =>
    split
    · trivial
    · next x r hcut =>
      split
      · next hx =>
        intro c hc
        rcases Lexeme.isPlain_or_mem_of_cut hcut c hc with hc | hc | hc
        · exact .inl hc
        · rw [hx] at hc
          obtain rfl := List.mem_singleton.1 hc
          exact .inl (CharClass.isPlain_of_mem_punctuationMarks _ (k.spelled.mark _ hmark).2)
        · exact .inr (.inr hc)
      · trivial

theorem readIdentifier_keeps (word : Text) :
    (readIdentifier line word rest).Keeps (word ++ rest) := by
  unfold readIdentifier
  split
  · next r hcut =>
    intro c hc
    rcases List.mem_append.1 hc with hc | hc
    · exact .inr (.inl (List.mem_append_left _ hc))
    · refine (Lexeme.isPlain_or_mem_of_cut hcut c hc).imp_right (.imp_left fun hc => ?_)
      exact List.mem_append_right _ hc
  · exact fun c hc => .inr (List.mem_append.1 hc)

theorem readWord_keeps : (readWord line word rest).Keeps (word ++ rest) := by
  unfold readWord
  split
  · next hrem =>
    intro c hc
    rcases List.mem_append.1 hc with hc | hc
    · exact .inl (Keyword.isPlain_of_ofWord? hrem c hc)
    · exact commentBody_keeps rest c hc
  · next k _ hk =>
    refine (readKeyword_keeps k).mono fun c hc => ?_
    exact (List.mem_append.1 hc).imp_left (Keyword.isPlain_of_ofWord? hk c)
  · split
    · exact fun c hc => .inr (List.mem_append.1 hc)
    · exact readIdentifier_keeps word

theorem readPunctuation_keeps (c : Char) : (readPunctuation line c rest).Keeps (c :: rest) := by
  unfold readPunctuation
  split
  · next k hk =>
    intro d hd
    rcases List.mem_cons.1 hd with rfl | hd
    · exact .inl (Keyword.isPlain_of_ofWord? hk _ List.mem_cons_self)
    · exact .inr (.inr hd)
  · intro d hd
    rcases List.mem_cons.1 hd with rfl | hd
    · exact .inr (.inl List.mem_cons_self)
    · exact .inr (.inr hd)

theorem readToken_keeps (line : Nat) (s : Text) : (readToken line s).Keeps s := by
  fun_induction readToken line s with
  | case1 line s h => exact fun c hc => (Lexeme.cut_eq_none_iff.1 h c hc).isPlain
  | case2 line s r h | case3 line s value r h | case4 line s text r h =>
    exact Lexeme.isPlain_or_mem_of_cut h
  | case5 line s word r h =>
    refine readWord_keeps.mono fun c hc => ?_
    rw [List.mem_append]
    exact Lexeme.isPlain_or_mem_of_cut h c hc
  | case6 line s c r h hc r' h' ih =>
    have hbackslash : IsPlain c := by
      rw [CharClass.eq_backslash_of_ofChar hc]
      decide
    refine ih.mono fun d hd => ?_
    rcases Lexeme.isPlain_or_mem_of_cut h d hd with hd | hd | hd
    · exact .inl hd
    · exact .inl (List.mem_singleton.1 hd ▸ hbackslash)
    · exact (Lexeme.isPlain_or_mem_of_cut h' d hd).imp_right (·.resolve_left List.not_mem_nil)
  | case7 | case8 | case10 => trivial
  | case9 line s c r h hc =>
    refine (readPunctuation_keeps c).mono fun d hd => ?_
    rw [List.mem_cons, ← List.mem_singleton]
    exact Lexeme.isPlain_or_mem_of_cut h d hd

/-- A text that is read to its end keeps all but plain characters in its tokens. -/
theorem lexFrom_keeps (line : Nat) (s : Text) (h : (lexFrom line s).fault = none) :
    ∀ c ∈ s, IsPlain c ∨ ∃ t ∈ (lexFrom line s).tokens, c ∈ t.kind.payload := by
  fun_induction lexFrom line s with
  | case1 line s l hread =>
    have hkeeps := readToken_keeps line s
    rw [hread] at hkeeps
    exact fun c hc => .inl (hkeeps c hc)
  | case2 => cases h
  | case3 line s t r l hread more ih =>
    have hkeeps := readToken_keeps line s
    rw [hread] at hkeeps
    intro c hc
    rcases hkeeps c hc with hc | hc | hc
    · exact .inl hc
    · exact .inr ⟨t, List.mem_cons_self, hc⟩
    · rcases ih h c hc with hc | ⟨t', ht', hc⟩
      · exact .inl hc
      · exact .inr ⟨t', List.mem_cons_of_mem _ ht', hc⟩

end Lexing

/-- A token with a text other than a colon is a token of one of the lines. -/
theorem Program.exists_mem_tokens {id : Nat} {ts : List Token} {lines : List Line}
    (h : linesOf id ts = .ok lines) {t : Token} (ht : t ∈ ts) (hpayload : t.kind.payload ≠ [])
    (hcolon : t.kind ≠ .colon) : ∃ l ∈ lines, ∃ t' ∈ l.tokens, t'.kind = t.kind := by
  fun_induction linesOf id ts generalizing lines with
  | case1 => cases ht
  | case2 t' rest hend ih =>
    rcases List.mem_cons.1 ht with rfl | ht
    · have hkind : t.kind = .lineEnd := by simpa [Token.isLineEnd] using hend
      rw [hkind] at hpayload
      exact absurd rfl hpayload
    · exact ih h ht
  | case3 | case4 => cases h
  | case5 t' rest _ number hnumber more hmore ih =>
    obtain rfl := Except.ok.inj h
    rcases List.mem_cons.1 ht with rfl | ht
    · obtain ⟨value, hvalue, -⟩ := Token.asLineNumber_eq_ok_iff.1 hnumber
      rw [hvalue] at hpayload
      exact absurd rfl hpayload
    · rw [← List.takeWhile_append_dropWhile (p := (!·.isLineEnd)) (l := rest),
        List.mem_append] at ht
      rcases ht with ht | ht
      · have hkinds := List.mem_map_of_mem (f := Token.kind) ht
        rw [← kinds_lineStatements number id, Line.mem_kinds_iff hcolon] at hkinds
        exact ⟨_, List.mem_cons_self, hkinds⟩
      · obtain ⟨l, hl, htokens⟩ := ih hmore ht
        exact ⟨l, List.mem_cons_of_mem _ hl, htokens⟩

namespace TokenKind

theorem isPlain_of_ascii_storedText {k : TokenKind} (hno : ∀ name, k ≠ .directive name)
    (h : IsAscii k.storedText) : ∀ c ∈ k.payload, Applesoft.IsPlain c := by
  cases k with
  | lineEnd | number | keyword => simp [payload]
  | identifier name => exact isAscii_toUpper_iff.1 h
  | quoted | comment | punct => exact fun c hc => Applesoft.isPlain_of_ascii (h c hc)
  | directive name => exact absurd rfl (hno name)

theorem ascii_storedText {k : TokenKind} (hwell : k.WellFormed) (hraw : IsAscii k.rawText)
    (hplain : ∀ c ∈ k.payload, Applesoft.IsPlain c) : IsAscii k.storedText := by
  cases k with
  | lineEnd | keyword | directive => simp [storedText, IsAscii]
  | number value =>
    have hmarks : IsAscii ['.', 'i', 'n', 'f'] := by decide
    intro c hc
    rcases Binary64.mem_listingText hwell.1 hwell.2 c hc with hc | hc
    · rw [isDigit_iff_toNat] at hc
      omega
    · exact hmarks c hc
  | identifier name => exact isAscii_toUpper_iff.2 hplain
  | quoted | comment => exact hraw
  | punct c =>
    have hmarks : ∀ c ∈ ['(', ')', ',', ':', '#', ';'], IsAscii [c] := by decide
    exact hmarks c hwell

theorem ascii_rawText {k : TokenKind} (h : IsAscii k.storedText) : IsAscii k.rawText := by
  cases k with
  | quoted | comment => exact h
  | lineEnd | number | keyword | identifier | directive | punct => simp [rawText, IsAscii]

end TokenKind

theorem Program.isPlain_of_image {source : Text} {p : Program} (h : parse 0 source = .ok p)
    (hstored : ∀ l ∈ p.lines, ∀ t ∈ l.tokens,
      (∀ name, t.kind ≠ .directive name) ∧ IsAscii t.kind.storedText) :
    ∀ c ∈ source, Applesoft.IsPlain c := by
  have hcolon : Applesoft.IsPlain ':' := by decide
  obtain ⟨ts, hlex, hlines, -⟩ := parse_eq_ok_iff.1 h
  have hkeeps := Lexing.lexFrom_keeps 1 source
  rw [hlex] at hkeeps
  intro c hc
  rcases hkeeps rfl c hc with hplain | ⟨t, ht, hpayload⟩
  · exact hplain
  · by_cases hkind : t.kind = .colon
    · rw [hkind] at hpayload
      exact List.mem_singleton.1 hpayload ▸ hcolon
    · obtain ⟨l, hl, t', ht', heq⟩ :=
        exists_mem_tokens hlines ht (List.ne_nil_of_mem hpayload) hkind
      obtain ⟨hno, hascii⟩ := hstored l hl t' ht'
      exact TokenKind.isPlain_of_ascii_storedText hno hascii c (heq ▸ hpayload)

namespace Tokenizer

/-- A source is tokenized exactly if it has nothing beyond ASCII but plain letters, these neither in a
string nor in a comment, and it is a program without directives whose numbers ascend and that fits. -/
theorem tokenizeText_ok_iff (t : Tokenizer) (source : Text) (address : UInt16) :
    (∃ bytes, (t.tokenizeText source address).1 = .ok bytes) ↔
      (∀ c ∈ source, c.toNat < 128 ∨ c ∈ plainLetters) ∧
      ∃ p, Program.parse 0 source = .ok p ∧ p.numbers.Pairwise (· < ·) ∧
        (∀ l ∈ p.lines, ∀ token ∈ l.tokens,
          (∀ name, token.kind ≠ .directive name) ∧ IsAscii token.kind.rawText) ∧
        address.toNat + 2 + (p.lines.map fun l => 5 + l.bytes.length).sum ≤ memorySize := by
  have htrans : IsTrans UInt16 (· < ·) := ⟨fun _ _ _ => UInt16.lt_trans⟩
  simp only [← isPlain_iff]
  unfold tokenizeText
  cases hparse : Program.parse 0 source with
  | error e => simp
  | ok p =>
    have himage : (∃ bytes, (t.tokenize p address).1 = .ok bytes) ↔
        p.numbers.Pairwise (· < ·) ∧
        (∀ l ∈ p.lines, ∀ token ∈ l.tokens,
          (∀ name, token.kind ≠ .directive name) ∧ IsAscii token.kind.storedText) ∧
        address.toNat + 2 + (p.lines.map fun l => 5 + l.bytes.length).sum ≤ memorySize := by
      rw [(t.tokenize_eq p address).1, ← faultKind?_eq_none_iff, Program.faultKind?_image,
        List.head?_eq_none_iff, Program.faults, faultsFrom_eq_nil_iff, Option.toList_none,
        List.nil_append, List.isChain_iff_pairwise]
      rfl
    dsimp only
    rw [himage]
    constructor
    · rintro ⟨hnumbers, hstored, hfits⟩
      refine ⟨Program.isPlain_of_image hparse hstored, p, rfl, hnumbers, fun l hl token ht => ?_, hfits⟩
      obtain ⟨hno, hascii⟩ := hstored l hl token ht
      exact ⟨hno, TokenKind.ascii_rawText hascii⟩
    · rintro ⟨hplain, _, ⟨⟩, hnumbers, hraw, hfits⟩
      refine ⟨hnumbers, fun l hl token ht => ?_, hfits⟩
      obtain ⟨hno, hascii⟩ := hraw l hl token ht
      obtain ⟨s, hs, ht⟩ := List.mem_flatten.1 ht
      obtain ⟨hwell, hsource⟩ := Program.parse_wellFormed hparse hl
      refine ⟨hno, TokenKind.ascii_storedText (hwell.token s hs token ht).1 hascii fun c hc => ?_⟩
      exact hplain c (hsource s hs token ht hc)

/-- The long `ſ` passes as the letter of a keyword. -/
theorem tokenizeText_long_s :
    let source := "10 ſAVE".toList
    'ſ' ∈ source ∧ 128 ≤ 'ſ'.toNat ∧
      (new.tokenizeText source 2049).1 = .ok [0x07, 8, 10, 0, 0xB7, 0, 0, 0] := by
  decide +kernel

end Tokenizer

end Applesoft
