import Applesoft.Proofs.LikeTexts
import Applesoft.Proofs.MappedTokens
import Applesoft.Proofs.PairedLineEnds

/-!
# Letters of either case

Texts that differ in the case of ASCII letters only are read to tokens that differ in nothing else
either, or are refused alike. Strings and comments aside, they have the same memory image.
-/
namespace Applesoft

def capitals (t : Text) : Text := t.map Char.toUpper

/-- What is the same for the small letters and their capitals is so for all characters. -/
theorem apply_toUpper {α : Type} (f : Char → α)
    (h : ∀ n < 26, f (Char.ofNat (97 + n)).toUpper = f (Char.ofNat (97 + n))) (c : Char) :
    f c.toUpper = f c := by
  by_cases hlower : c.isLower = true
  · obtain ⟨hle, hlt⟩ := isLower_iff_toNat.1 hlower
    have hself := h (c.toNat - 97) (by omega)
    rwa [Nat.add_sub_cancel' hle, Char.ofNat_toNat] at hself
  · rw [toUpper_of_not_isLower (by simpa using hlower)]

theorem ofChar_toUpper (c : Char) : CharClass.ofChar c.toUpper = CharClass.ofChar c :=
  apply_toUpper CharClass.ofChar (by decide) c

theorem isDigit_toUpper (c : Char) : c.toUpper.isDigit = c.isDigit :=
  apply_toUpper Char.isDigit (by decide) c

theorem inWord_toUpper (c : Char) : inWord c.toUpper = inWord c :=
  apply_toUpper inWord (by decide) c

theorem inQuotes_toUpper (c : Char) : Lexeme.inQuotes c.toUpper = Lexeme.inQuotes c :=
  apply_toUpper Lexeme.inQuotes (by decide) c

theorem toUpper_of_not_isAlpha {c : Char} (h : c.isAlpha = false) : c.toUpper = c := by
  refine toUpper_of_not_isLower ?_
  rw [Bool.eq_false_iff, Ne, isLower_iff_toNat]
  rw [Bool.eq_false_iff, Ne, isAlpha_iff_toNat] at h
  omega

/-- Letters can start a word, so other characters have no upper case. -/
theorem toUpper_of_ne_word {c : Char} (h : CharClass.ofChar c ≠ .word) : c.toUpper = c := by
  refine toUpper_of_not_isAlpha ?_
  by_contra halpha
  rw [Bool.not_eq_false] at halpha
  have hnum : c.isAlphanum = true := by rw [Char.isAlphanum, halpha, Bool.true_or]
  rw [ofChar_of_isAlphanum hnum, not_isDigit_of_isAlpha halpha] at h
  exact h rfl

theorem toUpper_eq_iff {c d : Char} (hd : d.isAlpha = false) : c.toUpper = d ↔ c = d := by
  have halpha := apply_toUpper Char.isAlpha (by decide) c
  constructor
  · rintro rfl
    rw [halpha] at hd
    exact (toUpper_of_not_isAlpha hd).symm
  · rintro rfl
    exact toUpper_of_not_isAlpha hd

section Capitals

variable {p : Char → Bool} {c : Char} {s t : Text}

theorem takeWhile_capitals (hp : ∀ c, p c.toUpper = p c) (s : Text) :
    (capitals s).takeWhile p = capitals (s.takeWhile p) := by
  rw [capitals, List.takeWhile_map, show p ∘ Char.toUpper = p from funext hp]
  rfl

theorem dropWhile_capitals (hp : ∀ c, p c.toUpper = p c) (s : Text) :
    (capitals s).dropWhile p = capitals (s.dropWhile p) := by
  rw [capitals, List.dropWhile_map, show p ∘ Char.toUpper = p from funext hp]
  rfl

theorem capitals_append (s t : Text) : capitals (s ++ t) = capitals s ++ capitals t :=
  List.map_append

theorem capitals_cons (c : Char) (s : Text) : capitals (c :: s) = c.toUpper :: capitals s := rfl

/-- A character that is no letter stays where it is. -/
theorem exists_of_capitals_cons (hc : c.isAlpha = false) (h : capitals s = c :: t) :
    ∃ r, s = c :: r := by
  obtain ⟨d, r, rfl, hd, -⟩ := List.map_eq_cons_iff.1 h
  exact ⟨r, congrArg (· :: r) ((toUpper_eq_iff hc).1 hd)⟩

theorem head?_capitals (hc : c.isAlpha = false) :
    (capitals s).head? = some c ↔ s.head? = some c := by
  cases s with
  | nil => rfl
  | cons d s => simpa [capitals] using toUpper_eq_iff hc

theorem capitals_of_digits (h : ∀ c ∈ s, c.isDigit = true) : capitals s = s := by
  have hself : ∀ c ∈ s, c.toUpper = c := fun c hc => toUpper_of_ne_word (by
    rw [ofChar_of_isDigit (h c hc)]
    decide)
  rw [capitals, List.map_congr_left hself, List.map_id']

theorem ofWord?_capitals (w : Text) : Keyword.ofWord? (capitals w) = Keyword.ofWord? w :=
  Keyword.ofWord?_congr (toUpper_map_toUpper w)

end Capitals

namespace Lexeme

def capitalized : Lexeme → Lexeme
  | .word text => .word (capitals text)
  | .quoted text => .quoted (capitals text)
  | x => x

theorem cutNumber_capitals (s : Text) :
    cutNumber (capitals s) = (cutNumber s).map Lexeme.capitalized capitals := by
  have htake (s : Text) : (capitals s).takeWhile Char.isDigit = s.takeWhile Char.isDigit := by
    rw [takeWhile_capitals isDigit_toUpper]
    exact capitals_of_digits fun c hc => List.mem_takeWhile_imp hc
  have hdrop (s : Text) : (capitals s).dropWhile Char.isDigit = capitals (s.dropWhile Char.isDigit) :=
    dropWhile_capitals isDigit_toUpper s
  by_cases hpoint : ∃ q, s.dropWhile Char.isDigit = '.' :: q
  · obtain ⟨q, hq⟩ := hpoint
    have hq' : (capitals s).dropWhile Char.isDigit = '.' :: capitals q := by
      rw [hdrop, hq]
      rfl
    rw [cutNumber_of_point hq, cutNumber_of_point hq', htake, htake, hdrop]
    rfl
  · have hno := not_exists.1 hpoint
    have hno' : ∀ q, (capitals s).dropWhile Char.isDigit ≠ '.' :: q := fun q hq => by
      rw [hdrop] at hq
      exact hpoint (exists_of_capitals_cons (by decide) hq)
    rw [cutNumber_of_ne hno, cutNumber_of_ne hno', htake, hdrop]
    rfl

theorem splitWord_capitals (w : Text) :
    splitWord (capitals w) =
      (splitWord w).map capitals capitals := by
  have hdigit (c : Char) : (!c.toUpper.isDigit) = !c.isDigit := congrArg (! ·) (isDigit_toUpper c)
  have hempty (s : Text) : (capitals s).isEmpty = s.isEmpty := List.isEmpty_map
  unfold splitWord
  rw [takeWhile_capitals (p := (!·.isDigit)) hdigit, dropWhile_capitals (p := (!·.isDigit)) hdigit]
  simp only [ofWord?_capitals, hempty]
  split <;> rfl

theorem cutWord_capitals (c : Char) (s : Text) :
    cutWord c.toUpper (capitals s) =
      (cutWord c s).map Lexeme.capitalized capitals := by
  unfold cutWord
  by_cases hc : c = '?'
  · rw [if_pos hc, if_pos ((toUpper_eq_iff (by decide)).2 hc)]
    rfl
  · rw [if_neg hc, if_neg (mt (toUpper_eq_iff (by decide)).1 hc), takeWhile_capitals inWord_toUpper,
      dropWhile_capitals inWord_toUpper, ← capitals_cons, splitWord_capitals]
    simp only [Prod.map, ← capitals_append]
    rfl

theorem cutQuoted_capitals (s : Text) :
    cutQuoted (capitals s) = (cutQuoted s).map Lexeme.capitalized capitals := by
  unfold cutQuoted
  rw [takeWhile_capitals inQuotes_toUpper, dropWhile_capitals inQuotes_toUpper]
  generalize s.dropWhile inQuotes = r
  by_cases hquote : ∃ q, r = '"' :: q
  · obtain ⟨q, rfl⟩ := hquote
    rfl
  · split
    · next heq => exact absurd (exists_of_capitals_cons (by decide) heq) hquote
    · split
      · exact absurd ⟨_, rfl⟩ hquote
      · rfl

/-- The first lexeme of a text has the same capitals as that of the text in upper case. -/
theorem cut_capitals (s : Text) :
    cut (capitals s) = (cut s).map (Prod.map Lexeme.capitalized capitals) := by
  fun_induction cut s with
  | case1 => rfl
  | case2 c rest hc ih =>
    rw [capitals_cons, cut_blank ((ofChar_toUpper c).trans hc), ih]
  | case3 r' hc => exact (Lexing.cut_returnFeed (capitals r')).trans cut_lineFeed
  | case4 c hc rest hno =>
    rcases ofChar_eq_lineEnd_iff.1 hc with rfl | rfl
    · exact cut_lineFeed
    · refine cut_return fun hhead => ?_
      obtain ⟨r, rfl⟩ := List.head?_eq_some_iff.1 ((head?_capitals (by decide)).1 hhead)
      exact hno r rfl rfl
  | case5 c rest hc =>
    simp only [capitals_cons, cut_cons, (ofChar_toUpper c).trans hc, cutQuoted_capitals, Option.map_some]
  | case6 c rest hc =>
    rw [capitals_cons, cut_numeric ((ofChar_toUpper c).trans hc), ← capitals_cons, cutNumber_capitals]
    rfl
  | case7 c rest hc =>
    simp only [capitals_cons, cut_cons, (ofChar_toUpper c).trans hc, cutWord_capitals, Option.map_some]
  | case8 c rest hc | case9 c rest hc | case10 c rest hc =>
    rw [capitals_cons, toUpper_of_ne_word (by simp [hc])]
    simp only [cut_cons, hc]
    rfl

end Lexeme

namespace Lexing

theorem trimReturn_capitals (s : Text) : trimReturn (capitals s) = capitals (trimReturn s) := by
  have hlast : (capitals s).getLast? = some '\r' ↔ s.getLast? = some '\r' := by
    rw [capitals, List.getLast?_map]
    cases s.getLast? with
    | none => rfl
    | some c => simpa using toUpper_eq_iff (by decide)
  unfold trimReturn
  by_cases h : s.getLast? = some '\r'
  · rw [if_pos h, if_pos (hlast.2 h), capitals, capitals, List.map_dropLast]
  · rw [if_neg h, if_neg (mt hlast.1 h)]

theorem commentBody_capitals (s : Text) :
    commentBody (capitals s) = (commentBody s).map capitals capitals := by
  have hfeed (c : Char) : (c.toUpper != '\n') = (c != '\n') :=
    apply_toUpper (· != '\n') (by decide) c
  have hbody (s : Text) :
      (trimReturn ((capitals s).takeWhile (· != '\n')), (capitals s).dropWhile (· != '\n')) =
        Prod.map capitals capitals (trimReturn (s.takeWhile (· != '\n')), s.dropWhile (· != '\n')) := by
    rw [takeWhile_capitals (p := (· != '\n')) hfeed, dropWhile_capitals (p := (· != '\n')) hfeed,
      trimReturn_capitals, Prod.map_apply]
  by_cases hspace : s.head? = some ' '
  · obtain ⟨r, rfl⟩ := List.head?_eq_some_iff.1 hspace
    exact hbody r
  · rw [commentBody_of_ne hspace, commentBody_of_ne (mt (head?_capitals (by decide)).1 hspace)]
    exact hbody s

end Lexing

def SameLetters (s t : Text) : Prop := capitals s = capitals t

instance (s t : Text) : Decidable (SameLetters s t) :=
  inferInstanceAs (Decidable (_ = _))

theorem SameLetters.append {s s' t t' : Text} (h : SameLetters s t) (h' : SameLetters s' t') :
    SameLetters (s ++ s') (t ++ t') := by
  rw [SameLetters, capitals_append, capitals_append, h, h']

theorem SameLetters.head? {s t : Text} {c : Char} (h : SameLetters s t) (hc : c.isAlpha = false) :
    s.head? = some c ↔ t.head? = some c := by
  rw [← head?_capitals hc, h, head?_capitals hc]

theorem SameLetters.ofWord? {s t : Text} (h : SameLetters s t) :
    Keyword.ofWord? s = Keyword.ofWord? t := by
  rw [← ofWord?_capitals, h, ofWord?_capitals]

theorem Lexeme.like_of_capitalized {x x' : Lexeme} (h : x.capitalized = x'.capitalized) :
    x.Like SameLetters SameLetters x' := by
  cases x with
  | lineEnd => cases x' <;> cases h; exact .lineEnd
  | number => cases x' <;> cases h; exact .number
  | mark => cases x' <;> cases h; exact .mark
  | word text =>
    cases x' with
    | word text' => exact .word (Lexeme.word.inj h)
    | _ => cases h
  | quoted text =>
    cases x' with
    | quoted text' => exact .quoted (Lexeme.quoted.inj h)
    | _ => cases h

namespace Lexing

def Likeness.sameLetters : Likeness where
  texts := SameLetters
  words := SameLetters
  payloads := SameLetters
  cut := by
    intro s t h
    have hcut : (Lexeme.cut s).map (Prod.map Lexeme.capitalized capitals) =
        (Lexeme.cut t).map (Prod.map Lexeme.capitalized capitals) := by
      rw [← Lexeme.cut_capitals, ← Lexeme.cut_capitals, h]
    refine rel_of_imp (rel_of_map_eq hcut) fun p p' _ hp => ?_
    obtain ⟨hlexeme, hrest⟩ := Prod.mk.inj hp
    exact ⟨Lexeme.like_of_capitalized hlexeme, hrest⟩
  wordsAlike := by
    intro w w' h
    have hword := h.ofWord?
    -- `REM` turns to the rest of the line, which is that of the other text but for letter case
    by_cases hrem : Keyword.ofWord? w = some .rem
    · refine .rem hrem (hword ▸ hrem) fun r r' hr => ?_
      have hbody : (commentBody r).map capitals capitals = (commentBody r').map capitals capitals := by
        rw [← commentBody_capitals, ← commentBody_capitals, hr]
      exact ⟨congrArg Prod.fst hbody, congrArg Prod.snd hbody⟩
    · cases hsome : Keyword.ofWord? w with
      | none => exact .name hsome (hword ▸ hsome) (h.head? (by decide)) h (h.append rfl)
      | some k =>
        have hk : k ≠ .rem := fun hk => hrem (hsome.trans (congrArg some hk))
        exact .keyword hsome (hword ▸ hsome) hk rfl

theorem readWord_ne_quoted {line n l : Nat} {word rest text r : Text} :
    readWord line word rest ≠ .token ⟨n, .quoted text⟩ r l := by
  unfold readWord readKeyword readIdentifier
  repeat' split
  all_goals simp

/-- A string is read off a quote. -/
theorem quote_mem_of_readToken {line n l : Nat} {s text r : Text}
    (h : readToken line s = .token ⟨n, .quoted text⟩ r l) : '"' ∈ s := by
  fun_induction readToken line s with
  | case1 | case2 | case3 | case7 | case8 | case10 => cases h
  | case4 line s text' r' hcut =>
    obtain ⟨blanks, piece, rfl, -, hspelling⟩ := Lexeme.cut_spelling hcut
    cases hspelling <;> simp
  | case5 => exact absurd h readWord_ne_quoted
  | case6 line s c r' hcut hc r'' hend ih =>
    exact ((Lexeme.cut_suffix hend).trans (Lexeme.cut_suffix hcut)).subset (ih h)
  | case9 =>
    unfold readPunctuation at h
    split at h <;> cases h

theorem quote_mem_of_lexFrom (line : Nat) (s : Text) :
    ∀ t ∈ (lexFrom line s).tokens, ∀ text, t.kind = .quoted text → '"' ∈ s := by
  fun_induction lexFrom line s with
  | case1 | case2 => simp
  | case3 line s t r l hread more ih =>
    rw [List.forall_mem_cons]
    constructor
    · obtain ⟨n, kind⟩ := t
      rintro text rfl
      exact quote_mem_of_readToken hread
    · exact fun t' ht' text htext => (readToken_suffix hread).subset (ih t' ht' text htext)

end Lexing

def TokenKind.capitalized : TokenKind → TokenKind
  | .identifier name => .identifier (capitals name)
  | .quoted text => .quoted (capitals text)
  | .directive name => .directive (capitals name)
  | .comment text => .comment (capitals text)
  | k => k

def Token.capitalized (t : Token) : Token := ⟨t.line, t.kind.capitalized⟩

def Token.isVerbatim (t : Token) : Bool :=
  match t.kind with
  | .quoted _ | .comment _ => true
  | _ => false

theorem Token.isVerbatim_capitalized (t : Token) : t.capitalized.isVerbatim = t.isVerbatim := by
  obtain ⟨line, kind⟩ := t
  cases kind <;> rfl

theorem Token.Like.capitalized_eq {t t' : Token} (h : t.Like SameLetters t') :
    t.capitalized = t'.capitalized := by
  obtain ⟨line, kind⟩ := t
  obtain ⟨line', kind'⟩ := t'
  obtain ⟨rfl, hkind⟩ : line = line' ∧ kind.Like SameLetters kind' := h
  refine congrArg (Token.mk line) ?_
  cases hkind with
  | lineEnd | number | keyword | punct => rfl
  | identifier h => exact congrArg TokenKind.identifier h
  | quoted h => exact congrArg TokenKind.quoted h
  | directive h => exact congrArg TokenKind.directive h
  | comment h => exact congrArg TokenKind.comment h

theorem keepsOutline_capitalized : KeepsOutline Token.capitalized where
  line _ := rfl
  isLineEnd t := by
    obtain ⟨line, kind⟩ := t
    cases kind <;> rfl
  colon t := by
    obtain ⟨line, kind⟩ := t
    cases kind <;> simp [Token.capitalized, TokenKind.capitalized]
  asLineNumber t := by
    obtain ⟨line, kind⟩ := t
    cases kind <;> rfl

/-- Names are stored in upper case, and a directive is not stored at all. -/
theorem keepsEncoding_capitalized {t : Token} (h : t.isVerbatim = false) :
    KeepsEncoding Token.capitalized t := by
  obtain ⟨line, kind⟩ := t
  cases kind with
  | lineEnd | number | keyword | punct | directive => rfl
  | identifier name =>
    have hname : Text.toUpper (capitals name) = name.toUpper := toUpper_map_toUpper name
    simp only [KeepsEncoding, Token.capitalized, TokenKind.capitalized, MemoryImage.tokenBytes, hname]
  | quoted | comment => cases h

theorem map_capitalized_eq {ts us : List Token} (h : List.Forall₂ (Token.Like SameLetters) ts us) :
    ts.map Token.capitalized = us.map Token.capitalized := by
  have heq : List.Forall₂ (· = ·) (ts.map Token.capitalized) (us.map Token.capitalized) := by
    rw [List.forall₂_map_left_iff, List.forall₂_map_right_iff]
    exact h.imp fun _ _ => Token.Like.capitalized_eq
  rwa [List.forall₂_eq_eq_eq] at heq

/-- Tokens that differ in letter case only have the same image, but for strings and comments. -/
theorem imageOfTokens_capitalized {ts us : List Token}
    (htokens : ts.map Token.capitalized = us.map Token.capitalized)
    (h : ∀ t ∈ ts, t.isVerbatim = false) (current : Nat) (address : UInt16) :
    (imageOfTokens current address ts).mapError Error.told =
      (imageOfTokens current address us).mapError Error.told := by
  have h' : ∀ u ∈ us, u.isVerbatim = false := by
    intro u hu
    have hmem : u.capitalized ∈ ts.map Token.capitalized := by
      rw [htokens]
      exact List.mem_map_of_mem hu
    obtain ⟨t, ht, heq⟩ := List.mem_map.1 hmem
    rw [← u.isVerbatim_capitalized, ← heq, t.isVerbatim_capitalized, h t ht]
  have hts := imageOfTokens_map keepsOutline_capitalized current address fun t ht =>
    keepsEncoding_capitalized (h t ht)
  have hus := imageOfTokens_map keepsOutline_capitalized current address fun u hu =>
    keepsEncoding_capitalized (h' u hu)
  rw [← hts, ← hus, htokens]

section Same

variable {s t : Text}

theorem lex_capitalized (h : SameLetters s t) :
    (∃ ts us, lex s = .ok ts ∧ lex t = .ok us ∧
      ts.map Token.capitalized = us.map Token.capitalized) ∨
    ∃ e e', lex s = .error e ∧ lex t = .error e' ∧ e.told = e'.told := by
  rcases Lexing.Likeness.sameLetters.lex_like h with
    ⟨ts, us, hs, ht, htokens⟩ | ⟨e, e', hs, ht, herror⟩
  · exact .inl ⟨ts, us, hs, ht, map_capitalized_eq htokens⟩
  · exact .inr ⟨e, e', hs, ht, Prod.ext herror.kind_eq.1 herror.kind_eq.2⟩

/-- The case of ASCII letters shows in the text of tokens only, and not in the memory image unless there
are strings or comments. -/
theorem lex_same_letters (h : SameLetters s t) :
    ((∃ ts us, lex s = .ok ts ∧ lex t = .ok us ∧
        ts.map Token.capitalized = us.map Token.capitalized) ∨
      ∃ e e', lex s = .error e ∧ lex t = .error e' ∧ e.told = e'.told) ∧
    ('"' ∉ s → (∀ ts, lex s = .ok ts → ∀ x ∈ ts, ∀ text, x.kind ≠ .comment text) →
      ∀ (tokenizer : Tokenizer) (address : UInt16),
        (tokenizer.tokenizeText s address).1.mapError Error.told =
          (tokenizer.tokenizeText t address).1.mapError Error.told) := by
  refine ⟨lex_capitalized h, fun hquote hcomments tokenizer address => ?_⟩
  rw [tokenizer.tokenizeText_eq, tokenizer.tokenizeText_eq]
  rcases lex_capitalized h with ⟨ts, us, hs, ht, htokens⟩ | ⟨e, e', hs, ht, htold⟩
  · -- strings and comments are left out, and the upper case of a name is what is stored
    have hplain : ∀ x ∈ ts, x.isVerbatim = false := by
      intro x hx
      have hmem : x ∈ (Lexing.lexFrom 1 s).tokens := by rwa [lex_eq_ok_iff.1 hs]
      obtain ⟨line, kind⟩ := x
      cases kind with
      | quoted text => exact absurd (Lexing.quote_mem_of_lexFrom 1 s _ hmem text rfl) hquote
      | comment text => exact absurd rfl (hcomments ts hs _ hx text)
      | _ => rfl
    rw [hs, ht]
    exact imageOfTokens_capitalized htokens hplain tokenizer.sourceLine address
  · rw [hs, ht]
    exact congrArg Except.error htold

end Same

theorem lex_same_letters_keywords :
    let s := "10 for I%=1toN:pr #hgR2:print A (i%)".toList
    let t := "10 FOR i%=1TOn:Pr #HGR2:PRINT a (I%)".toList
    SameLetters s t ∧ '"' ∉ s ∧ (∀ ts, lex s = .ok ts → ∀ x ∈ ts, ∀ text, x.kind ≠ .comment text) ∧
      (∃ ts us, lex s = .ok ts ∧ lex t = .ok us ∧
        ts.map Token.capitalized = us.map Token.capitalized) ∧
      (Tokenizer.new.tokenizeText s 2049).1.mapError Error.told =
        (Tokenizer.new.tokenizeText t 2049).1.mapError Error.told := by
  intro s t
  have h : SameLetters s t := by decide
  have hquote : '"' ∉ s := by decide
  have hlex : lex s = .ok [⟨1, .number (.ofNat 10)⟩, ⟨1, .keyword .forLoop⟩,
      ⟨1, .identifier ['I', '%']⟩, ⟨1, .keyword .equal⟩, ⟨1, .number (.ofNat 1)⟩,
      ⟨1, .identifier "toN".toList⟩, ⟨1, .punct ':'⟩, ⟨1, .keyword .prSlot⟩, ⟨1, .keyword .hgr2⟩,
      ⟨1, .punct ':'⟩, ⟨1, .keyword .print⟩, ⟨1, .identifier ['A', '(']⟩,
      ⟨1, .identifier ['i', '%']⟩, ⟨1, .punct ')'⟩] := by
    decide +kernel
  have hcomments : ∀ ts, lex s = .ok ts → ∀ x ∈ ts, ∀ text, x.kind ≠ .comment text := by
    intro ts hts
    obtain rfl := Except.ok.inj (hlex.symm.trans hts)
    simp
  obtain ⟨htokens, hbytes⟩ := lex_same_letters h
  refine ⟨h, hquote, hcomments, htokens.resolve_right ?_, hbytes hquote hcomments Tokenizer.new 2049⟩
  rintro ⟨e, _, herror, -, -⟩
  rw [hlex] at herror
  cases herror

/-- A comment is stored as it stands. -/
example : (Tokenizer.new.tokenizeText "1 REM a".toList 2049).1 ≠
    (Tokenizer.new.tokenizeText "1 REM A".toList 2049).1 := by decide +kernel

end Applesoft
