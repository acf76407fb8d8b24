import Applesoft.Proofs.MergedNames

/-!
# Clashing tokens read back

Where two tokens clash, or a token cannot be listed, another token is read in their place, and its
bytes differ from theirs at some point. So a listing that keeps the bytes of its line has no clash.
-/
namespace Applesoft

variable {letters : LetterCase} {line : Nat} {r w : Text}

def Diverges (a b : List UInt8) : Prop := ¬ a <+: b ∧ ¬ b <+: a

theorem diverges_cons {x y : UInt8} {a b : List UInt8} (h : x ≠ y) :
    Diverges (x :: a) (y :: b) := by
  constructor
  · rw [List.cons_prefix_cons]; exact fun hpre => h hpre.1
  · rw [List.cons_prefix_cons]; exact fun hpre => h hpre.1.symm

theorem Diverges.append_left {a b : List UInt8} (h : Diverges a b) (u : List UInt8) :
    Diverges (u ++ a) (u ++ b) := by
  rw [Diverges, List.prefix_append_right_inj, List.prefix_append_right_inj]
  exact h

theorem Diverges.append_ne {a b : List UInt8} (h : Diverges a b) (x y : List UInt8) :
    a ++ x ≠ b ++ y := by
  intro heq
  have ha : a <+: a ++ x := List.prefix_append a x
  have hb : b <+: a ++ x := heq ▸ List.prefix_append b y
  rcases List.prefix_or_prefix_of_prefix ha hb with hpre | hpre
  · exact h.1 hpre
  · exact h.2 hpre

theorem IsName.append_rem (h : IsName w) : IsName (w ++ letters.apply Keyword.rem.word) := by
  have hword : Keyword.rem.isWord = true := by decide
  have hhead : (w ++ letters.apply Keyword.rem.word).head? = w.head? :=
    List.head?_append_of_ne_nil _ h.ne_nil
  have hnone : Keyword.ofWord? (w ++ letters.apply Keyword.rem.word) = none := by
    rw [Keyword.ofWord?_eq_none_iff]
    intro k hk
    rw [Text.toUpper_append, Keyword.toUpper_apply_word] at hk
    obtain rfl := k.spelled.last_rem ⟨_, hk⟩
    exact h.ne_nil (Text.toUpper_eq_nil.1 (by simpa using hk))
  refine ⟨by simp [h.ne_nil], fun c hc => ?_, by rw [hhead]; exact h.head_digit,
    by rw [hhead]; exact h.head_dollar, hnone, ?_⟩
  · rcases List.mem_append.1 hc with hc | hc
    · exact h.inWord c hc
    · exact Keyword.inWord_apply_word letters hword c hc
  · rw [List.takeWhile_append]
    split
    · rw [List.takeWhile_eq_self_iff.2, hnone]
      intro c hc
      simp [Keyword.isDigit_apply_word letters (by decide : Keyword.rem ≠ .hgr2) c hc]
    · exact h.noKeywordBeforeDigits

/-- A keyword with a `$` and what a word can go on with make a name. -/
theorem isName_dollar {k : Keyword} (hk : k.endsInDollar = true) {more : Text}
    (hmore : ∀ c ∈ more, inWord c = true) (hne : more ≠ [])
    (hdigit : ∀ c ∈ more.head?, c.isDigit = false) : IsName (letters.apply k.word ++ more) := by
  obtain ⟨hword, -⟩ := k.spelled.open_word (.inr hk)
  have hhgr2 : k ≠ .hgr2 := by rintro rfl; revert hk; decide
  have hhead : (letters.apply k.word ++ more).head? = (letters.apply k.word).head? :=
    List.head?_append_of_ne_nil _ (Keyword.apply_word_ne_nil letters hword)
  refine ⟨by simp [hne], fun c hc => ?_, fun c hc => ?_, fun hc => ?_,
    Keyword.ofWord?_apply_word_append letters (.inr hk) hne, ?_⟩
  · rcases List.mem_append.1 hc with hc | hc
    · exact Keyword.inWord_apply_word letters hword c hc
    · exact hmore c hc
  · exact (Keyword.head_apply_word letters hword c (hhead ▸ hc)).1
  · exact (Keyword.head_apply_word letters hword '$' (hhead ▸ hc)).2 rfl
  · rw [List.takeWhile_append_of_pos]
    · apply Keyword.ofWord?_apply_word_append letters (.inr hk)
      cases more with
      | nil => exact absurd rfl hne
      | cons c rest => simp [hdigit c rfl]
    · intro c hc
      simp [Keyword.isDigit_apply_word letters hhgr2 c hc]

theorem isName_inf {more : Text} (hmore : ∀ c ∈ more, inWord c = true) :
    IsName (['i', 'n', 'f'] ++ more) := by
  have hnone : ∀ t : Text, Keyword.ofWord? (['i', 'n', 'f'] ++ t) = none := by
    intro t
    have hupper : Text.toUpper ['i', 'n', 'f'] = ['I', 'N', 'F'] := by decide
    rw [Keyword.ofWord?_eq_none_iff]
    intro k hk
    rw [Text.toUpper_append, hupper] at hk
    exact k.spelled.head_inf ⟨_, hk⟩
  refine ⟨by simp, fun c hc => ?_, by rintro c ⟨⟩; rfl, by simp, hnone more, ?_⟩
  · have hall : ∀ c ∈ ['i', 'n', 'f'], inWord c = true := by decide
    rcases List.mem_append.1 hc with hc | hc
    · exact hall c hc
    · exact hmore c hc
  · rw [List.takeWhile_append_of_pos (by decide)]
    exact hnone _

namespace Lexing

theorem readToken_run (h : IsName (w ++ r.takeWhile inWord)) : ∃ name r',
    readToken line (w ++ r) = .token ⟨line, .identifier name⟩ r' line ∧
      w ++ r.takeWhile inWord <+: name := by
  have hsplit : w ++ r = (w ++ r.takeWhile inWord) ++ r.dropWhile inWord := by
    rw [List.append_assoc, List.takeWhile_append_dropWhile]
  rw [hsplit, readToken_name h (stops_dropWhile _ _), readIdentifier]
  split
  · exact ⟨_, _, rfl, List.prefix_append _ _⟩
  · exact ⟨_, _, rfl, List.prefix_refl _⟩

/-- `HGR2` ends before its digit if a word goes on after it. -/
theorem readToken_hgr2 {c : Char} (hc : inWord c = true) : ∃ r',
    readToken line (letters.apply Keyword.hgr2.word ++ c :: r) =
      .token ⟨line, .keyword .hgr⟩ r' line := by
  have hword : Keyword.hgr2.isWord = true := by decide
  have happly : letters.apply Keyword.hgr2.word = letters.apply Keyword.hgr.word ++ ['2'] := by
    have hsplit : Keyword.hgr2.word = Keyword.hgr.word ++ ['2'] := by decide
    have hdigit : letters.apply ['2'] = ['2'] := by cases letters <;> decide
    rw [hsplit, letters.apply_append Keyword.hgr.isPlain_word (by decide), hdigit]
  have hrun : letters.apply Keyword.hgr2.word ++ (c :: r).takeWhile inWord =
      letters.apply Keyword.hgr.word ++ '2' :: c :: r.takeWhile inWord := by
    rw [List.takeWhile_cons_of_pos hc, happly, List.append_assoc]
    rfl
  have hnone : Keyword.ofWord? (letters.apply Keyword.hgr.word ++ '2' :: c :: r.takeWhile inWord) =
      none := by
    rw [← hrun]
    exact Keyword.ofWord?_apply_word_append letters (.inl rfl)
      (by rw [List.takeWhile_cons_of_pos hc]; simp)
  have hcut := Lexeme.cut_run (r := c :: r) (Keyword.apply_word_ne_nil letters hword)
    (Keyword.inWord_apply_word letters hword)
    fun c hc => (Keyword.head_apply_word letters hword c hc).1
  rw [hrun, Lexeme.splitWord_digits hnone
    (Keyword.isDigit_apply_word letters (by decide : Keyword.hgr ≠ .hgr2)) ⟨'2', rfl, rfl⟩
    (by rw [Keyword.ofWord?_apply_word]; rfl)] at hcut
  exact ⟨_, by rw [readToken_word hcut, readWord, Keyword.ofWord?_apply_word]; rfl⟩

end Lexing

theorem Keyword.asciiBytes_word {k : Keyword} (hk : k.isWord = true) :
    ∃ x rest, asciiBytes k.word = x :: rest ∧ x.toNat < 128 := by
  cases hw : k.word with
  | nil => rw [isWord, hw] at hk; cases hk
  | cons c rest =>
    have hc := (k.spelled.ascii c (by simp [hw])).1
    refine ⟨_, _, rfl, ?_⟩
    rw [UInt8.toNat_ofNat']
    omega

namespace TokenKind

open Lexing

theorem bytes_name_prefix {u name : Text} (h : u <+: name) :
    (asciiBytes u.toUpper) <+: (identifier name).bytes := by
  obtain ⟨t, rfl⟩ := h
  simp [bytes, asciiBytes, Text.toUpper_append]

/-- Another token is read in place of `HGR2` or a keyword with a `$` that a word carries on. -/
theorem openKeyword_diverges {k : Keyword} {c : Char} (hk : k = .hgr2 ∨ k.endsInDollar = true)
    (hc : inWord c = true) (hdigit : k = .hgr2 ∨ c.isDigit = false) : ∃ g r',
    readToken line (letters.apply k.word ++ c :: r) = .token ⟨line, g⟩ r' line ∧ g ≠ .lineEnd ∧
      ∀ b, Diverges g.bytes (k.code :: b) := by
  by_cases hhgr2 : k = .hgr2
  · subst hhgr2
    obtain ⟨r', hread⟩ := @readToken_hgr2 letters line r c hc
    exact ⟨_, r', hread, by simp, fun b => diverges_cons (by decide)⟩
  · have hdollar := hk.resolve_left hhgr2
    have hrun : (c :: r).takeWhile inWord = c :: r.takeWhile inWord := List.takeWhile_cons_of_pos hc
    have hname : IsName (letters.apply k.word ++ (c :: r).takeWhile inWord) := by
      apply isName_dollar hdollar (fun d hd => List.mem_takeWhile_imp hd)
      · rw [hrun]; exact List.cons_ne_nil _ _
      · rw [hrun]; rintro d ⟨⟩; exact hdigit.resolve_left hhgr2
    obtain ⟨name, r', hread, hpre⟩ := @readToken_run line _ _ hname
    refine ⟨_, r', hread, by simp, fun b => ?_⟩
    obtain ⟨t, ht⟩ := bytes_name_prefix ((List.prefix_append _ _).trans hpre)
    obtain ⟨x, rest, hx, hlt⟩ := k.asciiBytes_word (k.spelled.open_word hk).1
    have hcode := (k.spelled.open_word hk).2.2
    rw [← ht, Keyword.toUpper_apply_word, hx]
    refine diverges_cons ?_
    rintro rfl
    omega

theorem listed_comment_append {text : Text} (hr : Stops inWord r) : ∃ tail, Stops inWord tail ∧
    (comment text).listed letters ++ r = letters.apply Keyword.rem.word ++ tail := by
  rw [listed_comment, List.append_assoc]
  refine ⟨_, ?_, rfl⟩
  split
  · exact hr
  · exact stops_cons.2 (by decide)

theorem name_comment_diverges {name text : Text} (hname : IsName name)
    (hplain : ∀ c ∈ name, Applesoft.IsPlain c) (hr : Stops inWord r) : ∃ g r',
    readToken line (letters.apply name ++ ((comment text).listed letters ++ r)) =
      .token ⟨line, g⟩ r' line ∧ g ≠ .lineEnd ∧
        Diverges g.bytes ((identifier name).bytes ++ (comment text).bytes) := by
  obtain ⟨tail, htail, htext⟩ := @listed_comment_append letters r text hr
  have hjoined : IsName (letters.apply name ++ letters.apply Keyword.rem.word) :=
    (hname.apply hplain).append_rem
  rw [htext, ← List.append_assoc]
  obtain ⟨joined, r', hread, hpre⟩ := @readToken_run line tail _
    (by rwa [takeWhile_of_stops htail, List.append_nil])
  refine ⟨_, r', hread, by simp, ?_⟩
  obtain ⟨t, ht⟩ := bytes_name_prefix ((List.prefix_append _ _).trans hpre)
  have hupper : (letters.apply name ++ letters.apply Keyword.rem.word).toUpper =
      name.toUpper ++ Keyword.rem.word := by
    rw [Text.toUpper_append, letters.toUpper_apply hplain, Keyword.toUpper_apply_word]
  rw [← ht, hupper, asciiBytes, List.map_append, List.append_assoc]
  exact (diverges_cons (by decide)).append_left _

theorem directive_comment_diverges {name text : Text} (hname : (directive name).WellFormed)
    (hr : Stops inWord r) : ∃ g r',
    readToken line (name ++ ((comment text).listed letters ++ r)) = .token ⟨line, g⟩ r' line ∧
      g ≠ .lineEnd ∧ Diverges g.bytes ((directive name).bytes ++ (comment text).bytes) := by
  have hword : Keyword.rem.isWord = true := by decide
  obtain ⟨tail, htail, htext⟩ := @listed_comment_append letters r text hr
  have hne : name ≠ [] := by rintro rfl; cases hname.1
  have hall : ∀ c ∈ name ++ letters.apply Keyword.rem.word, inWord c = true := fun c hc =>
    (List.mem_append.1 hc).elim (hname.2 c) (Keyword.inWord_apply_word letters hword c)
  rw [htext, ← List.append_assoc,
    readToken_directive ((List.head?_append_of_ne_nil _ hne).trans hname.1) hall htail]
  refine ⟨_, _, rfl, by simp, ?_⟩
  rw [bytes, asciiBytes, List.map_append]
  have hrem : ∃ x more, (letters.apply Keyword.rem.word).map (fun c => UInt8.ofNat c.toNat) =
      x :: more ∧ x ≠ Keyword.rem.code := by
    cases letters
    · exact ⟨_, _, rfl, by decide⟩
    · exact ⟨_, _, rfl, by decide⟩
  obtain ⟨x, more, hx, hne⟩ := hrem
  rw [hx]
  exact (diverges_cons hne).append_left _

/-- An infinite number reads as a name, which is stored in capitals. -/
theorem infinite_diverges {value : Binary64} (hvalue : (number value).WellFormed)
    (hinfinite : value.isInfinite = true) : ∃ g r',
    readToken line (value.listingText ++ r) = .token ⟨line, g⟩ r' line ∧ g ≠ .lineEnd ∧
      Diverges g.bytes (number value).bytes := by
  have hupper : Text.toUpper ['i', 'n', 'f'] = ['I', 'N', 'F'] := by decide
  rw [bytes, Binary64.listingText_infinite hvalue.1 hinfinite]
  have hname := @isName_inf (r.takeWhile inWord) fun c hc => List.mem_takeWhile_imp hc
  obtain ⟨name, r', hread, hpre⟩ := @readToken_run line _ _ hname
  refine ⟨_, r', hread, by simp, ?_⟩
  obtain ⟨t, ht⟩ := bytes_name_prefix ((List.prefix_append _ _).trans hpre)
  rw [← ht, hupper]
  exact diverges_cons (by decide)

theorem openKeyword_cases {k : Keyword} {k' : TokenKind}
    (h : (keyword k).clashes k' = true ∨
      (keyword k).isOpenKeyword = true ∧ k'.isUnlistable = true) :
    (k = .hgr2 ∨ k.endsInDollar = true) ∧ k'.startsWord = true ∧ k'.startsWithLetter = false ∧
      ((∃ value, k' = .number value ∧ value.isInfinite = false) → k = .hgr2) := by
  have hopen : (keyword k).isOpenKeyword = true → k = .hgr2 ∨ k.endsInDollar = true := by
    simp [isOpenKeyword]
  cases k' with
  | number value =>
    refine ⟨?_, rfl, rfl, ?_⟩
    · rcases h with h | h
      · exact .inl (by simpa [clashes] using h)
      · exact hopen h.1
    · rintro ⟨_, ⟨⟩, hfinite⟩
      rcases h with h | ⟨-, hinfinite⟩
      · simpa [clashes] using h
      · rw [isUnlistable, hfinite] at hinfinite
        cases hinfinite
  | comment text =>
    refine ⟨hopen ?_, rfl, rfl, by simp⟩
    rcases h with h | h
    · simpa [clashes, isOpenName, isDirective] using h
    · exact h.1
  | identifier | directive =>
    refine ⟨hopen ?_, rfl, rfl, by simp⟩
    rcases h with h | h
    · exact h
    · exact h.1
  | lineEnd | keyword | quoted | punct => simp [clashes, isUnlistable] at h

theorem endsWithLetter_open {k : Keyword} (hk : k = .hgr2 ∨ k.endsInDollar = true) :
    (keyword k).endsWithLetter = false := by
  obtain ⟨hword, hmark, -⟩ := k.spelled.open_word hk
  exact (k.spelled.last_letter hword hmark).2 hk

/-- Where two tokens clash, another token is read in their place. -/
theorem clash_diverges {k k' : TokenKind} (hk : k.Proper) (hk' : k'.Proper)
    (hclash : k.clashes k' = true ∨ k.isOpenKeyword = true ∧ k'.isUnlistable = true)
    (hr : ∀ text, k' = .comment text → Stops inWord r) : ∃ g r',
    readToken line (k.listed letters ++
      ((if k.needsBlank k' then [' '] else []) ++ k'.listed letters ++ r)) =
        .token ⟨line, g⟩ r' line ∧ g ≠ .lineEnd ∧ Diverges g.bytes (k.bytes ++ k'.bytes) := by
  cases k with
  | keyword k =>
    obtain ⟨hopen, hstarts, hletter, hfinite⟩ := openKeyword_cases hclash
    obtain ⟨hword, hmark, -⟩ := k.spelled.open_word hopen
    obtain ⟨c, rest, htext, hstart⟩ :=
      @exists_startsWith letters k' hk'.wellFormed hk'.plain hk'.ne_lineEnd
    have hblank : (keyword k).needsBlank k' = false := by
      simp [needsBlank, endsWithLetter_open hopen, hletter, endsWordLike, isWordLike]
    have hdigit : k = .hgr2 ∨ c.isDigit = false := by
      by_cases hdigit : c.isDigit = true
      · exact .inl (hfinite (hstart.digit.1 hdigit))
      · exact .inr (by simpa using hdigit)
    rw [hblank, htext, listed, Keyword.apply_spelling, hmark]
    obtain ⟨g, r', hread, hg, hdiverges⟩ := @openKeyword_diverges letters line (rest ++ r) k c hopen
      (by rw [hstart.inWord, hstarts]) hdigit
    exact ⟨g, r', by simpa using hread, hg, hdiverges k'.bytes⟩
  | identifier name =>
    have hclosed : (identifier name).isOpenKeyword = false := rfl
    cases k' with
    | comment text =>
      have hblank : (identifier name).needsBlank (comment text) = false := by
        simp [needsBlank, endsWithLetter, startsWithLetter, isWordLike]
      have hopen : name.getLast? ≠ some '(' := by
        simpa [clashes, hclosed, isDirective, isOpenName] using hclash
      have hname : IsName name := by
        apply hk.wellFormed.resolve_right
        rintro ⟨w, -, hw⟩
        exact hopen (by rw [hw, List.getLast?_concat])
      rw [hblank]
      exact name_comment_diverges hname hk.plain (hr text rfl)
    | _ => simp [clashes, hclosed] at hclash
  | directive name =>
    have hclosed : (directive name).isOpenKeyword = false := rfl
    cases k' with
    | comment text =>
      have hblank : (directive name).needsBlank (comment text) = false := by
        simp [needsBlank, endsWithLetter, startsWithLetter, isWordLike]
      rw [hblank]
      exact directive_comment_diverges hk.wellFormed (hr text rfl)
    | _ => simp [clashes, hclosed] at hclash
  | lineEnd | number | quoted | comment | punct =>
    cases k' <;> simp [clashes, isOpenName, isDirective, isOpenKeyword] at hclash

end TokenKind

end Applesoft
