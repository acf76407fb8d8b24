import Applesoft.CharClass
import Applesoft.Decimal
import Applesoft.Keyword

/-!
# Lexemes

The units into which source text falls before the rules of the dialect are applied. `cut` cuts the
first lexeme off a text and always leaves a shorter one.
-/
namespace Applesoft

inductive Lexeme
  | lineEnd
  | number (value : Binary64)
  | word (text : Text)
  | quoted (text : Text)
  | mark (c : Char)
  deriving DecidableEq, Repr

namespace Lexeme

def shown : Lexeme → Text
  | .lineEnd => "end of line".toList
  | .number value => "number ".toList ++ value.listingText
  | .word text => "word `".toList ++ text ++ "`".toList
  | .quoted text => "string \"".toList ++ text ++ "\"".toList
  | .mark c => "character `".toList ++ visibleForm c ++ "`".toList

def lines : Lexeme → Nat
  | .lineEnd => 1
  | _ => 0

def cutNumber (s : Text) : Lexeme × Text :=
  let whole := s.takeWhile Char.isDigit
  match s.dropWhile Char.isDigit with
  | '.' :: r =>
    (.number (.ofDecimal whole (r.takeWhile Char.isDigit)), r.dropWhile Char.isDigit)
  | r => (.number (.ofDecimal whole []), r)

/-- The part of a word that is one lexeme: a keyword that runs into digits ends before them, unless
the word as a whole is a keyword. -/
def splitWord (word : Text) : Text × Text :=
  let head := word.takeWhile (!·.isDigit)
  let digits := word.dropWhile (!·.isDigit)
  if (Keyword.ofWord? word).isNone && !digits.isEmpty && (Keyword.ofWord? head).isSome then
    (head, digits)
  else (word, [])

def cutWord (first : Char) (rest : Text) : Lexeme × Text :=
  if first = '?' then (.word ['?'], rest)
  else
    let parts := splitWord (first :: rest.takeWhile inWord)
    (.word parts.1, parts.2 ++ rest.dropWhile inWord)

def inQuotes (c : Char) : Bool :=
  c != '"' && c != '\n' && c != '\r'

/-- The text after an opening quote; a string without a closing quote ends with its line. -/
def cutQuoted (s : Text) : Lexeme × Text :=
  match s.dropWhile inQuotes with
  | '"' :: r => (.quoted (s.takeWhile inQuotes), r)
  | r => (.quoted (s.takeWhile inQuotes), r)

/-- The first lexeme after any blanks, and the text after it. A carriage return, a line feed, and
the two in this order are line ends. -/
def cut : Text → Option (Lexeme × Text)
  | [] => none
  | c :: rest =>
    match CharClass.ofChar c with
    | .blank => cut rest
    | .lineEnd =>
      match c, rest with
      | '\r', '\n' :: r => some (.lineEnd, r)
      | _, r => some (.lineEnd, r)
    | .quote => some (cutQuoted rest)
    | .numeric => some (cutNumber (c :: rest))
    | .word => some (cutWord c rest)
    | .punctuation | .escape | .other => some (.mark c, rest)

theorem length_dropWhile_le (p : Char → Bool) (s : Text) :
    (s.dropWhile p).length ≤ s.length :=
  (List.dropWhile_sublist p).length_le

theorem length_cutNumber {c : Char} {s : Text} (hc : c.isDigit = true ∨ c = '.') :
    (cutNumber (c :: s)).2.length < (c :: s).length := by
  have hdrop := length_dropWhile_le Char.isDigit
  rcases hc with hc | rfl
  · have h : (c :: s).dropWhile Char.isDigit = s.dropWhile Char.isDigit := by simp [hc]
    have hs := hdrop s
    unfold cutNumber
    rw [h]
    split
    · next r hr =>
      have := hdrop r
      simp only [hr, List.length_cons] at hs ⊢
      omega
    · simp only [List.length_cons]
      omega
  · have h : ('.' :: s).dropWhile Char.isDigit = '.' :: s :=
      List.dropWhile_cons_of_neg (by decide)
    have hs := hdrop s
    simp only [cutNumber, h, List.length_cons]
    omega

theorem splitWord_append (word : Text) : (splitWord word).1 ++ (splitWord word).2 = word := by
  simp only [splitWord]
  split
  · exact List.takeWhile_append_dropWhile
  · simp

theorem splitWord_fst_ne_nil {word : Text} (h : word ≠ []) : (splitWord word).1 ≠ [] := by
  have hnil : Keyword.ofWord? [] = none := by decide
  simp only [splitWord]
  split
  · next hsplit =>
    intro hhead
    rw [show word.takeWhile (!·.isDigit) = [] from hhead] at hsplit
    simp [hnil] at hsplit
  · exact h

theorem length_cutWord (c : Char) (s : Text) :
    (cutWord c s).2.length < (c :: s).length := by
  unfold cutWord
  split
  · simp
  · have happ := congrArg List.length (splitWord_append (c :: s.takeWhile inWord))
    have hne := splitWord_fst_ne_nil (List.cons_ne_nil c (s.takeWhile inWord))
    have hpos := List.length_pos_iff.2 hne
    have hs := congrArg List.length (List.takeWhile_append_dropWhile (p := inWord) (l := s))
    simp only [List.length_append, List.length_cons] at happ hs ⊢
    omega

theorem length_cutQuoted (s : Text) : (cutQuoted s).2.length ≤ s.length := by
  have h := length_dropWhile_le inQuotes s
  unfold cutQuoted
  split
  · next r hr =>
    simp only [hr, List.length_cons] at h ⊢
    omega
  · exact h

/-- A lexeme is never read off without using up some of the text. -/
theorem length_cut {s r : Text} {x : Lexeme} (h : cut s = some (x, r)) : r.length < s.length := by
  fun_induction cut s with
  | case1 => simp at h
  | case2 c rest hc ih => exact Nat.lt_succ_of_lt (ih h)
  | case3 r' hc =>
    simp only [Option.some.injEq, Prod.mk.injEq] at h
    simp only [← h.2, List.length_cons]
    omega
  | case5 c rest hc =>
    have hq := length_cutQuoted rest
    simp only [Option.some.injEq] at h
    simp only [h, List.length_cons] at hq ⊢
    omega
  | case6 c rest hc =>
    have hn := length_cutNumber (s := rest) (CharClass.of_ofChar_numeric hc)
    simp only [Option.some.injEq] at h
    simpa [h] using hn
  | case7 c rest hc =>
    have hw := length_cutWord c rest
    simp only [Option.some.injEq] at h
    simpa [h] using hw
  | case4 | case8 | case9 | case10 =>
    simp only [Option.some.injEq, Prod.mk.injEq] at h
    simp [← h.2]

end Lexeme

end Applesoft
