import Applesoft.Tools.Lister

/-!
# Runs of the lister

A lister writes the listing of a program in the letter case that it has, whatever earlier runs have left
in it, and keeps the letter case.
-/
namespace Applesoft.Lister

variable {x : Lister}

def Wrote (x : Lister) (text : Text) (outcome : Lister × Option Error) : Prop :=
  ∃ y, outcome = (y, none) ∧ y.text = x.text ++ text ∧ y.letters = x.letters

theorem wrote_nothing (x : Lister) : Wrote x [] (x, none) :=
  ⟨x, rfl, (List.append_nil _).symm, rfl⟩

/-- Text written before comes before what a step writes. -/
theorem Wrote.after {y : Lister} {a b : Text} {outcome : Lister × Option Error}
    (h : Wrote y b outcome) (htext : y.text = x.text ++ a) (hletters : y.letters = x.letters) :
    Wrote x (a ++ b) outcome := by
  obtain ⟨z, hout, hwrote, hkept⟩ := h
  refine ⟨z, hout, ?_, hkept.trans hletters⟩
  rw [hwrote, htext, List.append_assoc]

theorem wrote_each {α : Type} {f : Look Lister Error α} {g : LetterCase → α → Text}
    (h : ∀ a x, Wrote x (g x.letters a) (f a x)) (as : List α) (x : Lister) :
    Wrote x (as.flatMap (g x.letters)) (Look.each f as x) := by
  induction as generalizing x with
  | nil => exact wrote_nothing x
  | cons a rest ih =>
    obtain ⟨y, hout, htext, hletters⟩ := h a x
    have htail := ih y
    rw [hletters] at htail
    rw [Look.each, hout, List.flatMap_cons]
    exact htail.after htext hletters

def tokensText (letters : LetterCase) : Option TokenKind → List Token → Text
  | some k => Listing.tokensAfter letters k
  | none => Listing.statement letters

theorem wrote_tokens (ts : List Token) (x : Lister) :
    Wrote x (tokensText x.letters x.before ts) (Look.each onToken ts x) := by
  induction ts generalizing x with
  | nil =>
    have hempty : tokensText x.letters x.before [] = [] := by cases x.before <;> rfl
    rw [hempty]
    exact wrote_nothing x
  | cons t rest ih =>
    let y := (onToken t x).1
    let written : Text :=
      (if x.before.any (·.needsBlank t.kind) then [' '] else []) ++ t.kind.listed x.letters
    have htext : tokensText x.letters x.before (t :: rest) =
        written ++ Listing.tokensAfter x.letters t.kind rest := by
      cases hbefore : x.before <;>
        simp [tokensText, Listing.statement, Listing.tokensAfter, written, hbefore]
    have htail : Wrote y (Listing.tokensAfter x.letters t.kind rest) (Look.each onToken rest y) := ih y
    rw [htext]
    exact htail.after rfl rfl

theorem wrote_statement (mark : Char) (s : Statement) {y : Lister} (htext : y.text = x.text ++ [mark])
    (hletters : y.letters = x.letters) (hbefore : y.before = none) :
    Wrote x (mark :: Listing.statement x.letters s) (onStatement s y) := by
  have hstatement := wrote_tokens s y
  rw [hbefore, hletters] at hstatement
  exact hstatement.after htext hletters

theorem wrote_statements (ss : List Statement) (hbefore : x.before = none) :
    Wrote x (Listing.statements x.letters ss)
      (Look.firstThen (fun s x => onStatement s (x.write [' ']))
        (fun s x => onStatement s (x.writeMark ':')) ss x) := by
  cases ss with
  | nil => exact wrote_nothing x
  | cons s rest =>
    have hfirst : Wrote x (' ' :: Listing.statement x.letters s) (onStatement s (x.write [' '])) :=
      wrote_statement ' ' s rfl rfl hbefore
    obtain ⟨y, hout, htext, hletters⟩ := hfirst
    have hrest := wrote_each (g := fun letters s => ':' :: Listing.statement letters s)
      (fun s x => wrote_statement ':' s (y := x.writeMark ':') rfl rfl rfl) rest y
    rw [hletters] at hrest
    rw [Look.firstThen, hout]
    exact hrest.after htext hletters

theorem wrote_line (l : Line) (x : Lister) :
    Wrote x (Listing.line x.letters l) (onLine l x) := by
  let numbered : Lister := { x.write (Text.ofNat l.number.toNat) with before := none }
  have hstatements : Wrote numbered (Listing.statements x.letters l.statements) _ :=
    wrote_statements l.statements rfl
  obtain ⟨y, hout, htext, hletters⟩ := hstatements
  have hline : onLine l x = (y.write ['\n'], none) := by
    unfold onLine
    dsimp only
    rw [hout]
  refine ⟨_, hline, ?_, hletters⟩
  rw [write, htext]
  simp [numbered, write, Listing.line]

/-- What a lister writes of a program is its listing, whatever earlier runs have left. -/
theorem list_eq (x : Lister) (p : Program) :
    (x.list p).1 = .ok (p.listing x.letters) ∧ (x.list p).2.letters = x.letters := by
  have hlines := wrote_each (fun l x => wrote_line l x) p.lines { x with text := [] }
  obtain ⟨y, hout, htext, hletters⟩ := hlines
  have hvisit : pass.visit p { x with text := [] } = (y, none) := hout
  have hlist : x.list p = (.ok y.text, y) := by
    unfold list
    rw [hvisit]
  rw [hlist]
  exact ⟨congrArg Except.ok htext, hletters⟩

end Applesoft.Lister
