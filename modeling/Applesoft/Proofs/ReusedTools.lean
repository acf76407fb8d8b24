import Applesoft.Proofs.RenumbererRuns
import Applesoft.Proofs.TokenizerRuns
import Applesoft.Tools

/-!
# Tools that are used again

After any calls, whether they have succeeded or not, the tools reply to a call as new ones do. Of the
calls before nothing shows but the last letter case that was set and, in the errors of the tokenizer, the
source line that it had reached.
-/
namespace Applesoft.Tools

/-- Replies are the same, or they are images that are the same but for what their errors name. -/
inductive Reply.Agrees : Reply → Reply → Prop
  | same (reply : Reply) : Agrees reply reply
  | image {result result' : Except Error (List UInt8)} :
      result.mapError Error.kind = result'.mapError Error.kind →
      Agrees (.image result) (.image result')

theorem Reply.Agrees.of_common {a b c : Reply} (ha : a.Agrees c) (hb : b.Agrees c) : a.Agrees b := by
  cases ha with
  | same =>
    cases hb with
    | same => exact .same _
    | image h => exact .image h.symm
  | image h =>
    cases hb with
    | same => exact .image h
    | image h' => exact .image (h.trans h'.symm)

def Call.reply (letters : LetterCase) : Call → Reply
  | .tokenize p address => .image (p.image address)
  | .tokenizeText source address => .image ((Program.parse 0 source).bind (Program.image address))
  | .setLetters _ => .done
  | .list p => .text (.ok (p.listing letters))
  | .renumber r p =>
    let edited := p.renumberInPlace r .nothing
    .renumbered edited.value edited.fault
  | .renumberText r source => .text (Program.renumberText r source)

def Call.letters : Call → Option LetterCase
  | .setLetters letters => some letters
  | _ => none

def lettersAfter (letters : LetterCase) (history : List Call) : LetterCase :=
  history.foldl (fun letters c => c.letters.getD letters) letters

/-- One call leaves the letter case as it is, unless it sets it. -/
theorem letters_call (x : Tools) (c : Call) :
    (x.call c).2.lister.letters = c.letters.getD x.lister.letters := by
  cases c with
  | list p => exact (x.lister.list_eq p).2
  | tokenize | tokenizeText | setLetters | renumber | renumberText => rfl

theorem letters_after (x : Tools) (history : List Call) :
    (x.after history).lister.letters = lettersAfter x.lister.letters history := by
  induction history generalizing x with
  | nil => rfl
  | cons c rest ih =>
    have hrest : (x.after (c :: rest)).lister.letters =
        lettersAfter (x.call c).2.lister.letters rest := ih (x.call c).2
    rw [hrest, letters_call]
    rfl

/-- In every state the tools reply by the call and the letter case. -/
theorem call_agrees (x : Tools) (c : Call) : (x.call c).1.Agrees (c.reply x.lister.letters) := by
  cases c with
  | tokenize p address => exact .image (x.tokenizer.tokenize_mapError_kind p address)
  | tokenizeText source address =>
    exact .image (x.tokenizer.tokenizeText_mapError_kind source address)
  | setLetters letters => exact .same .done
  | list p =>
    have hreply : (x.call (.list p)).1 = .text (.ok (p.listing x.lister.letters)) :=
      congrArg Reply.text (x.lister.list_eq p).1
    rw [hreply]
    exact .same _
  | renumber r p =>
    obtain ⟨hvalue, hfault⟩ := x.renumberer.renumber_eq r p .nothing
    have hreply : (x.call (.renumber r p)).1 = (Call.renumber r p).reply x.lister.letters :=
      congrArg₂ Reply.renumbered hvalue hfault
    rw [hreply]
    exact .same _
  | renumberText r source =>
    have hreply : (x.call (.renumberText r source)).1 = .text (Program.renumberText r source) :=
      congrArg Reply.text (x.renumberer.renumberText_eq r source)
    rw [hreply]
    exact .same _

/-- After any history of calls the tools reply to a call as new tools would, given the last letter case
that was set: with the same bytes or an error of the same kind, the same text, the same program and the
same fault. What they reply is told by the call and that letter case. -/
theorem call_after (history : List Call) (c : Call) :
    let last := lettersAfter .upper history
    let fresh : Tools := { new with lister.letters := last }
    ((new.after history).call c).1.Agrees (fresh.call c).1 ∧
      ((new.after history).call c).1.Agrees (c.reply last) := by
  intro last fresh
  have hletters : (new.after history).lister.letters = last := letters_after new history
  have hreused : ((new.after history).call c).1.Agrees (c.reply last) :=
    hletters ▸ (new.after history).call_agrees c
  exact ⟨hreused.of_common (fresh.call_agrees c), hreused⟩

/-- The line that an error names can be one that an earlier run has reached. -/
example (left : Tokenizer) : let p : Program := ⟨0, [⟨10, [], 0⟩, ⟨10, [], 0⟩]⟩
    (left.tokenize p 2049).1 = .error (.notAscending left.sourceLine 10 10) := rfl

end Applesoft.Tools
