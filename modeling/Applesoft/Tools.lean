import Applesoft.Tools.Lister
import Applesoft.Tools.Renumberer
import Applesoft.Tools.Tokenizer

/-!
# Tools

A tokenizer, a lister and a renumberer that are used again and again, each call with what the calls
before it have left.
-/
namespace Applesoft

structure Tools where
  tokenizer : Tokenizer
  lister : Lister
  renumberer : Renumberer
  deriving DecidableEq, Repr

namespace Tools

def new : Tools := ⟨.new, .new, .new⟩

inductive Call
  | tokenize (p : Program) (address : UInt16)
  | tokenizeText (source : Text) (address : UInt16)
  | setLetters (letters : LetterCase)
  | list (p : Program)
  | renumber (r : Renumbering) (p : Program)
  | renumberText (r : Renumbering) (source : Text)
  deriving DecidableEq, Repr

inductive Reply
  | done
  | image (result : Except Error (List UInt8))
  | text (result : Except Error Text)
  /-- What has become of the program, and the fault. -/
  | renumbered (p : Program) (fault : Option Error)
  deriving Repr

def call (x : Tools) : Call → Reply × Tools
  | .tokenize p address =>
    let (image, tokenizer) := x.tokenizer.tokenize p address
    (.image image, { x with tokenizer := tokenizer })
  | .tokenizeText source address =>
    let (image, tokenizer) := x.tokenizer.tokenizeText source address
    (.image image, { x with tokenizer := tokenizer })
  | .setLetters letters => (.done, { x with lister := { x.lister with letters := letters } })
  | .list p =>
    let (text, lister) := x.lister.list p
    (.text text, { x with lister := lister })
  | .renumber r p =>
    let edited := x.renumberer.renumber r p
    (.renumbered edited.value edited.fault, { x with renumberer := edited.state })
  | .renumberText r source =>
    let (text, renumberer) := x.renumberer.renumberText r source
    (.text text, { x with renumberer := renumberer })

def after (x : Tools) (history : List Call) : Tools :=
  history.foldl (fun x c => (x.call c).2) x

end Tools

end Applesoft
