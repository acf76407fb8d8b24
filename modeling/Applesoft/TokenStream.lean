import Applesoft.Lexing
import Applesoft.SourceBytes

/-!
# Token streams

Tokens drawn one at a time from bytes. Drawing may go on after a fault: what the failing call read
is used up. An undecodable line is a fault of its own and does not count as a line.
-/
namespace Applesoft

/-- A source that is partly read: the text at hand and its line, the runs of text after the
undecodable lines that follow, and whether there may be more to draw. -/
structure TokenStream where
  text : Text
  line : Nat
  later : List Text
  mayHaveMore : Bool
  deriving DecidableEq, Repr

namespace TokenStream

inductive Draw
  | token (t : Token)
  | fault (e : Error)
  | finished
  deriving DecidableEq, Repr

def ofBytes (bytes : List UInt8) : TokenStream :=
  let (text, later) := SourceBytes.runs bytes
  ⟨text, 1, later, true⟩

def next (s : TokenStream) : Draw × TokenStream :=
  match Lexing.readToken s.line s.text with
  | .token t rest line => (.token t, { s with text := rest, line := line })
  | .fault e rest line => (.fault e, { s with text := rest, line := line })
  | .done line =>
    match s.later with
    | [] => (.finished, { s with text := [], line := line, mayHaveMore := false })
    | text :: later => (.fault .undecodable, { s with text := text, line := line, later := later })

def nextUnlessStopped (s : TokenStream) : Draw × TokenStream :=
  if s.mayHaveMore then
    match s.next with
    | (.fault e, s') => (.fault e, { s' with mayHaveMore := false })
    | answer => answer
  else (.finished, s)

inductive Mode
  | resuming | stopping
  deriving DecidableEq, Repr

def draw : Mode → TokenStream → Draw × TokenStream
  | .resuming, s => s.next
  | .stopping, s => s.nextUnlessStopped

def drawMany (mode : Mode) : Nat → TokenStream → List (Draw × Bool)
  | 0, _ => []
  | n + 1, s =>
    let (answer, s') := s.draw mode
    (answer, s'.mayHaveMore) :: drawMany mode n s'

theorem next_token_shortens {s s' : TokenStream} {t : Token} (h : s.next = (.token t, s')) :
    s'.text.length < s.text.length := by
  have hs := Lexing.readToken_shortens s.line s.text
  unfold next at h
  split at h
  · next heq =>
    rw [heq] at hs
    simp only [Prod.mk.injEq] at h
    rw [← h.2]
    exact hs
  · simp at h
  · split at h <;> simp at h

theorem draw_token_shortens {mode : Mode} {s s' : TokenStream} {t : Token}
    (h : s.draw mode = (.token t, s')) : s'.text.length < s.text.length := by
  cases mode with
  | resuming => exact next_token_shortens h
  | stopping =>
    simp only [draw, nextUnlessStopped] at h
    split at h
    · split at h
      · simp at h
      · exact next_token_shortens h
    · simp at h

def drawAll (mode : Mode) (s : TokenStream) : List (Draw × Bool) :=
  match _h : s.draw mode with
  | (.token t, s') => (.token t, s'.mayHaveMore) :: drawAll mode s'
  | (answer, s') => [(answer, s'.mayHaveMore)]
termination_by s.text.length
decreasing_by exact draw_token_shortens _h

end TokenStream

def Lexing.lexRuns (runs : Text × List Text) : Lexing.Lexed :=
  let first := Lexing.lexFrom 1 runs.1
  match first.fault, runs.2 with
  | none, _ :: _ => ⟨first.tokens, some .undecodable⟩
  | _, _ => first

def lexBytes (bytes : List UInt8) : Except Error (List Token) :=
  (Lexing.lexRuns (SourceBytes.runs bytes)).result

end Applesoft
