import Applesoft.Json
import Applesoft.Log

/-!
# Settings

Defaults for the command line, changed by an object with the sections `tokenizer`, `renumber` and
`lister`. What has the wrong type is told and left at its default; only an address that is too
large is an error.
-/
namespace Applesoft

structure Settings where
  address : UInt16
  first : Nat
  step : Nat
  letters : LetterCase
  deriving DecidableEq, Repr

namespace Settings

def initial : Settings := ⟨2049, 10, 10, .upper⟩

inductive Fault
  | notJson (cause : Json.Refusal)
  | addressOutOfRange (address : Nat)
  deriving DecidableEq, Repr

def Fault.message : Fault → Text
  | .notJson cause => cause.message
  | .addressOutOfRange _ => "out of range integral type conversion attempted".toList

def Fault.debug : Fault → Text
  | .notJson cause => cause.debug
  | .addressOutOfRange _ => "TryFromIntError(())".toList

def entry? (part : Json) (key : String) : Option Json :=
  match part with
  | .object fields => fields.lookup key.toList
  | _ => none

def naturalAt (part : Json) (key : String) (current : Nat) : List LogEntry × Nat :=
  match entry? part key with
  | none => ([], current)
  | some (.natural n) => ([], n)
  | some _ =>
    ([.warn ("setting ".toList ++ key.toList ++ " should be a non-negative integer".toList)],
      current)

def boolAt (part : Json) (key : String) (current : Bool) : List LogEntry × Bool :=
  match entry? part key with
  | none => ([], current)
  | some (.bool b) => ([], b)
  | some _ => ([.warn ("setting ".toList ++ key.toList ++ " should be a boolean".toList)], current)

def applySection (s : Settings) (key : Text) (value : Json) :
    List LogEntry × Except Fault Settings :=
  if key = "tokenizer".toList then
    let (warnings, address) := naturalAt value "address" s.address.toNat
    if address < 65536 then (warnings, .ok { s with address := UInt16.ofNat address })
    else
      (warnings ++ [.warn ("address ".toList ++ Text.ofNat address ++ " is out of range".toList)],
        .error (.addressOutOfRange address))
  else if key = "renumber".toList then
    let (firstWarnings, first) := naturalAt value "first" s.first
    let (stepWarnings, step) := naturalAt value "step" s.step
    (firstWarnings ++ stepWarnings, .ok { s with first := first, step := step })
  else if key = "lister".toList then
    let (warnings, lower) := boolAt value "lowerCase" (s.letters = .lower)
    (warnings, .ok { s with letters := if lower then .lower else .upper })
  else ([.warn ("unrecognized settings key ".toList ++ key)], .ok s)

/-- Takes over sections in order, up to the first fault. -/
def applySections (s : Settings) : List (Text × Json) → List LogEntry × Except Fault Settings
  | [] => ([], .ok s)
  | (key, value) :: rest =>
    match s.applySection key value with
    | (warnings, .error e) => (warnings, .error e)
    | (warnings, .ok s) =>
      let (more, result) := applySections s rest
      (warnings ++ more, result)

/-- What is logged, and the settings; a value that is no object changes nothing. -/
def ofJson : Json → List LogEntry × Except Fault Settings
  | .object fields => applySections initial fields
  | _ => ([], .ok initial)

def parse (readJson : Json.Reader) (text : Text) : List LogEntry × Except Fault Settings :=
  match readJson text with
  | .error cause => ([], .error (.notJson cause))
  | .ok value => ofJson value

end Settings

end Applesoft
