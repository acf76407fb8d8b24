import Applesoft.Error
import Applesoft.IntegerText
import Applesoft.Settings

/-!
# Failures

What a run of the program ends with if it fails, and the line in which that is put for debugging. A
failure is put as the name of its case and its fields, with texts in quotes.
-/
namespace Applesoft

namespace Text

/-- The text in quotes; a single quote needs no backslash there. -/
def debug (t : Text) : Text :=
  '"' :: t.flatMap (fun c => if c = '\'' then [c] else visibleForm c) ++ ['"']

def debugChar (c : Char) : Text :=
  '\'' :: (if c = '"' then [c] else visibleForm c) ++ ['\'']

def debugCase (name : String) (fields : List (String × Text)) : Text :=
  name.toList ++ " \x7b ".toList ++
    List.intercalate ", ".toList (fields.map fun field => field.1.toList ++ ": ".toList ++ field.2) ++
    " \x7d".toList

end Text

def Keyword.caseName : Keyword → Text
  | .prSlot => "PrNumber".toList
  | .inSlot => "InNumber".toList
  | k => k.word.take 1 ++ (k.word.drop 1).map Char.toLower

def IntegerText.Fault.debug (e : IntegerText.Fault) : Text :=
  Text.debugCase "ParseIntError"
    [("kind", match e with
      | .empty => "Empty".toList
      | .invalidDigit => "InvalidDigit".toList
      | .overflow => "PosOverflow".toList)]

def undecodableDebug : Text :=
  Text.debugCase "Error" [("kind", "InvalidData".toList), ("message", Error.undecodable.reason.debug)]

def Error.debug : Error → Text
  | .unexpectedLexeme line found =>
    Text.debugCase "UnexpectedRawToken" [("line", Text.ofNat line), ("found", found.shown.debug)]
  | .openContinuation line =>
    Text.debugCase "UnexpectedRawToken"
      [("line", Text.ofNat line), ("found", Text.debug "end of input after `\\`".toList)]
  | .missingMark line keyword mark =>
    Text.debugCase "ExpectedKeywordPart"
      [("line", Text.ofNat line), ("keyword", keyword.caseName), ("part", Text.debug [mark])]
  | .undecodable => "Io(".toList ++ undecodableDebug ++ [')']
  | .missingLineNumber line => Text.debugCase "ExpectedLineNumber" [("line", Text.ofNat line)]
  | .badLineNumber line value =>
    Text.debugCase "InvalidLineNumber"
      [("line", Text.ofNat line), ("value", value.listingText.debug)]
  | .notAscending line number _ =>
    Text.debugCase "InvalidLineNumber"
      [("line", Text.ofNat line), ("value", (Text.ofNat number.toNat).debug)]
  | .unsupportedDirective line name =>
    Text.debugCase "UnsupportedDirective" [("line", Text.ofNat line), ("name", name.debug)]
  | .notAscii line c =>
    Text.debugCase "NonAscii" [("line", Text.ofNat line), ("ch", Text.debugChar c)]
  | .lineBeyondMemory line | .endBeyondMemory line _ =>
    Text.debugCase "OutOfMemory" [("line", Text.ofNat line)]
  | .numberOutOfRange _ new =>
    "Renumber(".toList ++
      Text.debug ("line number ".toList ++ Text.ofNat new ++ " is out of range".toList) ++ [')']
  | .numberOutOfOrder _ new _ =>
    "Renumber(".toList ++
      Text.debug ("line number ".toList ++ Text.ofNat new ++ " is out of order".toList) ++ [')']
  | .visitorStopped => "Renumber(".toList ++ Text.debug "visitor stopped".toList ++ [')']

namespace CommandLine

inductive Failure
  | invalidCommand
  | outOfRange
  /-- The input is not UTF-8. -/
  | undecodable
  | settings (e : Settings.Fault)
  | integer (e : IntegerText.Fault)
  | language (e : Error)
  deriving DecidableEq, Repr

namespace Failure

def debug : Failure → Text
  | .invalidCommand => "InvalidCommand".toList
  | .outOfRange => "OutOfRange".toList
  | .undecodable => undecodableDebug
  | .settings e => e.debug
  | .integer e => e.debug
  | .language e => e.debug

def report (f : Failure) : Text :=
  "Error: ".toList ++ f.debug ++ ['\n']

end Failure

end CommandLine

end Applesoft
