import Applesoft.Lexeme
import Applesoft.Log

/-!
# Errors

Every cause for which source text, a program or a renumbering is refused, with what is told about it.
-/
namespace Applesoft

inductive Error
  /-- A lexeme stands where none of its kind can. -/
  | unexpectedLexeme (line : Nat) (found : Lexeme)
  /-- The input ends after a backslash. -/
  | openContinuation (line : Nat)
  /-- A keyword lacks the mark that completes it. -/
  | missingMark (line : Nat) (keyword : Keyword) (mark : Char)
  /-- A line of the input is not UTF-8. -/
  | undecodable
  | missingLineNumber (line : Nat)
  | badLineNumber (line : Nat) (value : Binary64)
  /-- A line number is not above the one before it. -/
  | notAscending (line : Nat) (number previous : UInt16)
  | unsupportedDirective (line : Nat) (name : Text)
  | notAscii (line : Nat) (c : Char)
  /-- The next line's address does not fit in 16 bits. -/
  | lineBeyondMemory (line : Nat)
  /-- The lines fit but the null link after them does not. -/
  | endBeyondMemory (line : Nat) (address : Nat)
  /-- Line `old` would get a number that is too large. -/
  | numberOutOfRange (old new : Nat)
  /-- Line `old` would get a number that is not above the one before it. -/
  | numberOutOfOrder (old new previous : Nat)
  /-- A pass over a program was stopped by its visitor. -/
  | visitorStopped
  deriving DecidableEq, Repr

/-- Errors that are told in the same words are of one kind. -/
inductive Error.Kind
  | unexpectedLexeme | missingMark | undecodable | missingLineNumber | invalidLineNumber
  | unsupportedDirective | notAscii | outOfMemory | renumbering
  deriving DecidableEq, Repr

namespace Error

def kind : Error → Kind
  | .unexpectedLexeme .. | .openContinuation .. => .unexpectedLexeme
  | .missingMark .. => .missingMark
  | .undecodable => .undecodable
  | .missingLineNumber .. => .missingLineNumber
  | .badLineNumber .. | .notAscending .. => .invalidLineNumber
  | .unsupportedDirective .. => .unsupportedDirective
  | .notAscii .. => .notAscii
  | .lineBeyondMemory .. | .endBeyondMemory .. => .outOfMemory
  | .numberOutOfRange .. | .numberOutOfOrder .. | .visitorStopped => .renumbering

def line? : Error → Option Nat
  | .unexpectedLexeme line _ | .openContinuation line | .missingMark line _ _
  | .missingLineNumber line | .badLineNumber line _ | .notAscending line _ _
  | .unsupportedDirective line _ | .notAscii line _ | .lineBeyondMemory line
  | .endBeyondMemory line _ => some line
  | .undecodable | .numberOutOfRange .. | .numberOutOfOrder .. | .visitorStopped => none

def reason : Error → Text
  | .unexpectedLexeme _ found => "unexpected ".toList ++ found.shown
  | .openContinuation _ => "unexpected end of input after `\\`".toList
  | .missingMark _ keyword mark =>
    "expecting `".toList ++ [mark] ++ "` to complete `".toList ++ keyword.spelling ++ "`".toList
  | .undecodable => "stream did not contain valid UTF-8".toList
  | .missingLineNumber _ => "expecting a line number".toList
  | .badLineNumber _ value => "invalid line number ".toList ++ value.listingText
  | .notAscending _ number _ => "invalid line number ".toList ++ Text.ofNat number.toNat
  | .unsupportedDirective _ name =>
    "directive `".toList ++ name ++ "` is not supported".toList
  | .notAscii _ c => "character `".toList ++ [c] ++ "` cannot be tokenized".toList
  | .lineBeyondMemory _ | .endBeyondMemory _ _ => "program runs past end of memory".toList
  | .numberOutOfRange _ new =>
    "renumber failed: line number ".toList ++ Text.ofNat new ++ " is out of range".toList
  | .numberOutOfOrder _ new _ =>
    "renumber failed: line number ".toList ++ Text.ofNat new ++ " is out of order".toList
  | .visitorStopped => "renumber failed: visitor stopped".toList

def message (e : Error) : Text :=
  match e.line? with
  | some line => "line ".toList ++ Text.ofNat line ++ ": ".toList ++ e.reason
  | none => e.reason

def log : Error → List LogEntry
  | .notAscending _ number previous =>
    [.error ("line ".toList ++ Text.ofNat number.toNat ++ " follows line ".toList ++
      Text.ofNat previous.toNat)]
  | .unsupportedDirective _ name => [.error ("no handler for directive ".toList ++ name)]
  | .endBeyondMemory _ address =>
    [.error ("program ends at ".toList ++ Text.ofHex 4 address ++
      ", no room for the end marker".toList)]
  | .numberOutOfRange old new =>
    [.error ("line ".toList ++ Text.ofNat old ++ " would become ".toList ++ Text.ofNat new)]
  | .numberOutOfOrder old new previous =>
    [.error ("line ".toList ++ Text.ofNat old ++ " would become ".toList ++ Text.ofNat new ++
      " following ".toList ++ Text.ofNat previous)]
  | _ => []

end Error

end Applesoft
