import Applesoft.Decimal
import Applesoft.Keyword

/-!
# Tokens
-/
namespace Applesoft

inductive TokenKind
  | lineEnd
  | number (value : Binary64)
  | keyword (k : Keyword)
  /-- A variable as written, with its sigil, and with `(` after it if it is an array. -/
  | identifier (name : Text)
  /-- A string, without its quotes. -/
  | quoted (text : Text)
  /-- An instruction to a tool, which starts with `$`. -/
  | directive (name : Text)
  /-- The text after `REM`. -/
  | comment (text : Text)
  /-- Punctuation that is no keyword. -/
  | punct (c : Char)
  deriving DecidableEq, Repr

/-- A token and the source line, counted from 1, on which it begins. -/
structure Token where
  line : Nat
  kind : TokenKind
  deriving DecidableEq, Repr

def Token.isLineEnd (t : Token) : Bool :=
  t.kind = .lineEnd

def TokenKind.display : TokenKind → Text
  | .lineEnd => "EOL".toList
  | .number value => "NUMBER ".toList ++ value.listingText
  | .keyword k => "KEYWORD ".toList ++ k.spelling
  | .identifier name => "IDENT ".toList ++ name
  | .quoted text => "STRING \"".toList ++ text ++ "\"".toList
  | .directive name => "DIRECTIVE ".toList ++ name
  | .comment text => "COMMENT ".toList ++ text
  | .punct c => "SYNTAX ".toList ++ [c]

def Token.display (t : Token) : Text :=
  Text.ofNat t.line ++ ": ".toList ++ t.kind.display

end Applesoft
