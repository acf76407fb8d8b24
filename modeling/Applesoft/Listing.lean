import Applesoft.Program

/-!
# Listings

The source text of a program: one line each, keywords in full, and a blank wherever two tokens side
by side would otherwise read as one word.
-/
namespace Applesoft

namespace TokenKind

def startsWithLetter : TokenKind → Bool
  | .keyword k => (k.spelling.head?.map Char.isAlpha).getD false
  | _ => false

def endsWithLetter : TokenKind → Bool
  | .keyword k => (k.spelling.getLast?.map Char.isAlpha).getD false
  | _ => false

/-- Names, numbers and directives could run on into a word or number after them. -/
def isWordLike : TokenKind → Bool
  | .identifier _ | .number _ | .directive _ => true
  | _ => false

/-- An array name ends with its parenthesis, not like a word. -/
def endsWordLike : TokenKind → Bool
  | .identifier name => name.getLast? != some '('
  | k => k.isWordLike

def needsBlank (before after : TokenKind) : Bool :=
  before.endsWithLetter || after.startsWithLetter || (before.endsWordLike && after.isWordLike)

def listed (letters : LetterCase) : TokenKind → Text
  | .lineEnd => []
  | .number value => value.listingText
  | .keyword k => letters.apply k.spelling
  | .identifier name => letters.apply name
  | .quoted text => '"' :: text ++ ['"']
  | .directive name => name
  | .comment [] => letters.apply Keyword.rem.spelling
  | .comment text => letters.apply Keyword.rem.spelling ++ ' ' :: text
  | .punct c => [c]

end TokenKind

namespace Listing

def tokensAfter (letters : LetterCase) (before : TokenKind) : List Token → Text
  | [] => []
  | t :: rest =>
    (if before.needsBlank t.kind then [' '] else []) ++ t.kind.listed letters ++
      tokensAfter letters t.kind rest

def statement (letters : LetterCase) : Statement → Text
  | [] => []
  | t :: rest => t.kind.listed letters ++ tokensAfter letters t.kind rest

def statements (letters : LetterCase) : List Statement → Text
  | [] => []
  | s :: rest => ' ' :: statement letters s ++ rest.flatMap fun s => ':' :: statement letters s

def line (letters : LetterCase) (l : Line) : Text :=
  Text.ofNat l.number.toNat ++ statements letters l.statements ++ ['\n']

end Listing

def Program.listing (letters : LetterCase) (p : Program) : Text :=
  p.lines.flatMap (Listing.line letters)

end Applesoft
