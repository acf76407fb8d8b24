import Applesoft.Text

/-!
# Text without terminal controls

What a reader sees of a text that may carry control characters and the escape sequences of
terminals, as `Terminal.plain` leaves it.
-/
namespace Applesoft.Terminal

/-- What an escape sequence that has begun consists of so far. -/
inductive Part
  /-- The escape character. -/
  | escape
  /-- The escape character and intermediate characters. -/
  | intermediates
  /-- The start of a control sequence. -/
  | control
  /-- The start of a system command. -/
  | command
  /-- The start of a device string. -/
  | deviceStart
  /-- A device string with parameters. -/
  | deviceParameters
  /-- A device string with intermediate characters. -/
  | deviceIntermediates
  /-- A string up to its terminator. -/
  | body
  deriving DecidableEq, Repr

inductive State
  | ground
  /-- Inside a sequence, of which nothing is shown. -/
  | inside (part : Part)
  /-- Inside a sequence, but back in plain text since a blank; a control character ends that. -/
  | suspended (part : Part)
  deriving DecidableEq, Repr

def escapeChar : Char := '\x1b'

def isCancel (c : Char) : Bool :=
  c = '\x18' || c = '\x1a'

def isBlankControl (c : Char) : Bool :=
  c = '\t' || c = '\n' || c = '\x0c' || c = '\r'

def isAscii (c : Char) : Bool :=
  c.toNat < 128

def isShown (c : Char) : Bool :=
  !isAscii c || (' ' ≤ c && c ≤ '~') || isBlankControl c

/-- Whether the byte 9C, which ends a string, is in the encoding of a character. -/
def holdsTerminator (c : Char) : Bool :=
  (String.utf8EncodeChar c).contains 0x9C

def Part.next (part : Part) (c : Char) : Option Part :=
  let isIntermediate := ' ' ≤ c && c ≤ '/'
  let isFinal := '@' ≤ c && c ≤ '~'
  match part with
  | .escape =>
    if isIntermediate then some .intermediates
    else if c = '[' then some .control
    else if c = ']' then some .command
    else if c = 'P' then some .deviceStart
    else if c = 'X' || c = '^' || c = '_' then some .body
    else if '0' ≤ c && c ≤ '~' then none
    else some .escape
  | .intermediates => if '0' ≤ c && c ≤ '~' then none else some .intermediates
  | .control => if isFinal then none else some .control
  | .command => if c = '\x07' then none else some .command
  | .deviceStart =>
    if isIntermediate then some .deviceIntermediates
    else if '0' ≤ c && c ≤ '?' then some .deviceParameters
    else if isFinal then some .body
    else some .deviceStart
  | .deviceParameters =>
    if isIntermediate then some .deviceIntermediates
    else if '<' ≤ c && c ≤ '~' then some .body
    else some .deviceParameters
  | .deviceIntermediates => if '0' ≤ c && c ≤ '~' then some .body else some .deviceIntermediates
  | .body => if holdsTerminator c then none else some .body

/-- Whether white space is shown inside a sequence rather than taken as text of a string. -/
def Part.showsBlanks : Part → Bool
  | .escape | .intermediates | .control => true
  | _ => false

def State.step (s : State) (c : Char) : State × Bool :=
  if isCancel c then (.ground, false)
  else if c = escapeChar then (.inside .escape, false)
  else
    match s with
    | .ground => (.ground, isShown c)
    | .suspended part =>
      if !isAscii c then (.ground, true)
      else if isShown c then (.suspended part, true)
      else (.inside part, false)
    | .inside part =>
      if part.showsBlanks && isBlankControl c then (.suspended part, true)
      else
        match part.next c with
        | some part => (.inside part, false)
        | none => (.ground, false)

def State.plain : State → Text → Text
  | _, [] => []
  | s, c :: rest =>
    let (s', shown) := s.step c
    if shown then c :: s'.plain rest else s'.plain rest

/-- The text without control characters, other than white space, and without escape sequences. -/
def plain (t : Text) : Text :=
  State.ground.plain t

end Applesoft.Terminal
