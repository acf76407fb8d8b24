import Applesoft.Program
import Applesoft.Error

/-!
# Memory images

A program in memory is one record per line: a link to the next record's address, the line number,
the statements with a colon between them, and a zero. A null link follows the last record.
-/
namespace Applesoft

namespace MemoryImage

def memorySize : Nat := 65536

def word (n : Nat) : List UInt8 :=
  [UInt8.ofNat n, UInt8.ofNat (n / 256)]

def colonByte : UInt8 := 0x3A

def quoteByte : UInt8 := 0x22

def spaceByte : UInt8 := 0x20

structure Record where
  address : Nat
  number : UInt16
  body : List UInt8
  deriving DecidableEq, Repr

namespace Record

def next (r : Record) : Nat :=
  r.address + r.body.length + 5

def bytes (r : Record) : List UInt8 :=
  word r.next ++ word r.number.toNat ++ r.body ++ [0]

end Record

def ascii (line : Nat) : Text → Except Error (List UInt8)
  | [] => .ok []
  | c :: rest =>
    if c.toNat < 128 then (ascii line rest).map (UInt8.ofNat c.toNat :: ·)
    else .error (.notAscii line c)

/-- The bytes of a token. The space before a comment is stored unless the comment is empty. -/
def tokenBytes (t : Token) : Except Error (List UInt8) :=
  match t.kind with
  | .lineEnd => .ok []
  | .number value => ascii t.line value.listingText
  | .keyword k => .ok [k.code]
  | .identifier name => ascii t.line name.toUpper
  | .quoted text => (ascii t.line text).map fun b => quoteByte :: b ++ [quoteByte]
  | .directive name => .error (.unsupportedDirective t.line name)
  | .comment text =>
    (ascii t.line text).map fun b =>
      Keyword.rem.code :: (if text.isEmpty then [] else [spaceByte]) ++ b
  | .punct c => ascii t.line [c]

def statementBytes : Statement → Except Error (List UInt8)
  | [] => .ok []
  | t :: rest =>
    match tokenBytes t with
    | .error e => .error e
    | .ok b => (statementBytes rest).map (b ++ ·)

/-- The source line reached at the start of a statement: that of its first token, if it has one. -/
def sourceLineAt (current : Nat) (s : Statement) : Nat :=
  match s with
  | t :: _ => t.line
  | [] => current

def bodyBytes (current : Nat) : List Statement → Nat × Except Error (List UInt8)
  | [] => (current, .ok [])
  | s :: rest =>
    let here := sourceLineAt current s
    match statementBytes s with
    | .error e => (here, .error e)
    | .ok b =>
      let (reached, more) := bodyBytes here rest
      (reached, more.map fun m => if rest.isEmpty then b else b ++ colonByte :: m)

structure Layout where
  records : List Record
  fault : Option Error
  sourceLine : Nat
  deriving DecidableEq, Repr

namespace Layout

/-- Lays out lines from an address on, after a line with the number `previous`, where `current` is
the source line reached so far. -/
def start (address : Nat) (previous : Option UInt16) (current : Nat) : List Line → Layout
  | [] =>
    if address + 2 ≤ memorySize then ⟨[], none, current⟩
    else ⟨[], some (.endBeyondMemory current address), current⟩
  | l :: rest =>
    let current := sourceLineAt current (l.statements.headD [])
    match previous.filter (l.number ≤ ·) with
    | some p => ⟨[], some (.notAscending current l.number p), current⟩
    | none =>
      match bodyBytes current l.statements with
      | (reached, .error e) => ⟨[], some e, reached⟩
      | (reached, .ok body) =>
        let record : Record := ⟨address, l.number, body⟩
        if record.next < memorySize then
          let more := start record.next (some l.number) reached rest
          { more with records := record :: more.records }
        else ⟨[], some (.lineBeyondMemory reached), reached⟩

def image (l : Layout) : Except Error (List UInt8) :=
  match l.fault with
  | none => .ok (l.records.flatMap Record.bytes ++ [0, 0])
  | some e => .error e

def log (l : Layout) : List LogEntry :=
  (l.records.map fun r =>
    .debug ("line ".toList ++ Text.ofNat r.number.toNat ++ " at ".toList ++
      Text.ofHex 4 r.address)) ++
  (l.fault.map Error.log).getD []

end Layout

end MemoryImage

namespace Program

def layout (current : Nat) (address : UInt16) (p : Program) : MemoryImage.Layout :=
  .start address.toNat none current p.lines

def image (address : UInt16) (p : Program) : Except Error (List UInt8) :=
  (p.layout 0 address).image

end Program

end Applesoft
