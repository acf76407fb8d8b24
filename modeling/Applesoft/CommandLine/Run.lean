import Applesoft.CommandLine.Failure
import Applesoft.CommandLine.Host
import Applesoft.Lexer
import Applesoft.MemoryImage
import Applesoft.Renumbering

/-!
# Running a command

What each command makes of its options and its input. A command that fails writes nothing of its
result; only `lex` writes each token as soon as it is read.
-/
namespace Applesoft.CommandLine

structure Logged (α : Type) where
  log : List LogEntry
  value : Except Failure α
  deriving Repr

namespace Logged

instance : Monad Logged where
  pure a := ⟨[], .ok a⟩
  bind x f :=
    match x.value with
    | .error failure => ⟨x.log, .error failure⟩
    | .ok a => ⟨x.log ++ (f a).log, (f a).value⟩

def fail {α : Type} (failure : Failure) (message : Text) : Logged α :=
  ⟨[.error message], .error failure⟩

def say (entries : List LogEntry) : Logged Unit := ⟨entries, .ok ()⟩

end Logged

def settingsOf (readJson : Json.Reader) (config : Option Text) : Logged Settings :=
  match config with
  | none => pure .initial
  | some text =>
    match Settings.parse readJson text with
    | (warnings, .ok settings) => ⟨warnings, .ok settings⟩
    | (warnings, .error e) =>
      ⟨warnings ++ [.error ("could not parse settings: ".toList ++ e.message)],
        .error (.settings e)⟩

def numberOf (values : List (String × Text)) (name : String) (default : Nat) : Logged Nat :=
  match values.lookup name with
  | none => pure default
  | some text =>
    match IntegerText.read text with
    | .ok n => pure n
    | .error e =>
      .fail (.integer e)
        (text ++ " is not a valid number for `".toList ++ name.toList ++ "`".toList)

def sourceOf (c : Command) (input : List UInt8) : Logged Text :=
  match SourceBytes.decode? input with
  | none =>
    .fail .undecodable
      ("the file to ".toList ++ c.name.toList ++ " could not be interpreted as a string".toList)
  | some [] =>
    .fail .invalidCommand
      (c.name.toList ++ " did not receive any data from previous node".toList)
  | some source => pure source

def programOf (source : Text) : Logged Program := do
  Logged.say (Program.parseLog source)
  match Program.parse 0 source with
  | .ok p => pure p
  | .error e => .fail (.language e) e.message

def bytesOf (t : Text) : List UInt8 :=
  (String.ofList t).toUTF8.toList

def tokenize (readJson : Json.Reader) (values : List (String × Text)) (input : List UInt8) :
    Logged (List UInt8) := do
  let settings ← settingsOf readJson (values.lookup "config")
  let address ← numberOf values "addr" settings.address.toNat
  if address < 65536 then
    let source ← sourceOf .tokenize input
    let p ← programOf source
    let layout := p.layout 0 (UInt16.ofNat address)
    Logged.say layout.log
    match layout.image with
    | .ok bytes =>
      Logged.say [.info ("tokenized ".toList ++ Text.ofNat bytes.length ++ " bytes at ".toList ++
        Text.ofHex 4 address)]
      pure bytes
    | .error e => .fail (.language e) e.message
  else .fail .outOfRange ("address ".toList ++ Text.ofNat address ++ " is out of range".toList)

def renumber (readJson : Json.Reader) (values : List (String × Text)) (input : List UInt8) :
    Logged (List UInt8) := do
  let settings ← settingsOf readJson (values.lookup "config")
  let lowest ← numberOf values "beg" 0
  let bound ← numberOf values "end" Renumbering.maxCount
  let first ← numberOf values "first" settings.first
  let step ← numberOf values "step" settings.step
  if step = 0 then .fail .outOfRange "step must be positive".toList
  else
    let source ← sourceOf .renumber input
    let p ← programOf source
    let r : Renumbering := ⟨lowest, bound, first, step⟩
    -- what refuses a renumbering is logged by the pass
    Logged.say (p.renumberLog r)
    match p.renumber r with
    | .ok p => pure (bytesOf (p.listing settings.letters))
    | .error e => ⟨[], .error (.language e)⟩

def list (readJson : Json.Reader) (values : List (String × Text)) (input : List UInt8) :
    Logged (List UInt8) := do
  let settings ← settingsOf readJson (values.lookup "config")
  let source ← sourceOf .list input
  let p ← programOf source
  pure (bytesOf (p.listing settings.letters))

namespace Host

variable (host : Host) (limit : Option LogLevel)

def messages (log : List LogEntry) (failure : Option Failure) : Text :=
  host.written (log.filter (·.isShown limit)) ++ (failure.map Failure.report).getD []

def outcome (l : Logged (List UInt8)) : Outcome :=
  match l.value with
  | .ok bytes => ⟨0, bytes, host.messages limit l.log none⟩
  | .error failure => ⟨1, [], host.messages limit l.log (some failure)⟩

def lex (input : List UInt8) : Outcome :=
  let lexed := (Lexer.ofBytes input).lexed
  let output := bytesOf (lexed.tokens.flatMap fun t => t.display ++ ['\n'])
  match lexed.fault with
  | none => ⟨0, output, "✓ ".toList ++ Text.ofNat lexed.tokens.length ++ " tokens\n".toList⟩
  | some e =>
    ⟨1, output, "✗ Lexical error\n".toList ++
      host.messages limit [.error e.message] (some (.language e))⟩

def completions (shell : Option Text) : Outcome :=
  match shell.filter fun shell => Command.shells.any (·.toList = shell) with
  | some shell => ⟨0, bytesOf (host.completionScript shell), []⟩
  | none => ⟨1, [], Failure.invalidCommand.report⟩

/-- Runs the program on arguments and input; log entries are shown up to `limit`. -/
def run (arguments : List Text) (input : List UInt8) : Outcome :=
  match host.readArguments Command.rule arguments with
  | .answered o => o
  | .nothing =>
    ⟨1, [], host.messages limit
      [.error "No subcommand was found, try `a2bas --help`".toList] (some .invalidCommand)⟩
  | .command .lex _ => host.lex limit input
  | .command .tokenize values => host.outcome limit (tokenize host.readJson values input)
  | .command .renumber values => host.outcome limit (renumber host.readJson values input)
  | .command .list values => host.outcome limit (list host.readJson values input)
  | .command .completions values => host.completions (values.lookup "shell")

end Host

end Applesoft.CommandLine
