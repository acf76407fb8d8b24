import Applesoft.CommandLine.Command
import Applesoft.Json
import Applesoft.Log

/-!
# What the program is built on

Arguments are read, JSON texts are read, log records are written and completion scripts are made
elsewhere. A run of the program goes by any such functions.
-/
namespace Applesoft.CommandLine

structure Outcome where
  exitCode : Nat
  output : List UInt8
  /-- What is written beside the output. -/
  messages : Text
  deriving DecidableEq, Repr

inductive Request
  /-- Nothing of the program: the reader of the arguments has refused them or given help. -/
  | answered (o : Outcome)
  | nothing
  | command (c : Command) (values : List (String × Text))
  deriving DecidableEq, Repr

/-- The functions that come from elsewhere. A record of a run is known by how many come before it, since
its header also tells the time and the place in the program. -/
structure Host where
  readArguments : (Command → CommandRule) → List Text → Request
  readJson : Json.Reader
  header : Nat → LogLevel → Text
  body : Nat → LogEntry → Text
  completionScript : Text → Text

namespace Host

/-- What is relied on of log records: the header of each is on one line and names the level. -/
structure NamesLevels (host : Host) : Prop where
  name : ∀ n level, level.name <:+: host.header n level
  line : ∀ n level, ∀ c ∈ host.header n level, c ≠ '\n' ∧ c ≠ '\r'

def written (host : Host) (entries : List LogEntry) : Text :=
  (entries.mapIdx fun n e => host.header n e.level ++ host.body n e).flatten

end Host

end Applesoft.CommandLine
