import Applesoft.Text

/-!
# Log entries
-/
namespace Applesoft

inductive LogLevel
  | error | warn | info | debug | trace
  deriving DecidableEq, Repr

structure LogEntry where
  level : LogLevel
  message : Text
  deriving DecidableEq, Repr

namespace LogLevel

def severity : LogLevel → Nat
  | .error => 1
  | .warn => 2
  | .info => 3
  | .debug => 4
  | .trace => 5

def name : LogLevel → Text
  | .error => "ERROR".toList
  | .warn => "WARN".toList
  | .info => "INFO".toList
  | .debug => "DEBUG".toList
  | .trace => "TRACE".toList

end LogLevel

namespace LogEntry

def error (message : Text) : LogEntry := ⟨.error, message⟩

def warn (message : Text) : LogEntry := ⟨.warn, message⟩

def info (message : Text) : LogEntry := ⟨.info, message⟩

def debug (message : Text) : LogEntry := ⟨.debug, message⟩

def isShown (limit : Option LogLevel) (e : LogEntry) : Bool :=
  match limit with
  | some l => e.level.severity ≤ l.severity
  | none => false

end LogEntry

end Applesoft
