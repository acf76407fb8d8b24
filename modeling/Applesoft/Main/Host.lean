import Applesoft.Main.Arguments
import Applesoft.Main.JsonReader
import Applesoft.Main.Terminal

/-!
# The functions that the program runs with

Records are written without the time and the place in the program. Lines of a message after the first are
indented, and the terminal is left alone.
-/
namespace Applesoft.CommandLine

def plainBody (message : Text) : Text :=
  Terminal.plain (message.flatMap (fun c => if c = '\n' then "\n    ".toList else [c]) ++ ['\n'])

def commandScript (shell : Text) : Text :=
  let names := (" ".intercalate (Command.all.map Command.name)).toList
  let program := programName.toList
  if shell = "zsh".toList then
    "#compdef ".toList ++ program ++ "\ncompadd ".toList ++ names ++ ['\n']
  else if shell = "fish".toList then
    "complete -c ".toList ++ program ++ " -f -a '".toList ++ names ++ "'\n".toList
  else if shell = "bash".toList then
    "complete -W '".toList ++ names ++ "' ".toList ++ program ++ ['\n']
  else "# ".toList ++ program ++ ": ".toList ++ names ++ ['\n']

def Host.plain : Host where
  readArguments := CommandLine.readArguments
  readJson := Json.read
  header _ level := level.name ++ [' ']
  body _ e := plainBody e.message
  completionScript := commandScript

end Applesoft.CommandLine
