import Applesoft.Text

/-!
# Commands

What can be asked for on the command line. The rules are what the reader of the arguments goes by.
-/
namespace Applesoft.CommandLine

/-- An option with a value; with `choices` it takes only one of them. -/
structure OptionRule where
  name : String
  short : Option Char
  choices : List String
  required : Bool
  deriving DecidableEq, Repr

structure CommandRule where
  name : String
  aliases : List String
  about : String
  options : List OptionRule
  deriving DecidableEq, Repr

inductive Command
  | lex | tokenize | renumber | list | completions
  deriving DecidableEq, Repr

namespace Command

def all : List Command := [.lex, .tokenize, .renumber, .list, .completions]

def config : OptionRule := ⟨"config", none, [], false⟩

def number (name : String) (short : Char) : OptionRule := ⟨name, some short, [], false⟩

def shells : List String := ["bash", "elv", "fish", "ps1", "zsh"]

def rule : Command → CommandRule
  | .lex => ⟨"lex", [], "read from stdin, write one token per line to stdout", []⟩
  | .tokenize =>
    ⟨"tokenize", ["tok"], "read from stdin, tokenize, write to stdout", [number "addr" 'a', config]⟩
  | .renumber =>
    ⟨"renumber", [], "renumber BASIC program lines",
      [number "beg" 'b', number "end" 'e', number "first" 'f', number "step" 's', config]⟩
  | .list => ⟨"list", [], "read from stdin, write normalized listing to stdout", [config]⟩
  | .completions =>
    ⟨"completions", [], "write completions script to stdout", [⟨"shell", some 's', shells, true⟩]⟩

def name (c : Command) : String := c.rule.name

end Command

end Applesoft.CommandLine
