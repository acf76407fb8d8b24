import Applesoft.CommandLine.Host

/-!
# Arguments

A command, then options with one value each. An option is given at most once, as `--name value`,
`--name=value`, `-n value`, `-nvalue` or `-n=value`; a value that is an argument of its own does not
start with a minus unless it is nothing else.
-/
namespace Applesoft.CommandLine

def programName : String := "a2bas"

def version : String := "0.1.0"

def helpText (rules : Command → CommandRule) : Text :=
  ("Lexes, tokenizes, and transforms Applesoft BASIC.\n\nUsage: " ++ programName ++
    " [COMMAND]\n\nCommands:\n").toList ++
  Command.all.flatMap fun c =>
    ("  " ++ (rules c).name).toList ++ List.replicate (13 - (rules c).name.length) ' ' ++
      (rules c).about.toList ++ ['\n']

def answer (t : Text) : Request :=
  .answered ⟨0, (String.ofList t).toUTF8.toList, []⟩

def rejected : Request :=
  .answered ⟨2, [], ("error: the arguments do not fit together, try `" ++ programName ++
    " --help`\n").toList⟩

def commandOf? (rules : Command → CommandRule) (t : Text) : Option Command :=
  Command.all.find? fun c => ((rules c).name :: (rules c).aliases).any (·.toList = t)

def giveValue (rule : OptionRule) (value : Text) (given : List (String × Text)) :
    Option (List (String × Text)) :=
  if (given.lookup rule.name).isSome then none
  else if !rule.choices.isEmpty && !rule.choices.any (·.toList = value) then none
  else some (given ++ [(rule.name, value)])

def splitLong (body : Text) : Text × Option Text :=
  match body.dropWhile (· != '=') with
  | [] => (body, none)
  | _ :: value => (body.takeWhile (· != '='), some value)

inductive Form
  | help
  | endOfOptions
  | option (rule : OptionRule) (value : Option Text)
  | bad
  deriving DecidableEq, Repr

def formOf (rules : List OptionRule) (arg : Text) : Form :=
  match arg with
  | ['-', '-'] => .endOfOptions
  | '-' :: '-' :: body =>
    let (name, value) := splitLong body
    if name = "help".toList then if value.isSome then .bad else .help
    else
      match rules.find? (·.name.toList = name) with
      | some rule => .option rule value
      | none => .bad
  | '-' :: c :: rest =>
    if c = 'h' then .help
    else
      match rules.find? (·.short = some c) with
      | some rule =>
        match rest with
        | [] => .option rule none
        | '=' :: value => .option rule (some value)
        | value => .option rule (some value)
      | none => .bad
  | _ => .bad

def looksLikeOption (arg : Text) : Bool :=
  match arg with
  | '-' :: _ :: _ => true
  | _ => false

section Reading

variable (rules : Command → CommandRule) (command : Command)

def complete (given : List (String × Text)) : Request :=
  if (rules command).options.all fun rule => !rule.required || (given.lookup rule.name).isSome then
    .command command given
  else rejected

/-- Reads the arguments of a command; `awaiting` is an option whose value comes next. -/
def readOptions (awaiting : Option OptionRule) (given : List (String × Text)) : List Text → Request
  | [] => if awaiting.isSome then rejected else complete rules command given
  | arg :: rest =>
    match awaiting with
    | some rule =>
      if looksLikeOption arg then rejected
      else
        match giveValue rule arg given with
        | some given => readOptions none given rest
        | none => rejected
    | none =>
      match formOf (rules command).options arg with
      | .help => answer (helpText rules)
      | .endOfOptions => if rest.isEmpty then complete rules command given else rejected
      | .option rule none => readOptions (some rule) given rest
      | .option rule (some value) =>
        match giveValue rule value given with
        | some given => readOptions none given rest
        | none => rejected
      | .bad => rejected

def readHelp : List Text → Request
  | [] => answer (helpText rules)
  | [name] =>
    if name = "help".toList ∨ (commandOf? rules name).isSome then answer (helpText rules) else rejected
  | _ => rejected

def readArguments : List Text → Request
  | [] => .nothing
  | first :: rest =>
    if first = "help".toList then readHelp rules rest
    else
      match commandOf? rules first with
      | some c => readOptions rules c none [] rest
      | none =>
        match first with
        | ['-', '-'] => if rest.isEmpty then .nothing else rejected
        | '-' :: '-' :: name =>
          if name = "help".toList then answer (helpText rules)
          else if name = "version".toList then answer (programName ++ " " ++ version ++ "\n").toList
          else rejected
        | '-' :: 'h' :: _ => answer (helpText rules)
        | '-' :: 'V' :: _ => answer (programName ++ " " ++ version ++ "\n").toList
        | _ => rejected

end Reading

end Applesoft.CommandLine
