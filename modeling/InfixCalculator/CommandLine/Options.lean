import InfixCalculator.CommandLine.Word
import InfixCalculator.Settings

/-!
What a command line asks for. The expressions have to stand together; an option
given twice counts the second time. An option whose argument is the separator is
left blank: so it is in releases of the argument parser before 3.11.10, while later
ones take the separator for the argument.
-/
namespace InfixCalculator.CommandLine

structure Options where
  expressions : List String
  /-- None if it is left blank. -/
  form : Option Notation
  /-- The file of expressions; an empty name stands for none. -/
  source : String
  /-- The file for the results; an empty name stands for none. -/
  target : String
  /-- None if it is left blank. -/
  threshold : Option String
  deriving DecidableEq, Repr

inductive UsageFault where
  | ambiguous (word : String)
  | missingArgument (flag : Flag)
  | unusedArgument (argument : String)
  | unknownNotation (name : String)
  | unrecognized (words : List String)
  deriving DecidableEq, Repr

def UsageFault.message : UsageFault → String
  | .ambiguous word =>
    "ambiguous option: " ++ word ++ " could match " ++
      ", ".intercalate (Flag.all.map Flag.longName)
  | .missingArgument flag => "argument " ++ flag.label ++ ": expected one argument"
  | .unusedArgument argument =>
    "argument " ++ Flag.help.label ++ ": ignored explicit argument " ++ quoted argument
  | .unknownNotation name =>
    "argument " ++ Flag.form.label ++ ": invalid choice: " ++ quoted name ++ " (choose from " ++
      ", ".intercalate (Notation.names.map quoted) ++ ")"
  | .unrecognized words => "unrecognized arguments: " ++ " ".intercalate words

inductive Request where
  | help
  | refused (fault : UsageFault)
  | start (options : Options)
  deriving DecidableEq, Repr

structure Reading where
  options : Options
  /-- The words of the group of expressions, separator included. -/
  group : List String
  /-- Whether the group has been ended by an option. -/
  closed : Bool
  unrecognized : List String
  deriving DecidableEq, Repr

namespace Reading

def initial (s : Settings) : Reading where
  options := ⟨[], some ((Notation.ofName? s.usualNotation).getD .value), "", "", some s.threshold⟩
  group := []
  closed := false
  unrecognized := []

/-- A word that is no option belongs to the first group of such words, or to
nothing. -/
def takeWord (word : String) (r : Reading) : Reading :=
  if r.closed then { r with unrecognized := r.unrecognized ++ [word] }
  else { r with group := r.group ++ [word] }

/-- An option ends the group of expressions if it has begun. -/
def endGroup (r : Reading) : Reading :=
  { r with closed := r.closed || !r.group.isEmpty }

def leaveBlank (flag : Flag) (r : Reading) : Reading :=
  match flag with
  | .help => r
  | .form => { r with options.form := none }
  | .source => { r with options.source := "" }
  | .target => { r with options.target := "" }
  | .threshold => { r with options.threshold := none }

def setOption (flag : Flag) (argument : String) (r : Reading) : Except UsageFault Reading :=
  match flag with
  | .help => .error (.unusedArgument argument)
  | .form =>
    match Notation.ofName? argument with
    | some n => .ok { r with options.form := some n }
    | none => .error (.unknownNotation argument)
  | .source => .ok { r with options.source := argument }
  | .target => .ok { r with options.target := argument }
  | .threshold => .ok { r with options.threshold := some argument }

/-- The first separator of the group is not an expression. -/
def finish (r : Reading) : Request :=
  if r.unrecognized.isEmpty then
    .start { r.options with expressions := r.group.erase "--" }
  else .refused (.unrecognized r.unrecognized)

/-- Reads the words in order, up to the first mistake or request for help. -/
def run : List Word → Reading → Request
  | [], r => r.finish
  | .plain text :: rest, r => run rest (r.takeWord text)
  | .separator :: rest, r => run rest (r.takeWord "--")
  | .unknown text :: rest, r =>
    run rest { r.endGroup with unrecognized := r.unrecognized ++ [text] }
  | .helpWith argument :: _, _ => .refused (.unusedArgument argument)
  | .option .help _ :: _, _ => .help
  | .option flag (some "--") :: rest, r => run rest (r.endGroup.leaveBlank flag)
  | .option flag (some argument) :: rest, r =>
    match r.endGroup.setOption flag argument with
    | .ok r => run rest r
    | .error fault => .refused fault
  | .option flag none :: .plain argument :: rest, r =>
    match r.endGroup.setOption flag argument with
    | .ok r => run rest r
    | .error fault => .refused fault
  | .option flag none :: _, _ => .refused (.missingArgument flag)

end Reading

def Request.ofArguments (s : Settings) (arguments : List String) : Request :=
  match words arguments with
  | .error word => .refused (.ambiguous word)
  | .ok words => Reading.run words (.initial s)

def Options.source? (o : Options) : Option String :=
  if o.source.isEmpty then none else some o.source

def Options.target? (o : Options) : Option String :=
  if o.target.isEmpty then none else some o.target

end InfixCalculator.CommandLine
