import InfixCalculator.Text.DecimalDigit
import InfixCalculator.Text.Quoted

/-!
The words of a command line by their form: options, which begin with a dash, the
separator that ends them, and plain words. A long option may be cut short as long
as no other one begins the same way, and may carry its argument behind an equals
sign.
-/
namespace InfixCalculator.CommandLine

inductive Flag where
  | help
  | form
  | source
  | target
  | threshold
  deriving DecidableEq, Repr

namespace Flag

def all : List Flag := [.help, .form, .source, .target, .threshold]

def longName : Flag → String
  | .help => "--help"
  | .form => "--notation"
  | .source => "--file"
  | .target => "--output_path"
  | .threshold => "--log_level"

/-- The names of the flag as messages give them. -/
def label : Flag → String
  | .help => "-h/--help"
  | flag => flag.longName

def ofLongName? (name : String) : Option Flag := all.find? (·.longName == name)

def completions (start : String) : List Flag := all.filter (·.longName.startsWith start)

end Flag

inductive Word where
  | plain (text : String)
  | separator
  | option (flag : Flag) (argument : Option String)
  /-- A request for help with an argument, which it does not take. -/
  | helpWith (argument : String)
  | unknown (text : String)
  deriving DecidableEq, Repr

/-- What precedes the first equals sign, and what follows it if there is one. -/
def splitAtEquals (text : List Char) : List Char × Option (List Char) :=
  match text.dropWhile (· != '=') with
  | [] => (text, none)
  | _ :: value => (text.takeWhile (· != '='), some value)

/-- Digits after a dash, with at most one point, which digits follow. A line feed
at the very end does not count. -/
def isNegativeNumber (text : List Char) : Bool :=
  let body := if text.getLast? = some '\n' then text.dropLast else text
  let numeric (text : List Char) : Bool :=
    match text with
    | '-' :: number =>
      match number.dropWhile isDecimalDigit with
      | [] => !number.isEmpty
      | c :: fraction => c == '.' && !fraction.isEmpty && fraction.all isDecimalDigit
    | _ => false
  numeric body

/-- What is attached to the short request for help. Short options can be written
together, so that the request may be repeated; anything else is an argument. -/
def attachedToHelp : List Char → Word
  | ['h'] => .option .help none
  | 'h' :: rest => attachedToHelp rest
  | argument => .helpWith (String.ofList argument)

def withValue (flag : Flag) (value : Option (List Char)) : Word :=
  match flag, value with
  | .help, some value => .helpWith (String.ofList value)
  | flag, value => .option flag (value.map String.ofList)

/-- A word that names no option counts as plain if it looks like a negative number
or holds a space. -/
def withoutOption (text : String) : Word :=
  if isNegativeNumber text.toList || text.toList.contains ' ' then .plain text
  else .unknown text

/-- The form of a word that stands before the separator; no form if it could stand
for several options. -/
def Word.ofText? (text : String) : Option Word :=
  match text.toList with
  | ['-', '-'] => some .separator
  | '-' :: '-' :: _ =>
    let (name, value) := splitAtEquals text.toList
    match Flag.ofLongName? text with
    | some flag => some (.option flag none)
    | none =>
      match Flag.completions (String.ofList name) with
      | [] => some (withoutOption text)
      | [flag] => some (withValue flag value)
      | _ => none
  | ['-', 'h'] => some (.option .help none)
  | '-' :: 'h' :: '=' :: attached => some (attachedToHelp attached)
  | '-' :: 'h' :: attached => some (attachedToHelp attached)
  | ['-'] => some (.plain text)
  | '-' :: _ => some (withoutOption text)
  | _ => some (.plain text)

/-- The words of a command line. Everything after the separator is plain. A word
that could stand for several options is given back as the error. -/
def words : List String → Except String (List Word)
  | [] => .ok []
  | text :: rest =>
    match Word.ofText? text with
    | none => .error text
    | some .separator => .ok (.separator :: rest.map .plain)
    | some word => (words rest).map (word :: ·)

end InfixCalculator.CommandLine
