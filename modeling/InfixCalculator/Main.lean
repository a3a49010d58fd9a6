import InfixCalculator.CommandLine.Program
import InfixCalculator.Platform
import Std.Time

/-!
The program on a real terminal and real files. Everything is decided elsewhere;
here lines are read, texts are written, and records get the time of day.
-/
namespace InfixCalculator.Main

open CommandLine

def usage : String :=
  "usage: infixcalc [-h] [--notation NAME] [--file FILE] [--output_path FILE] " ++
    "[--log_level LEVEL] [expressions ...]"

def report (threshold : Nat) (records : List LogRecord) : IO Unit := do
  for record in LogRecord.atLeast threshold records do
    let now ← Std.Time.PlainDateTime.now
    IO.eprint (record.line (now.format "uuuu-MM-dd HH:mm:ss,SSS"))

/-- Nothing but a directory has a dot in it. -/
def isDirectory (name : String) : IO Bool := do
  try
    discard (IO.FS.realPath (name ++ "/."))
    return true
  catch _ => return false

def occupant? (name : String) : IO (Option Occupant) := do
  if ← isDirectory name then return some .directory
  try
    return some (.file (← IO.FS.readBinFile name))
  catch
    | .noFileOrDirectory .. => return none
    | other => throw other

/-- The storage as far as it matters for loading a file. -/
def sourceStorage (source : Option String) : IO Storage := do
  match source with
  | none => return .empty
  | some name =>
    let found ← occupant? name
    return fun other => if other = name then found else none

/-- The storage as far as it matters for saving a file. -/
def targetStorage (target : Option String) : IO Storage := do
  match target with
  | none => return .empty
  | some name =>
    let there ← [name, (Path.ofText name).parent.text].filterM isDirectory
    return fun other => if other ∈ there then some .directory else none

partial def converse (s : Settings) (n : Notation) (prompt : String) (threshold : Nat)
    (c : Calculator n.Result) (failures : Nat) : IO Nat := do
  IO.print prompt
  (← IO.getStdout).flush
  let line ← (← IO.getStdin).getLine
  if line.isEmpty then return failures
  match Interactive.turn Platform.power s n line.toList c with
  | none => return failures
  | some reply =>
    report threshold reply.records
    IO.print reply.output
    converse s n prompt threshold reply.calculator (failures + reply.failures)

def runJob (s : Settings) (threshold : Nat) : Job → IO Nat
  | .batch n expressions path => do
    let result := Batch.run Platform.power Platform.tables s n expressions path
      (← targetStorage path)
    IO.print result.output
    if let some (name, text) := result.saved then
      IO.FS.writeFile name text
    report threshold result.records
    if let some fault := result.fault then
      IO.eprintln fault.message
      return 1
    return result.failures
  | .interactive n => do
    let terminal ← (← IO.getStdin).isTty
    let failures ← converse s n (promptFor s terminal) threshold .initial 0
    report threshold [Interactive.finishedRecord failures]
    return 0

end InfixCalculator.Main

open InfixCalculator InfixCalculator.CommandLine

def main (arguments : List String) : IO UInt32 := do
  let s := Settings.standard
  match Request.ofArguments s arguments with
  | .help =>
    IO.println Main.usage
    return 0
  | .refused fault =>
    IO.eprintln Main.usage
    IO.eprintln (usageLine fault)
    return 2
  | .start options =>
    let preparation := prepare s options (← Main.sourceStorage options.source?)
    Main.report preparation.threshold preparation.records
    match preparation.job with
    | .error fault =>
      IO.eprintln fault.message
      return 1
    | .ok job =>
      let status ← Main.runJob s preparation.threshold job
      return UInt32.ofNat (status % 256)
