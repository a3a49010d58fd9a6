import InfixCalculator.Notation

/-!
The settings of the program: what it starts with, the words of its sessions, and
the columns of its tables. They have to fit together before anything is run.
-/
namespace InfixCalculator

structure Columns where
  expression : String
  result : String
  error : String
  deriving DecidableEq, Repr

def Columns.toList (c : Columns) : List String := [c.expression, c.result, c.error]

structure Settings where
  /-- The name of the notation that is used when none is asked for. -/
  usualNotation : String
  prompt : String
  /-- What a line begins with that reports a fault. -/
  failureMark : String
  farewells : List String
  columns : Columns
  threshold : String
  deriving DecidableEq, Repr

inductive SettingsDefect where
  | unknownNotation
  | emptyFailureMark
  | repeatedColumn
  deriving DecidableEq, Repr

def SettingsDefect.message : SettingsDefect → String
  | .unknownNotation => "未知的默认输出形式"
  | .emptyFailureMark => "失败标记不能为空"
  | .repeatedColumn => "批量输出的列名必须互不相同"

namespace Settings

def standard : Settings where
  usualNotation := "value"
  prompt := ">> "
  failureMark := "!"
  farewells := ["exit", "quit"]
  columns := ⟨"expression", "result", "error"⟩
  threshold := "WARNING"

/-- The first thing that is wrong with the settings. -/
def defect? (s : Settings) : Option SettingsDefect :=
  if (Notation.ofName? s.usualNotation).isNone then some .unknownNotation
  else if s.failureMark.isEmpty then some .emptyFailureMark
  else if ¬s.columns.toList.Nodup then some .repeatedColumn
  else none

theorem defect?_standard : standard.defect? = none := by decide +kernel

end Settings

end InfixCalculator
