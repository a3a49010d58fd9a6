/-!
Names of files as paths: components between slashes. An empty component or a
single dot does not lead anywhere and is left out.
-/
namespace InfixCalculator

structure Path where
  /-- The slashes that a path from the root begins with. -/
  root : String
  components : List String
  deriving DecidableEq, Repr

namespace Path

/-- Two slashes at the beginning are a root of their own; more are as good as one. -/
def rootOf (text : List Char) : String :=
  match (text.takeWhile (· == '/')).length with
  | 0 => ""
  | 2 => "//"
  | _ => "/"

def ofText (text : String) : Path where
  root := rootOf text.toList
  components :=
    ((text.toList.splitOnP (· == '/')).map String.ofList).filter fun c => c != "" && c != "."

/-- The directory that a place lies in. The end of a path is not looked up, so
two dots count as a name. -/
def parent (p : Path) : Path := { p with components := p.components.dropLast }

/-- The normal name; a dot stands for the working directory. -/
def text (p : Path) : String :=
  if p.root.isEmpty && p.components.isEmpty then "."
  else p.root ++ "/".intercalate p.components

end Path

end InfixCalculator
