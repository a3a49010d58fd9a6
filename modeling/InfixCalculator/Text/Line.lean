/-!
Lines of a text. A stored text is cut at any of ten line breaks once its
carriage returns have become line feeds; typed input is cut at line feeds only.
-/
namespace InfixCalculator

/-- The ten characters that end a line of a stored text. -/
def isLineBreak (c : Char) : Bool :=
  let n := c.toNat
  (0x0a ≤ n && n ≤ 0x0d) || (0x1c ≤ n && n ≤ 0x1e) || n == 0x85 || n == 0x2028 || n == 0x2029

/-- A carriage return, with the line feed after it if there is one, becomes one
line feed. -/
def unifyLineEnds : List Char → List Char
  | [] => []
  | '\r' :: '\n' :: rest => '\n' :: unifyLineEnds rest
  | c :: rest => (if c = '\r' then '\n' else c) :: unifyLineEnds rest

/-- The pieces between the characters that `ends` marks; a text that stops right
after such a character has no further piece. -/
def splitLines (ends : Char → Bool) (text : List Char) : List (List Char) :=
  let pieces := text.splitOnP ends
  if pieces.getLast? = some [] then pieces.dropLast else pieces

def textLines (text : List Char) : List (List Char) :=
  splitLines isLineBreak (unifyLineEnds text)

def inputLines (text : List Char) : List (List Char) :=
  splitLines (· == '\n') text

end InfixCalculator
