/-
Reading the step table back. A line is cut at its first five bars and the fields are stripped of blanks; the sixth
field is what the instruction did, and a field that tells of output gives the byte back. `outputs?` does so for all
rows of a written table.
-/
import Brainfuck.StepTable
import Brainfuck.Text.Line
import Brainfuck.Text.Utf8

namespace Brainfuck.StepTable

/-- cut at the first `n` bars -/
def cutBars : Nat → List Char → List (List Char)
  | 0, cs => [cs]
  | n + 1, cs =>
    match cs.dropWhile (· != '|') with
    | [] => [cs]
    | _ :: rest => cs.takeWhile (· != '|') :: cutBars n rest

/-- the plain blanks at both ends dropped -/
def strip (cs : List Char) : List Char :=
  ((cs.dropWhile (· == ' ')).reverse.dropWhile (· == ' ')).reverse

/-- what a row tells of the machine before an instruction -/
structure Reading where
  step : Nat
  ip : Nat
  pointer : Nat
  cell : Nat
  command : Char
  /-- what the instruction did -/
  action : List Char
  deriving DecidableEq, Repr

/-- the number that digits write, however large -/
def number? (cs : List Char) : Option Nat :=
  if cs.isEmpty || !cs.all Count.isDigit then none else some (Count.value cs)

/-- a row read back -/
def read? (line : List Char) : Option Reading :=
  match cutBars 5 line with
  | [step, ip, pointer, cell, command, action] =>
    match number? (strip step), number? (strip ip), number? (strip pointer), number? (strip cell), strip command with
    | some step, some ip, some pointer, some cell, [command] => some ⟨step, ip, pointer, cell, command, strip action⟩
    | _, _, _, _, _ => none
  | _ => none

/-- the byte a row tells was sent to the output -/
def outputOf? (r : Reading) : Option Nat :=
  let front := "Output byte ".toList
  let back := " (suppressed in debug)".toList
  if front.isPrefixOf r.action ∧ back.isSuffixOf r.action then
    number? ((r.action.drop front.length).take (r.action.length - front.length - back.length))
  else none

/-- the rows of a table: all lines behind the two header lines -/
def readAll? (text : List Char) : Option (List Reading) := ((Text.lines text).drop 2).mapM read?

/-- the bytes that a written table tells were sent to the output -/
def outputs? (table : List UInt8) : Option (List Nat) := do
  let text ← Text.decode? table
  let readings ← readAll? text
  return readings.filterMap outputOf?

end Brainfuck.StepTable
