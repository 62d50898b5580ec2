/-
The step table: two header lines, then one row per executed instruction with the machine's state before it and what
the instruction did. Columns are padded to their least width and parted by bars, so the first five bars of a row cut
it into its fields however wide they are.
-/
import Brainfuck.Count
import Brainfuck.Machine

namespace Brainfuck

structure Row where
  step : Nat
  ip : Nat
  /-- pointer and cell before the instruction -/
  pointer : Nat
  cell : UInt8
  command : Command
  action : Action
  deriving DecidableEq, Repr

/-- the two header lines -/
def tableHeader : List (List Char) :=
  ["STEP | IP  | PTR | CELL | INSTR | ACTION".toList,
   "-----+-----+-----+------+-------+------------------------------------------------".toList]

/-- a number at the left of a column of least width `width` -/
def column (width n : Nat) : List Char :=
  let ds := Count.render n
  ds ++ List.replicate (width - ds.length) ' '

/-- a bar with a blank on either side -/
def bar : List Char := [' ', '|', ' ']

/-- what an action did, told from the pointer and the cell before it -/
def Action.describe (pointer : Nat) (cell : UInt8) : Action → List Char
  | .move p => "Moved pointer head to index ".toList ++ Count.render p
  | .increment =>
    "Increment cell[".toList ++ Count.render pointer ++ "] from ".toList ++ Count.render cell.toNat ++ " to ".toList ++
      Count.render (cell + 1).toNat
  | .decrement =>
    "Decrement cell[".toList ++ Count.render pointer ++ "] from ".toList ++ Count.render cell.toNat ++ " to ".toList ++
      Count.render (cell - 1).toNat
  | .write b => "Output byte ".toList ++ Count.render b.toNat ++ " (suppressed in debug)".toList
  | .read c => "Read input ".toList ++ Text.quotedChar c ++ " -> ".toList ++ Count.render (lowByte c).toNat
  | .skipLoop close => "Cell is 0; jump forward past matching ']' at IP ".toList ++ Count.render close
  | .enterLoop => "Enter loop (cell != 0)".toList
  | .repeatLoop start => "Cell != 0; jump back to matching '[' at IP ".toList ++ Count.render start
  | .exitLoop => "Exit loop (cell is 0)".toList

/-- a row as it is written, without its line feed -/
def Row.text (r : Row) : List Char :=
  column 4 r.step ++ bar ++ column 3 r.ip ++ bar ++ column 3 r.pointer ++ bar ++ column 4 r.cell.toNat ++ bar ++
    ' ' :: r.command.toChar :: "    | ".toList ++ r.action.describe r.pointer r.cell

end Brainfuck
