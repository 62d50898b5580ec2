/-
How a run can end without success, one constructor per cause, and how each cause reads.
-/
import Brainfuck.Device
import Brainfuck.Text.Quoted

namespace Brainfuck

/-- the bracket that lacks its partner -/
inductive Bracket where
  | opening
  | closing
  deriving DecidableEq, Repr

/-- the side on which the pointer would have left the tape -/
inductive Edge where
  | left
  | right
  deriving DecidableEq, Repr

inductive RunError where
  /-- execution reached a character that is no command -/
  | notACommand (c : Char) (ip : Nat)
  | unmatchedBracket (bracket : Bracket) (ip : Nat)
  | offTape (edge : Edge) (ip pointer : Nat)
  /-- the program did not finish within `limit` instructions -/
  | stepLimitReached (limit : Nat)
  | noInput (ip : Nat)
  | tapeTooLong (cells : Nat)
  /-- the sink failed while instruction `ip` was writing -/
  | notWritten (ip : Nat) (cause : DeviceError)
  deriving DecidableEq, Repr

/-- what kind of failure an error is -/
inductive Category where
  | invalidProgram
  | offTape
  | stepLimit
  | noInput
  | noTape
  | noOutput
  deriving DecidableEq, Repr

def Category.title : Category → String
  | invalidProgram => "Invalid program"
  | offTape => "Memory bounds error"
  | stepLimit => "Action limit exceeded"
  | noInput => "Input exhausted"
  | noTape => "Allocation error"
  | noOutput => "Output error"

def Bracket.quoted : Bracket → String
  | opening => "'['"
  | closing => "']'"

def Edge.describe : Edge → String
  | left => "jump on a negative index"
  | right => "out of bounds of memory array"

namespace RunError

def category : RunError → Category
  | notACommand .. | unmatchedBracket .. => .invalidProgram
  | offTape .. => .offTape
  | stepLimitReached _ => .stepLimit
  | noInput _ => .noInput
  | tapeTooLong _ => .noTape
  | notWritten .. => .noOutput

/-- the position in the program the error points at, where it points at one -/
def position : RunError → Option Nat
  | notACommand _ ip | unmatchedBracket _ ip | offTape _ ip _ | noInput ip | notWritten ip _ => some ip
  | stepLimitReached _ | tapeTooLong _ => none

def message : RunError → String
  | notACommand c ip => "invalid character " ++ String.ofList (Text.quotedChar c) ++ s!" at instruction {ip}"
  | unmatchedBracket b ip => s!"unmatched bracket {b.quoted} at instruction {ip}"
  | offTape e ip p => s!"{e.describe} at instruction {ip} (ptr={p})"
  | stepLimitReached n => s!"step limit of {n} reached before the program finished"
  | noInput ip => s!"no input left to read at instruction {ip}"
  | tapeTooLong n => s!"cannot allocate a tape of {n} cells"
  | notWritten ip e => s!"output error at instruction {ip}: {e.message}"

end RunError

/-- outcome of a successful run: how many instructions it executed and where it left the pointer -/
structure Summary where
  steps : Nat
  pointer : Nat
  deriving DecidableEq, Repr

end Brainfuck
