/-
Why a request failed: wrong use, a file that cannot be read, a device, or the run itself. Wrong use exits with 2, all
else with 1.
-/
import Brainfuck.Dialogue
import Brainfuck.RunError

namespace Brainfuck

/-- wrong use -/
inductive Misuse where
  | programMissing
  | inputMissing
  | surplusArgument
  | emptyTape
  | answersEnded
  | other (text : String)
  deriving DecidableEq, Repr

def Misuse.message : Misuse → String
  | programMissing => "Program is missing"
  | inputMissing => "Input is missing"
  | surplusArgument => "expected exactly a program and an input"
  | emptyTape => "memory size must be at least 1"
  | answersEnded => "stdin closed before the limits were entered"
  | other text => text

inductive Failure where
  | misuse (m : Misuse)
  | unreadable (path : List Char) (e : DeviceError)
  | device (e : DeviceError)
  | run (e : RunError)
  deriving DecidableEq, Repr

namespace Failure

def message : Failure → String
  | misuse m => "invalid arguments: " ++ m.message
  | unreadable path e => "failed to read " ++ String.ofList path ++ ": " ++ e.message
  | device e => "I/O error: " ++ e.message
  | run e => e.message

def exitCode : Failure → Nat
  | misuse _ => 2
  | _ => 1

/-- a failed dialogue; answers that end too early are wrong use -/
def ofDialogue : DialogueError → Failure
  | .closed => misuse .answersEnded
  | .device e => device e

end Failure

end Brainfuck
