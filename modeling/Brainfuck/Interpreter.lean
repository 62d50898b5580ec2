/-
An interpreter holds a program, its input, a tape and the step limit, and can run any number of times. Every run
starts on a blank tape with the input unread; brackets are matched before the first instruction and before the first
byte is written.
-/
import Brainfuck.Execution
import Brainfuck.Limits

namespace Brainfuck

structure Interpreter where
  program : Program
  input : Array Char
  stepLimit : Option Nat
  /-- as the last run left it -/
  store : Store
  deriving Repr

/-- what a run leaves behind -/
structure Finished (σ : Type) where
  interpreter : Interpreter
  sink : σ
  journal : Journal
  outcome : Outcome

namespace Interpreter

/-- no tape has more cells than a signed 64-bit word can count; that memory can be too scarce for a shorter one is left
out -/
def largestTape : Nat := 0x7fffffffffffffff

/-- an interpreter for a program and its input, unless the tape is longer than any can be; one that memory is too scarce
for is not refused here -/
def load (program input : List Char) (limits : Limits) : Except RunError Interpreter :=
  let cells := limits.tapeLength
  if cells ≤ largestTape then
    .ok ⟨.ofText program, input.toArray, limits.steps, .blank cells⟩
  else .error (.tapeTooLong cells)

/-- a blank tape of the same length and unread input -/
def freshStore (i : Interpreter) : Store := .blank i.store.cells.size

/-- what stays fixed when the interpreter runs with this matching -/
def job (i : Interpreter) (matching : Matching) (view : View) : Job :=
  ⟨i.program, matching, i.input, i.stepLimit, view⟩

/-- write lines one by one, up to the first failure -/
def writeLines {σ : Type} [Sink σ] (sink : σ) : List (List Char) → σ × Option DeviceError
  | [] => (sink, none)
  | l :: ls =>
    match Sink.writeLine sink l with
    | (sink, none) => writeLines sink ls
    | (sink, some e) => (sink, some e)

/-- what is written before the first instruction -/
def preamble : View → List (List Char)
  | .output => []
  | .table => tableHeader

/-- a run at its first instruction, or ended before it -/
structure Launch (σ : Type) where
  job : Job
  progress : Progress σ

variable {σ : Type} [Sink σ]

/-- match the brackets and write what comes before the first instruction -/
def launch (i : Interpreter) (view : View) (sink : σ) (journal : Journal) : Launch σ :=
  let store := i.freshStore
  match Matching.ofProgram i.program with
  | .error err => ⟨i.job ⟨#[]⟩ view, .ended { store, journal } sink (.error err)⟩
  | .ok matching =>
    let journal := journal.note (.runStarted i.program.size store.cells.size i.stepLimit)
    let (sink, failure) := writeLines sink (preamble view)
    let c : Config := { store, journal }
    ⟨i.job matching view, c.afterWrite 0 sink failure⟩

/-- advance a run at most `fuel` times -/
def Launch.runFor (l : Launch σ) (fuel : Nat) : Progress σ :=
  match l.progress with
  | .running c sink => c.runFor l.job fuel sink
  | .ended c sink outcome => .ended c sink outcome

/-- what an ended run of interpreter `i` leaves behind; nothing while it still runs -/
def finished? (i : Interpreter) : Progress σ → Option (Finished σ)
  | .running .. => none
  | .ended c sink outcome => some ⟨{ i with store := c.store }, sink, c.journal, outcome⟩

/-- run the program, unless the run takes more than `fuel` advances -/
def run (fuel : Nat) (view : View) (i : Interpreter) (sink : σ) (journal : Journal) : Option (Finished σ) :=
  i.finished? ((i.launch view sink journal).runFor fuel)

end Interpreter

end Brainfuck
