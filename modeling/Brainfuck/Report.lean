/-
What is told on the error stream: a message, painted when the stream is a terminal, and for an error with a position
the window around it, never painted. A message is not cut into lines, nor is a line feed in it replaced.
-/
import Brainfuck.RunError
import Brainfuck.Window

namespace Brainfuck.Report

/-- bold red on a terminal -/
def paint (terminal : Bool) (message : String) : String :=
  if terminal then "\x1b[1;31m" ++ message ++ "\x1b[0m" else message

/-- a message behind the name of the program, with a line feed at its end -/
def messageLine (terminal : Bool) (name message : String) : String :=
  paint terminal (name ++ ": " ++ message) ++ "\n"

/-- an error of a run in one sentence, with the program's name in front when it is given -/
def headline (name : Option String) (e : RunError) : String :=
  let told := e.category.title ++ ": " ++ e.message
  match name with
  | some n => n ++ ": " ++ told
  | none => told

/-- the report of an error of a run, unless the window it needs does not exist -/
def runError? (terminal : Bool) (name : Option String) (program : List Char) (e : RunError) : Option String :=
  let first := paint terminal (headline name e) ++ "\n"
  match e.position with
  | none => some first
  | some pos => (Window.around? program pos).map fun w => first ++ String.ofList w.text

end Brainfuck.Report
