/-
A request is all that one run needs. `Options.request` makes it from options: program and input from files or from the
command line, each limit from an option, then the fallback, then the dialogue. `Request.fulfil` runs the program and
ends its output with a line feed.
-/
import Brainfuck.Interpreter
import Brainfuck.Failure
import Brainfuck.Files
import Brainfuck.Options
import Brainfuck.Sink.Tracked

namespace Brainfuck

structure Request where
  program : List Char
  input : List Char
  limits : Limits
  view : View
  deriving DecidableEq, Repr

/-- drop one line ending at the end of a text -/
def dropLineEnding (text : List Char) : List Char :=
  match text.reverse with
  | '\n' :: '\r' :: rest => rest.reverse
  | '\n' :: rest => rest.reverse
  | _ => text

/-- the text of a file, whose failure names the file -/
def readFile (reader : Reader) (path : List Char) : Except Failure (List Char) :=
  match reader path with
  | .ok text => .ok text
  | .error e => .error (.unreadable path e)

namespace Options

/-- the text of the file if there is one, else the next positional text; and the positional texts left -/
def textFrom (reader : Reader) (file : Option (List Char)) (missing : Misuse) (texts : List (List Char)) :
    Except Failure (List Char × List (List Char)) :=
  match file with
  | some path => do return (← readFile reader path, texts)
  | none =>
    match texts with
    | text :: rest => .ok (text, rest)
    | [] => .error (.misuse missing)

/-- program and input, taken from the options alone -/
def programAndInput (reader : Reader) (o : Options) : Except Failure (List Char × List Char) := do
  let (program, rest) ← textFrom reader o.file .programMissing o.positional
  let (input, rest) ← textFrom reader o.inputFile .inputMissing rest
  if rest.isEmpty then return (if o.file.isSome then dropLineEnding program else program, input)
  else .error (.misuse .surplusArgument)

/-- the limits the options set -/
def limits (o : Options) : Except Failure Limits :=
  match o.memory with
  | none => .ok ⟨o.maxSteps, none⟩
  | some n =>
    match CellCount.ofNat? n with
    | some m => .ok ⟨o.maxSteps, some m⟩
    | none => .error (.misuse .emptyTape)

/-- everything but the dialogue -/
def prepare (reader : Reader) (fallback : Limits) (o : Options) : Except Failure Request := do
  let (program, input) ← o.programAndInput reader
  let limits ← o.limits
  return ⟨program, input, limits.or fallback, if o.debug then .table else .output⟩

/-- make a request; only when all else is well are questions asked -/
def request {σ : Type} [Sink σ] (reader : Reader) (fallback : Limits) (o : Options) (answers : Answers)
    (questions : σ) : Exchange σ Failure Request :=
  match o.prepare reader fallback with
  | .error f => ⟨answers, questions, .error f⟩
  | .ok r =>
    if o.interactive then
      match Dialogue.complete r.limits questions answers with
      | ⟨unread, questions, .ok limits⟩ => ⟨unread, questions, .ok { r with limits }⟩
      | ⟨unread, questions, .error e⟩ => ⟨unread, questions, .error (.ofDialogue e)⟩
    else ⟨answers, questions, .ok r⟩

end Options

/-- what a fulfilled request leaves behind -/
structure Fulfilled (σ : Type) where
  sink : σ
  journal : Journal
  result : Except Failure Unit

namespace Request

variable {σ : Type} [Sink σ]

def interpreter (r : Request) : Except RunError Interpreter := Interpreter.load r.program r.input r.limits

/-- the run after at most `fuel` advances, its last byte of output remembered -/
def progress (fuel : Nat) (r : Request) (sink : σ) (journal : Journal) :
    Except RunError (Progress (Tracked σ)) := do
  let i ← r.interpreter
  return (i.launch r.view (Tracked.mk sink none) journal).runFor fuel

/-- end the output; a failure there comes before the run's own -/
def conclude (c : Config) (out : Tracked σ) (outcome : Outcome) : Fulfilled σ :=
  match out.finish, outcome with
  | (sink, some e), _ => ⟨sink, c.journal, .error (.device e)⟩
  | (sink, none), .error e => ⟨sink, c.journal, .error (.run e)⟩
  | (sink, none), .ok s => ⟨sink, c.journal.note (.programCompleted s.steps s.pointer), .ok ()⟩

/-- fulfil a request, unless the run takes more than `fuel` advances; without a tape nothing is written or flushed -/
def fulfil (fuel : Nat) (r : Request) (sink : σ) (journal : Journal) : Option (Fulfilled σ) :=
  match r.progress fuel sink journal with
  | .error e => some ⟨sink, journal, .error (.run e)⟩
  | .ok (.running ..) => none
  | .ok (.ended c out outcome) => some (conclude c out outcome)

/-- sink and journal of a run that was cut short -/
def soFar (fuel : Nat) (r : Request) (sink : σ) (journal : Journal) : σ × Journal :=
  match r.progress fuel sink journal with
  | .error _ => (sink, journal)
  | .ok (.running c out) => (out.inner, c.journal)
  | .ok (.ended c out _) => (out.inner, c.journal)

end Request

end Brainfuck
