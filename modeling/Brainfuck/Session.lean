/-
One call of the program from its surroundings to its exit code. Output goes to the output stream only; questions, log
lines, diagnostics and usage go to the error stream only.
-/
import Brainfuck.Request
import Brainfuck.Journal.Directive
import Brainfuck.Report
import Brainfuck.Settings
import Brainfuck.Sink.LineBuffered
import Brainfuck.Sink.Quota
import Brainfuck.Usage

namespace Brainfuck

/-- all that a call sees -/
structure Surroundings where
  /-- the name the program was called by -/
  name : String
  arguments : List (List UInt8)
  environment : Environment := {}
  reader : Reader := fun _ => .error .notFound
  stdin : List UInt8 := []
  /-- more input may still come after `stdin` -/
  stdinOpen : Bool := false
  /-- the error stream is a terminal -/
  terminal : Bool := false
  /-- the device under the output stream -/
  device : Quota := .unlimited

inductive Standing where
  | exited (code : Nat)
  /-- the arguments were refused -/
  | refused (e : ArgumentError)
  /-- a question waits for its answer -/
  | asking
  /-- the program still runs -/
  | running
  deriving DecidableEq, Repr

/-- how a call stands and what was written -/
structure Ending where
  standing : Standing
  stdout : Array UInt8 := #[]
  stderr : Array UInt8 := #[]
  deriving Repr

namespace Session

/-- exit code after an interrupt -/
def interruptCode : Nat := 130

/-- exit code when the arguments are refused -/
def refusedCode : Nat := 2

/-- the code that a call exits with; one that has not come to its end exits where it is interrupted -/
def exitCode : Standing → Nat
  | .exited code => code
  | .refused _ => refusedCode
  | .asking | .running => interruptCode

/-- the variable that filters the log -/
def logVariable : String := "BF_LOG"

def say (stderr : Quota) (text : String) : Quota := stderr.take (Text.encode text.toList)

/-- events as lines of the log -/
def logText (events : List Event) : String := String.join (events.map fun e => e.line ++ "\n")

/-- the lines up to the last line feed; a line that is not ended may still go on -/
def wholeLines (bs : List UInt8) : List UInt8 :=
  (bs.reverse.dropWhile (· != Text.lineFeed)).reverse

/-- the answers that can be read now -/
def answers (s : Surroundings) : Answers :=
  Text.byteLines (if s.stdinOpen then wholeLines s.stdin else s.stdin)

/-- what is told about a failure before the run -/
def refusalText (s : Surroundings) (f : Failure) : String :=
  Report.messageLine s.terminal s.name f.message ++
    if f.exitCode = 2 then "Run \"" ++ s.name ++ " --help\" for usage.\n" else ""

/-- what is told about a failed execution -/
def failureText (s : Surroundings) (program : List Char) : Failure → String
  | .run e => (Report.runError? s.terminal (some s.name) program e).getD ""
  | f => Report.messageLine s.terminal s.name f.message

/-- fulfil a request and report -/
def perform (fuel : Nat) (s : Surroundings) (filter : Filter) (r : Request) (stderr : Quota) : Ending :=
  let stdout : LineBuffered Quota := ⟨s.device, #[]⟩
  let journal : Journal := { filter }
  match r.fulfil fuel stdout journal with
  | none =>
    let (out, journal) := r.soFar fuel stdout journal
    ⟨.running, (Sink.flush out).1.device.taken, (say stderr (logText journal.events.toList)).taken⟩
  | some x =>
    let stderr := say stderr (logText x.journal.events.toList)
    match x.result with
    | .ok () => ⟨.exited 0, x.sink.device.taken, stderr.taken⟩
    | .error f => ⟨.exited f.exitCode, x.sink.device.taken, (say stderr (failureText s r.program f)).taken⟩

/-- make the request the options ask for and fulfil it -/
def proceed (fuel : Nat) (s : Surroundings) (filter : Filter) (o : Options) : Ending :=
  let fallback := Settings.fallback s.environment s.reader
  let journal := ({ filter } : Journal).noteAll fallback.notes
  let stderr := say .unlimited (logText journal.events.toList)
  match o.request s.reader fallback.value (answers s) stderr with
  | ⟨_, stderr, .ok r⟩ => perform fuel s filter r stderr
  | ⟨_, stderr, .error f⟩ =>
    if s.stdinOpen ∧ f = .misuse .answersEnded then ⟨.asking, #[], stderr.taken⟩
    else ⟨.exited f.exitCode, #[], (say stderr (refusalText s f)).taken⟩

/-- help, or the run the options ask for -/
def serve (fuel : Nat) (s : Surroundings) (filter : Filter) (o : Options) : Ending :=
  if o.help then ⟨.exited 0, #[], (say .unlimited (usage s.name)).taken⟩ else proceed fuel s filter o

/-- one call, given `fuel` advances for the run -/
def run (fuel : Nat) (s : Surroundings) : Ending :=
  match Options.parse s.arguments with
  | .error e => ⟨.refused e, #[], #[]⟩
  | .ok o => serve fuel s (.ofVariable (s.environment.text? logVariable)) o

end Session

end Brainfuck
