/-
The dialogue that asks for limits. Each limit is a question to answer with y or n, and after y a count, asked again
until the answer fits. Blanks anywhere in an answer are ignored. Answers are read line by line, whole lines only.
-/
import Brainfuck.Count
import Brainfuck.Limits
import Brainfuck.Sink
import Brainfuck.Text.Blank

namespace Brainfuck

/-- the answers not yet read, cut into lines -/
abbrev Answers := List (List UInt8)

inductive DialogueError where
  /-- the answers ended -/
  | closed
  | device (e : DeviceError)
  deriving DecidableEq, Repr

def DialogueError.message : DialogueError → String
  | closed => "input closed while waiting for an answer"
  | device e => "failed to read answer: " ++ e.message

/-- what came of a part of the dialogue: the answers left, the sink, and the result -/
structure Exchange (σ ε α : Type) where
  unread : Answers
  sink : σ
  result : Except ε α

structure Question where
  /-- to be answered with y or n -/
  choice : String
  /-- what to enter after y -/
  entry : String
  /-- zero is a count that fits -/
  zeroFits : Bool
  deriving DecidableEq, Repr

namespace Question

def steps : Question where
  choice := "Want to limit the number of actions? y/n"
  entry := "Enter an integer - the number of actions"
  zeroFits := true

def cells : Question where
  choice := "Want to limit the memory array ? y/n"
  entry := "Enter an integer - the number of elements in the memory array. Default size - 30000 bytes"
  zeroFits := false

end Question

namespace Dialogue

variable {σ : Type} [Sink σ]

/-- write a line and hand it on -/
def tell (sink : σ) (text : String) : σ × Option DeviceError :=
  match Sink.writeLine sink text.toList with
  | (sink, some e) => (sink, some e)
  | (sink, none) => Sink.flush sink

/-- a line as an answer: its text without blanks, if it is text -/
def answer? (line : List UInt8) : Option (List Char) := (Text.decode? line).map Text.squeeze

/-- read answers until one is y or n; is it y? -/
def awaitChoice (sink : σ) : Answers → Exchange σ DialogueError Bool
  | [] => ⟨[], sink, .error .closed⟩
  | line :: unread =>
    match answer? line with
    | none => ⟨unread, sink, .error (.device .notText)⟩
    | some a =>
      if a = ['y'] then ⟨unread, sink, .ok true⟩
      else if a = ['n'] then ⟨unread, sink, .ok false⟩
      else
        match tell sink "Please y or n" with
        | (sink, some e) => ⟨unread, sink, .error (.device e)⟩
        | (sink, none) => awaitChoice sink unread

/-- the count an answer gives, or what to say to it -/
def judge (zeroFits : Bool) (a : List Char) : Except String Nat :=
  match Count.parse? a with
  | none => .error "Please enter a non-negative number"
  | some n => if n = 0 ∧ !zeroFits then .error "Please enter a positive number" else .ok n

/-- read answers until one is a count that fits -/
def awaitCount (zeroFits : Bool) (sink : σ) : Answers → Exchange σ DialogueError Nat
  | [] => ⟨[], sink, .error .closed⟩
  | line :: unread =>
    match answer? line with
    | none => ⟨unread, sink, .error (.device .notText)⟩
    | some a =>
      match judge zeroFits a with
      | .ok n => ⟨unread, sink, .ok n⟩
      | .error retry =>
        match tell sink retry with
        | (sink, some e) => ⟨unread, sink, .error (.device e)⟩
        | (sink, none) => awaitCount zeroFits sink unread

/-- put a question; no count means that no limit is wanted -/
def ask (q : Question) (sink : σ) (answers : Answers) : Exchange σ DialogueError (Option Nat) :=
  match tell sink q.choice with
  | (sink, some e) => ⟨answers, sink, .error (.device e)⟩
  | (sink, none) =>
    match awaitChoice sink answers with
    | ⟨unread, sink, .error e⟩ => ⟨unread, sink, .error e⟩
    | ⟨unread, sink, .ok false⟩ => ⟨unread, sink, .ok none⟩
    | ⟨unread, sink, .ok true⟩ =>
      match tell sink q.entry with
      | (sink, some e) => ⟨unread, sink, .error (.device e)⟩
      | (sink, none) =>
        let x := awaitCount q.zeroFits sink unread
        ⟨x.unread, x.sink, x.result.map some⟩

/-- put a question unless its answer is already known -/
def askUnless (known : Option Nat) (q : Question) (sink : σ) (answers : Answers) :
    Exchange σ DialogueError (Option Nat) :=
  match known with
  | some n => ⟨answers, sink, .ok (some n)⟩
  | none => ask q sink answers

/-- ask for every limit that is still open -/
def complete (limits : Limits) (sink : σ) (answers : Answers) : Exchange σ DialogueError Limits :=
  match askUnless limits.steps .steps sink answers with
  | ⟨unread, sink, .error e⟩ => ⟨unread, sink, .error e⟩
  | ⟨unread, sink, .ok steps⟩ =>
    match limits.cells with
    | some n => ⟨unread, sink, .ok ⟨steps, some n⟩⟩
    | none =>
      let x := ask .cells sink unread
      ⟨x.unread, x.sink, x.result.map fun n => ⟨steps, n.bind CellCount.ofNat?⟩⟩

end Dialogue

end Brainfuck
