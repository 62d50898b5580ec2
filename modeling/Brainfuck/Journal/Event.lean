/-
What is worth a note in the journal. Each event has a topic, a message and fields; its topic fixes how grave it is,
which component notes it and what its fields are called.
-/
import Brainfuck.Text.Quoted

namespace Brainfuck

/-- severities, the gravest first -/
inductive Level where
  | error
  | warn
  | info
  | debug
  | trace
  deriving DecidableEq, Repr

namespace Level

/-- larger ranks tell more -/
def rank : Level → Nat
  | error => 1
  | warn => 2
  | info => 3
  | debug => 4
  | trace => 5

def name : Level → String
  | error => "ERROR"
  | warn => "WARN"
  | info => "INFO"
  | debug => "DEBUG"
  | trace => "TRACE"

end Level

/-- the parts of the program that keep notes -/
inductive Component where
  | interpreter
  | config
  | launch
  deriving DecidableEq, Repr

/-- the name under which a component's notes are selected -/
def Component.target : Component → String
  | interpreter => "bounded_bf::engine"
  | config => "bounded_bf::config"
  | launch => "bounded_bf::commands::run"

/-- what an event tells about -/
inductive Topic where
  | runStarted
  | limitReached
  | loopSkipped
  | loopRepeated
  | runFinished
  | programCompleted
  | configLoaded
  | variableIgnored
  | settingIgnored
  deriving DecidableEq, Repr

namespace Topic

def all : List Topic :=
  [runStarted, limitReached, loopSkipped, loopRepeated, runFinished, programCompleted, configLoaded, variableIgnored,
   settingIgnored]

def level : Topic → Level
  | runStarted | limitReached | runFinished | programCompleted | configLoaded => .debug
  | loopSkipped | loopRepeated => .trace
  | variableIgnored | settingIgnored => .warn

def component : Topic → Component
  | runStarted | limitReached | loopSkipped | loopRepeated | runFinished => .interpreter
  | programCompleted => .launch
  | configLoaded | variableIgnored | settingIgnored => .config

/-- the name under which the message itself is a field -/
def messageField : String := "message"

/-- names of the fields besides the message -/
def fieldNames : Topic → List String
  | runStarted => ["instructions", "memory", "step_limit"]
  | limitReached => ["limit", "ip"]
  | loopSkipped | loopRepeated => ["from", "to"]
  | runFinished | programCompleted => ["steps", "pointer"]
  | configLoaded => ["path"]
  | variableIgnored => ["value"]
  | settingIgnored => ["key", "value"]

/-- a field of that name belongs to the topic's events -/
def hasField (t : Topic) (name : String) : Bool := name = messageField || t.fieldNames.contains name

end Topic

inductive Event where
  | runStarted (instructions memory : Nat) (stepLimit : Option Nat)
  | limitReached (limit ip : Nat)
  | loopSkipped (start next : Nat)
  | loopRepeated (close start : Nat)
  | runFinished (steps pointer : Nat)
  | programCompleted (steps pointer : Nat)
  | configLoaded (path : String)
  /-- an environment variable that holds no valid limit -/
  | variableIgnored (name value : String)
  /-- a line of the config file that holds no valid limit -/
  | settingIgnored (key value : String)
  deriving DecidableEq, Repr

/-- a field's value: a number, a text shown as it is, or a text shown in quotes -/
inductive FieldValue where
  | number (n : Nat)
  | plain (text : String)
  | quoted (text : String)
  deriving DecidableEq, Repr

/-- the value as a log line shows it -/
def FieldValue.render : FieldValue → String
  | number n => toString n
  | plain text => text
  | quoted text => String.ofList (Text.quotedText text.toList)

/-- an optional limit as a field shows it -/
def renderLimit : Option Nat → String
  | none => "None"
  | some n => s!"Some({n})"

namespace Event

def topic : Event → Topic
  | runStarted .. => .runStarted
  | limitReached .. => .limitReached
  | loopSkipped .. => .loopSkipped
  | loopRepeated .. => .loopRepeated
  | runFinished .. => .runFinished
  | programCompleted .. => .programCompleted
  | configLoaded _ => .configLoaded
  | variableIgnored .. => .variableIgnored
  | settingIgnored .. => .settingIgnored

def level (e : Event) : Level := e.topic.level

def message : Event → String
  | runStarted .. => "starting run"
  | limitReached .. => "step limit reached"
  | loopSkipped .. => "skip loop"
  | loopRepeated .. => "repeat loop"
  | runFinished .. => "run finished"
  | programCompleted .. => "program completed"
  | configLoaded _ => "loaded config"
  | variableIgnored name _ => "ignoring invalid " ++ name
  | settingIgnored .. => "ignoring invalid config value"

def fields : Event → List (String × FieldValue)
  | runStarted n m l => [("instructions", .number n), ("memory", .number m), ("step_limit", .plain (renderLimit l))]
  | limitReached l ip => [("limit", .number l), ("ip", .number ip)]
  | loopSkipped i j => [("from", .number i), ("to", .number j)]
  | loopRepeated i j => [("from", .number i), ("to", .number j)]
  | runFinished n p => [("steps", .number n), ("pointer", .number p)]
  | programCompleted n p => [("steps", .number n), ("pointer", .number p)]
  | configLoaded path => [("path", .plain path)]
  | variableIgnored _ v => [("value", .plain v)]
  | settingIgnored k v => [("key", .quoted k), ("value", .quoted v)]

/-- the event as one line of a log, without a line feed: level at the right of five columns, message, fields -/
def line (e : Event) : String :=
  let name := e.level.name
  "".pushn ' ' (5 - name.length) ++ name ++ " " ++ e.message ++
    String.join (e.fields.map fun f => " " ++ f.1 ++ "=" ++ f.2.render)

end Event

end Brainfuck
