/-
Command line options. Arguments are read from left to right. An option that takes a value stays pending until its
value has come and the next option, text or the end is reached; only then is the value checked. So the first error is
the first in this order, and an unknown option is reported even when a pending one is faulty.
-/
import Brainfuck.Count
import Brainfuck.Text.Utf8

namespace Brainfuck

structure Options where
  debug : Bool := false
  file : Option (List Char) := none
  inputFile : Option (List Char) := none
  maxSteps : Option Nat := none
  memory : Option Nat := none
  interactive : Bool := false
  /-- program text and input text -/
  positional : List (List Char) := []
  help : Bool := false
  deriving DecidableEq, Repr

inductive ArgumentError where
  | unknownOption
  /-- an option that needs a value has none -/
  | missingValue
  /-- not a count -/
  | invalidValue
  /-- given twice -/
  | repeatedOption
  /-- a value for an option that takes none -/
  | unwantedValue
  | notText
  deriving DecidableEq, Repr

def ArgumentError.message : ArgumentError → String
  | unknownOption => "unknown option"
  | missingValue => "an option lacks its value"
  | invalidValue => "an option's value is not a count"
  | repeatedOption => "an option is given twice"
  | unwantedValue => "an option takes no value"
  | notText => "an argument is not text"

/-- options without a value -/
inductive Flag where
  | debug
  | interactive
  | help
  deriving DecidableEq, Repr

/-- options with a value -/
inductive Setting where
  | file
  | inputFile
  | maxSteps
  | memory
  deriving DecidableEq, Repr

inductive Switch where
  | flag (f : Flag)
  | setting (s : Setting)
  deriving DecidableEq, Repr

namespace Switch

def longNames : List (String × Switch) :=
  [("debug", .flag .debug), ("file", .setting .file), ("input-file", .setting .inputFile),
   ("max-steps", .setting .maxSteps), ("memory", .setting .memory), ("interactive", .flag .interactive),
   ("help", .flag .help)]

def shortNames : List (Char × Switch) :=
  [('d', .flag .debug), ('f', .setting .file), ('i', .flag .interactive), ('h', .flag .help)]

def ofLong? (name : List UInt8) : Option Switch :=
  (longNames.find? fun p => Text.encode p.1.toList = name).map Prod.snd

def ofShort? (b : UInt8) : Option Switch :=
  (shortNames.find? fun p => p.1.toNat = b.toNat).map Prod.snd

end Switch

/-- a number read digit by digit, given up where it no longer fits a 64-bit word -/
def readDigits (n : Nat) : List Char → Option Nat
  | [] => some n
  | d :: ds =>
    if Count.isDigit d then
      let n := 10 * n + (d.toNat - '0'.toNat)
      if n < Count.bound then readDigits n ds else none
    else none

/-- a number as an option's value: one plus sign may stand in front of the digits -/
def readNumber (cs : List Char) : Option Nat :=
  match cs with
  | [] => none
  | ['+'] => none
  | '+' :: ds => readDigits 0 ds
  | ds => readDigits 0 ds

namespace Options

def raise (o : Options) : Flag → Except ArgumentError Options
  | .debug => if o.debug then .error .repeatedOption else .ok { o with debug := true }
  | .interactive => if o.interactive then .error .repeatedOption else .ok { o with interactive := true }
  | .help => if o.help then .error .repeatedOption else .ok { o with help := true }

/-- the option already has a value -/
def has (o : Options) : Setting → Bool
  | .file => o.file.isSome
  | .inputFile => o.inputFile.isSome
  | .maxSteps => o.maxSteps.isSome
  | .memory => o.memory.isSome

/-- give an option its value -/
def assign (o : Options) (s : Setting) (value : List UInt8) : Except ArgumentError Options :=
  if o.has s then .error .repeatedOption
  else
    match Text.decode? value with
    | none => .error .notText
    | some text =>
      match s with
      | .file => .ok { o with file := some text }
      | .inputFile => .ok { o with inputFile := some text }
      | .maxSteps =>
        match readNumber text with
        | some n => .ok { o with maxSteps := some n }
        | none => .error .invalidValue
      | .memory =>
        match readNumber text with
        | some n => .ok { o with memory := some n }
        | none => .error .invalidValue

/-- add texts that belong to no option -/
def addTexts (o : Options) (raw : List (List UInt8)) : Except ArgumentError Options :=
  match raw.mapM Text.decode? with
  | some texts => .ok { o with positional := o.positional ++ texts }
  | none => .error .notText

end Options

/-- what was read but not yet checked -/
inductive Pending where
  | nothing
  | setting (s : Setting) (value : Option (List UInt8))
  /-- texts that belong to no option, the latest first -/
  | texts (raw : List (List UInt8))
  deriving DecidableEq, Repr

/-- options read so far -/
structure Parsing where
  options : Options := {}
  pending : Pending := .nothing
  deriving DecidableEq, Repr

namespace Parsing

/-- check what is pending -/
def settle (p : Parsing) : Except ArgumentError Options :=
  match p.pending with
  | .nothing => .ok p.options
  | .setting _ none => .error .missingValue
  | .setting s (some value) => p.options.assign s value
  | .texts raw => p.options.addTexts raw.reverse

def takeFlag (p : Parsing) (f : Flag) : Except ArgumentError Parsing := do
  let o ← p.settle
  return ⟨← o.raise f, .nothing⟩

/-- an option with its value attached -/
def takeAttached (p : Parsing) (s : Setting) (value : List UInt8) : Except ArgumentError Parsing := do
  let o ← p.settle
  return ⟨← o.assign s value, .nothing⟩

/-- an option whose value is to come -/
def takeOpen (p : Parsing) (s : Setting) : Except ArgumentError Parsing := do
  return ⟨← p.settle, .setting s none⟩

/-- a text that belongs to no option -/
def takeText (p : Parsing) (raw : List UInt8) : Except ArgumentError Parsing :=
  match p.pending with
  | .texts earlier => .ok { p with pending := .texts (raw :: earlier) }
  | _ => do return ⟨← p.settle, .texts [raw]⟩

/-- an argument that is no option: the value of the option that waits for one, or a text -/
def takePlain (p : Parsing) (raw : List UInt8) : Except ArgumentError Parsing :=
  match p.pending with
  | .setting s none => .ok { p with pending := .setting s (some raw) }
  | _ => p.takeText raw

def dash : UInt8 := 0x2d
def equalsSign : UInt8 := 0x3d

/-- an option by its long name, perhaps with a value after an equals sign -/
def takeLong (p : Parsing) (body : List UInt8) : Except ArgumentError Parsing :=
  let name := body.takeWhile (· != equalsSign)
  match Switch.ofLong? name, body.drop name.length with
  | none, _ => .error .unknownOption
  | some (.flag f), [] => p.takeFlag f
  | some (.flag _), _ :: _ => .error .unwantedValue
  | some (.setting s), [] => p.takeOpen s
  | some (.setting s), _ :: value => p.takeAttached s value

/-- options by their short names; what follows the name of one with a value is the value -/
def takeShort (p : Parsing) : List UInt8 → Except ArgumentError Parsing
  | [] => .ok p
  | b :: rest =>
    match Switch.ofShort? b with
    | none => .error .unknownOption
    | some (.flag f) => do takeShort (← p.takeFlag f) rest
    | some (.setting s) =>
      match rest with
      | [] => p.takeOpen s
      | b :: value => p.takeAttached s (if b = equalsSign then value else b :: value)

/-- one argument, not the one that ends the options -/
def take (p : Parsing) (raw : List UInt8) : Except ArgumentError Parsing :=
  match raw with
  | a :: b :: rest =>
    if a = dash then if b = dash then p.takeLong rest else p.takeShort (b :: rest)
    else p.takePlain raw
  | _ => p.takePlain raw

/-- the arguments after the options' end -/
def takeTexts (p : Parsing) : List (List UInt8) → Except ArgumentError Parsing
  | [] => .ok p
  | raw :: rest => do takeTexts (← p.takeText raw) rest

/-- all arguments; two dashes end the options -/
def takeAll (p : Parsing) : List (List UInt8) → Except ArgumentError Parsing
  | [] => .ok p
  | raw :: rest => if raw = [dash, dash] then p.takeTexts rest else do takeAll (← p.take raw) rest

end Parsing

/-- the options some arguments give -/
def Options.parse (arguments : List (List UInt8)) : Except ArgumentError Options := do
  (← Parsing.takeAll {} arguments).settle

end Brainfuck
