/-
Filters as people write them: directives parted by commas. A directive is a level, or a target, perhaps with a span or
a field in brackets, perhaps with a level after an equals sign. A bare level holds for every target, and a directive
without a level is heard in full. A directive that asks for a span or for a field's value holds inside of spans only;
no event here is noted inside of one.

Where the parts of a directive lie is found with the blanks around it taken away, but the parts are cut, by bytes,
from the text with its blanks. So blanks behind belong to the last part, and blanks in front shift every part.
-/
import Brainfuck.Journal.Pattern
import Brainfuck.Journal.Rule
import Brainfuck.Text.Decimal
import Brainfuck.Text.Utf8

namespace Brainfuck

inductive Directive where
  | rule (r : Rule)
  /-- holds inside of spans only -/
  | inSpan
  deriving DecidableEq, Repr

namespace Directive

/-- a level by name in any case, or by its number; `off` hears nothing -/
def threshold? (cs : List Char) : Option Threshold :=
  match Count.parse? cs with
  | some 0 => some none
  | some 1 => some (some .error)
  | some 2 => some (some .warn)
  | some 3 => some (some .info)
  | some 4 => some (some .debug)
  | some 5 => some (some .trace)
  | some _ => none
  | none =>
    let name := cs.map Char.toLower
    if name = "off".toList then some none
    else if name = "error".toList then some (some .error)
    else if name = "warn".toList then some (some .warn)
    else if name = "info".toList then some (some .info)
    else if name = "debug".toList then some (some .debug)
    else if name = "trace".toList then some (some .trace)
    else none

/-- the level after an equals sign; none written means all -/
def levelAfter? (cs : List Char) : Option Threshold :=
  if cs = [] then some (some .trace) else threshold? cs

/-- a directive may start with this character, or with a bracket -/
def mayStart (c : Char) : Bool :=
  c = '-' || c = ':' || c = '_' || Text.isLetter c || Text.isNumeral c

/-- values of fields are numbers or patterns -/
def isValue (cs : List Char) : Bool := Text.isDecimal cs || Pattern.isValid cs

/-- a field's name and whether a value is asked for; a second equals sign ends the value -/
def field? (cs : List Char) : Option (List Char × Bool) :=
  let name := cs.takeWhile (· != '=')
  match cs.drop name.length with
  | [] => some (name, false)
  | _ :: rest => if isValue (rest.takeWhile (· != '=')) then some (name, true) else none

def byteCount (cs : List Char) : Nat := (Text.encode cs).length

/-- a directive's text, of which parts are cut out -/
structure Source where
  whole : List Char
  /-- the text without the blanks around it -/
  body : List Char
  deriving Repr

/-- the part from byte `first` to byte `last` -/
def Source.cut? (s : Source) (first last : Nat) : Option (List Char) := Text.byteSlice? s.whole first last

/-- the part from byte `first` on -/
def Source.rest? (s : Source) (first : Nat) : Option (List Char) := s.cut? first (byteCount s.whole)

/-- the level behind a bracket that closes just before byte `n`, where `cs` are the characters that follow -/
def levelBehind? (s : Source) (n : Nat) : List Char → Option Threshold
  | [] => some (some .trace)
  | '=' :: _ => do levelAfter? (← s.rest? (n + 1))
  | _ => none

/-- a field in braces behind the span's name: the text `cs` starts at byte `n`, behind the opening brace -/
def ofField? (s : Source) (target span : List Char) (n : Nat) (cs : List Char) : Option Directive := do
  let text := cs.takeWhile (· != '\x7d')
  let stop := n + byteCount text
  match cs.drop text.length with
  | '\x7d' :: ']' :: after =>
    let (field, asksValue) ← field? (← s.cut? n stop)
    let threshold ← levelBehind? s (stop + 2) after
    if text.isEmpty then none
    else if span.isEmpty && !asksValue then some (.rule { target, field, threshold })
    else some .inSpan
  | _ => none

/-- a span in brackets behind the target: the text `cs` starts at byte `n`, behind the opening bracket -/
def ofSpan? (s : Source) (target : List Char) (n : Nat) (cs : List Char) : Option Directive := do
  let name := cs.takeWhile fun c => c != ']' && c != '\x7b'
  let stop := n + byteCount name
  match cs.drop name.length with
  | ']' :: after =>
    let _ ← levelBehind? s (stop + 1) after
    some .inSpan
  | '\x7b' :: inner => ofField? s target (← s.cut? n stop) (stop + 1) inner
  | _ => none

def ofSource? (s : Source) : Option Directive :=
  match s.body with
  | [] => none
  | '[' :: cs => ofSpan? s [] 1 cs
  | c :: _ =>
    if !mayStart c then none
    else do
      let name := s.body.takeWhile fun c => c != '=' && c != '['
      let stop := byteCount name
      match s.body.drop name.length with
      | [] =>
        match threshold? s.whole with
        | some threshold => some (.rule { threshold })
        | none => some (.rule { target := s.whole, threshold := some .trace })
      | '[' :: cs => ofSpan? s (← s.cut? 0 stop) (stop + 1) cs
      | _ => some (.rule { target := ← s.cut? 0 stop, threshold := ← levelAfter? (← s.rest? (stop + 1)) })

def parse? (cs : List Char) : Option Directive := ofSource? ⟨cs, Text.trim cs⟩

/-- the texts between commas, empty ones left out -/
def pieces (piece : List Char) : List Char → List (List Char)
  | [] => if piece.isEmpty then [] else [piece.reverse]
  | c :: cs =>
    if c = ',' then
      if piece.isEmpty then pieces [] cs else piece.reverse :: pieces [] cs
    else pieces (c :: piece) cs

/-- the rule of a directive that holds outside of spans -/
def rule? : Directive → Option Rule
  | rule r => some r
  | inSpan => none

end Directive

namespace Filter

/-- the filter some directives make; none at all hear errors only -/
def ofDirectives (ds : List Directive) : Filter :=
  if ds.isEmpty then upTo .error else ofRules (ds.filterMap Directive.rule?)

def parse? (cs : List Char) : Option Filter :=
  ((Directive.pieces [] cs).mapM Directive.parse?).map ofDirectives

/-- the filter a variable asks for; without a readable one warnings are heard -/
def ofVariable (value : Option (List Char)) : Filter :=
  (value.bind parse?).getD (upTo .warn)

end Filter

end Brainfuck
