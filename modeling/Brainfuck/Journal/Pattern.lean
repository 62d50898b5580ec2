/-
Patterns: regular expressions, by which a directive asks for a field's value. Only whether a pattern is well formed
matters here, since no value is ever compared with one. A pattern is read from left to right: a repetition needs
something to repeat, groups and bracketed classes must be closed, and escapes must be known. Characters are taken as
such, without the tables of Unicode: in Unicode mode the classes and boundaries that need them, and matching in any
case, are refused; in byte mode everything that could match a byte beyond ASCII is. A closing brace ends the field
that a pattern stands in, so nothing in braces can be written either.
-/
import Brainfuck.Count
import Brainfuck.Text.Blank
import Brainfuck.Text.Letter
import Brainfuck.Text.Numeral

namespace Brainfuck.Pattern

/-- how a pattern is read from some place on -/
structure Mode where
  /-- in any case -/
  caseless : Bool := false
  unicode : Bool := true
  /-- blanks and comments between the parts are left out -/
  spaced : Bool := false
  deriving DecidableEq, Repr

/-- drop blanks and comments in front; a comment goes from a number sign to the end of the line -/
def dropSpace (comment : Bool) : List Char → List Char
  | [] => []
  | c :: cs =>
    if comment then dropSpace (c != '\n') cs
    else if Text.isBlank c then dropSpace false cs
    else if c = '#' then dropSpace true cs
    else c :: cs

def Mode.skip (m : Mode) (cs : List Char) : List Char := if m.spaced then dropSpace false cs else cs

/-! ## Escapes -/

/-- what an escape stands for -/
inductive Escape where
  /-- a character, by its number -/
  | char (n : Nat)
  /-- digits, blanks or word characters -/
  | kind
  /-- a place between characters -/
  | place
  deriving DecidableEq, Repr

def hexValue? (c : Char) : Option Nat :=
  if Count.isDigit c then some (c.toNat - '0'.toNat)
  else if 'a' ≤ c && c ≤ 'f' then some (c.toNat - 'a'.toNat + 10)
  else if 'A' ≤ c && c ≤ 'F' then some (c.toNat - 'A'.toNat + 10)
  else none

/-- read `k` hexadecimal digits after the number `n`: the number, and what follows them -/
def hexNumber? (m : Mode) (k n : Nat) (cs : List Char) : Option (Nat × List Char) :=
  match k, m.skip cs with
  | 0, rest => some (n, rest)
  | _ + 1, [] => none
  | k + 1, c :: rest => do hexNumber? m k (16 * n + (← hexValue? c)) rest

/-- a character by its number; a number of two digits is a byte in byte mode -/
def numbered? (m : Mode) (digits : Nat) (cs : List Char) : Option (Escape × List Char) := do
  let (n, rest) ← hexNumber? m digits 0 cs
  if n.isValidChar ∧ (m.unicode ∨ 2 < digits ∨ n < 0x80) then some (.char n, rest) else none

/-- punctuation and control characters stand for themselves after a backslash -/
def isPlain (c : Char) : Bool := c.toNat < 0x80 && !c.isAlphanum && c != '<' && c != '>'

/-- an escape, of which the backslash has been read -/
def escape? (m : Mode) : List Char → Option (Escape × List Char)
  | [] => none
  | c :: rest =>
    if isPlain c then some (.char c.toNat, rest)
    else
      match c with
      | 'a' => some (.char 0x7, rest)
      | 'f' => some (.char 0xc, rest)
      | 't' => some (.char 0x9, rest)
      | 'n' => some (.char 0xa, rest)
      | 'r' => some (.char 0xd, rest)
      | 'v' => some (.char 0xb, rest)
      | 'x' => numbered? m 2 rest
      | 'u' => numbered? m 4 rest
      | 'U' => numbered? m 8 rest
      | 'A' | 'z' => some (.place, rest)
      | 'b' | 'B' | '<' | '>' => if m.unicode then none else some (.place, rest)
      | 'd' | 's' | 'w' => if m.unicode then none else some (.kind, rest)
      | _ => none

/-! ## Bracketed classes -/

/-- names of classes that may stand between `[:` and `:]` -/
def classNames : List String :=
  ["alnum", "alpha", "ascii", "blank", "cntrl", "digit", "graph", "lower", "print", "punct", "space", "upper", "word",
   "xdigit"]

/-- a named class, of which the opening bracket has been read: whether it is negated, and what follows -/
def namedClass? : List Char → Option (Bool × List Char)
  | ':' :: rest =>
    let negated := rest.head? = some '^'
    let body := if negated then rest.tail else rest
    let name := body.takeWhile (· != ':')
    match body.drop name.length with
    | ':' :: ']' :: rest => if classNames.contains (String.ofList name) then some (negated, rest) else none
    | _ => none
  | _ => none

/-- drop hyphens in front, and blanks and comments after each -/
def dropHyphens (m : Mode) (fuel : Nat) (cs : List Char) : List Char :=
  match fuel, cs with
  | fuel + 1, '-' :: rest => dropHyphens m fuel (m.skip rest)
  | _, cs => cs

/-- the start of a class after its bracket: a caret negates, hyphens or one closing bracket stand for themselves -/
def openClass? (m : Mode) (cs : List Char) : Option (List Char) :=
  let cs := m.skip cs
  let negated := cs.head? = some '^'
  if negated && !m.unicode then none
  else
    let cs := if negated then m.skip cs.tail else cs
    let rest := dropHyphens m cs.length cs
    match rest with
    | ']' :: after => some (if rest.length = cs.length then m.skip after else rest)
    | _ => some rest

/-- a member of a class or an end of a range -/
def member? (m : Mode) : List Char → Option (Escape × List Char)
  | [] => none
  | '\\' :: rest => escape? m rest
  | c :: rest => some (.char c.toNat, rest)

/-- the member may stand in a class -/
def mayStand (m : Mode) : Escape → Bool
  | .char n => m.unicode || n < 0x80
  | .kind => true
  | .place => false

/-- one member or one range, and what follows -/
def range? (m : Mode) (cs : List Char) : Option (List Char) := do
  let (first, rest) ← member? m cs
  if !mayStand m first then none
  else
    let rest := m.skip rest
    match rest with
    | '-' :: after =>
      let after := m.skip after
      if after.head? = some ']' || after.head? = some '-' then some rest
      else
        let (last, after) ← member? m after
        match first, last with
        | .char a, .char b => if a ≤ b && mayStand m last then some after else none
        | _, _ => none
    | _ => some rest

/-- the rest of a pattern after the end of a class, of which `depth` brackets are open -/
def afterClass? (m : Mode) (fuel depth : Nat) (cs : List Char) : Option (List Char) :=
  match fuel, m.skip cs with
  | 0, _ => none
  | _, [] => none
  | fuel + 1, '[' :: rest =>
    match namedClass? rest with
    | some (negated, rest) => if negated && !m.unicode then none else afterClass? m fuel depth rest
    | none => do afterClass? m fuel (depth + 1) (← openClass? m rest)
  | fuel + 1, ']' :: rest => if depth ≤ 1 then some rest else afterClass? m fuel (depth - 1) rest
  | fuel + 1, '&' :: '&' :: rest => afterClass? m fuel depth rest
  | fuel + 1, '-' :: '-' :: rest => afterClass? m fuel depth rest
  | fuel + 1, '~' :: '~' :: rest => afterClass? m fuel depth rest
  | fuel + 1, cs => do afterClass? m fuel depth (← range? m cs)

/-- the rest of a pattern after a class, of which the bracket has been read -/
def class? (m : Mode) (cs : List Char) : Option (List Char) :=
  if m.caseless && m.unicode then none
  else do afterClass? m (cs.length + 1) 1 (← openClass? m cs)

/-! ## Groups -/

/-- flags up to a colon or a closing parenthesis: each at most once, one hyphen at most and none at the end -/
def flags? (seen : List Char) : List Char → Option (List Char × Char × List Char)
  | [] => none
  | c :: rest =>
    if c = ':' || c = ')' then if seen.head? = some '-' then none else some (seen.reverse, c, rest)
    else if "imsUuxR-".toList.contains c && !seen.contains c then flags? (c :: seen) rest
    else none

/-- flags before a hyphen switch on, flags after it switch off -/
def Mode.apply (m : Mode) (flags : List Char) : Mode :=
  let on := flags.takeWhile (· != '-')
  let switched (flag : Char) (now : Bool) : Bool := if flags.contains flag then on.contains flag else now
  ⟨switched 'i' m.caseless, switched 'u' m.unicode, switched 'x' m.spaced⟩

/-- a group's name starts with a letter or a low line and goes on with letters, numerals and some marks -/
def isName : List Char → Bool
  | [] => false
  | c :: cs =>
    (c = '_' || Text.isLetter c) &&
      cs.all fun c => c = '_' || c = '.' || c = '[' || c = ']' || Text.isLetter c || Text.isNumeral c

/-- what is known of a pattern up to some place -/
structure Reading where
  mode : Mode := {}
  /-- the modes around the open groups, innermost first -/
  outer : List Mode := []
  /-- names of groups -/
  names : List (List Char) := []
  /-- something stands before this place that can be repeated -/
  repeatable : Bool := false
  deriving DecidableEq, Repr

namespace Reading

/-- something was read that can be repeated -/
def item (r : Reading) : Reading := { r with repeatable := true }

/-- a group is opened, inside of which `mode` holds -/
def enter (r : Reading) (mode : Mode) : Reading :=
  { r with mode, outer := r.mode :: r.outer, repeatable := false }

/-- the innermost group is closed -/
def leave? (r : Reading) : Option Reading :=
  match r.outer with
  | [] => none
  | m :: outer => some { r with mode := m, outer, repeatable := true }

/-- a group with a name, of which `<` has been read -/
def named? (r : Reading) (cs : List Char) : Option (Reading × List Char) :=
  let name := cs.takeWhile (· != '>')
  match cs.drop name.length with
  | [] => none
  | _ :: rest =>
    if isName name && !r.names.contains name then
      some (Reading.enter { r with names := name :: r.names } r.mode, rest)
    else none

/-- what an opening parenthesis starts: a group, perhaps with a name or flags, or flags for the rest of the group
around it -/
def group? (r : Reading) (cs : List Char) : Option (Reading × List Char) :=
  match r.mode.skip cs with
  | '?' :: 'P' :: '<' :: rest => r.named? rest
  | '?' :: '<' :: rest => r.named? rest
  | '?' :: rest => do
    let (flags, stop, rest) ← flags? [] rest
    let mode := r.mode.apply flags
    if stop = ':' then some (r.enter mode, rest)
    else if flags.isEmpty then none
    else some ({ r with mode, repeatable := false }, rest)
  | rest => some (r.enter r.mode, rest)

/-- a character for itself; its other cases are not known in Unicode mode -/
def literal? (r : Reading) : Option Reading := if r.mode.caseless && r.mode.unicode then none else some r.item

/-- read the next part of a pattern, which is not empty -/
def next? (r : Reading) : List Char → Option (Reading × List Char)
  | [] => none
  | '(' :: rest => r.group? rest
  | ')' :: rest => do return (← r.leave?, rest)
  | '|' :: rest => some ({ r with repeatable := false }, rest)
  | '[' :: rest => do return (r.item, ← class? r.mode rest)
  | '\x7b' :: _ => none
  | '\\' :: rest => do
    let (e, rest) ← escape? r.mode rest
    match e with
    | .char _ => return (← r.literal?, rest)
    | .kind | .place => return (r.item, rest)
  | '.' :: rest => if r.mode.unicode then some (r.item, rest) else none
  | c :: rest =>
    if c = '?' || c = '*' || c = '+' then if r.repeatable then some (r, rest) else none
    else if c = '^' || c = '$' then some (r.item, rest)
    else do return (← r.literal?, rest)

/-- the rest of a pattern can be read, in at most `fuel` parts -/
def ends (r : Reading) (fuel : Nat) (cs : List Char) : Bool :=
  match fuel, r.mode.skip cs with
  | _, [] => r.outer.isEmpty
  | 0, _ => false
  | fuel + 1, cs =>
    match r.next? cs with
    | some (r, rest) => r.ends fuel rest
    | none => false

end Reading

/-- the pattern is well formed; each part takes at least one character, so its length is fuel enough -/
def isValid (cs : List Char) : Bool := Reading.ends {} cs.length cs

end Brainfuck.Pattern
