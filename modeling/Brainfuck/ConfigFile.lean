/-
The config file. Lines are blank, comments, section headers in brackets, or `key = value` with an optional pair of
double quotes around the value. Only the section `[limits]` counts. A later valid value replaces an earlier one; an
invalid value is noted and changes nothing.
-/
import Brainfuck.Count
import Brainfuck.Journal
import Brainfuck.Limits
import Brainfuck.Text.Blank
import Brainfuck.Text.Line

namespace Brainfuck.ConfigFile

inductive Line where
  /-- blank, a comment, or nothing recognised -/
  | idle
  | header (name : List Char)
  | setting (key value : List Char)
  deriving DecidableEq, Repr

/-- what stands between the first and the last character -/
def inside (cs : List Char) : List Char := cs.tail.dropLast

/-- remove one pair of enclosing double quotes -/
def unquote (cs : List Char) : List Char :=
  if cs.head? = some '"' ∧ cs.getLast? = some '"' ∧ 2 ≤ cs.length then inside cs else cs

/-- what a line is, its blanks at both ends already dropped -/
def Line.ofTrimmed (cs : List Char) : Line :=
  if cs = [] ∨ cs.head? = some '#' then .idle
  else if cs.head? = some '[' ∧ cs.getLast? = some ']' then .header (inside cs)
  else if '=' ∈ cs then
    .setting (Text.trim (cs.takeWhile (· != '='))) (unquote (Text.trim (cs.dropWhile (· != '=')).tail))
  else .idle

def Line.ofText (cs : List Char) : Line := .ofTrimmed (Text.trim cs)

/-- the section that holds limits -/
def sectionName : List Char := "limits".toList

/-- what was read so far -/
structure Reading where
  /-- inside the section that counts -/
  inSection : Bool := false
  limits : Limits := .unset
  /-- invalid values, the latest first -/
  ignored : List Event := []
  deriving DecidableEq, Repr

/-- a valid number of cells -/
def cellCount? (value : List Char) : Option CellCount := (Count.parse? value).bind CellCount.ofNat?

/-- a setting inside the section; an unknown key is skipped -/
def Reading.set (r : Reading) (key value : List Char) : Reading :=
  let invalid : Reading := { r with ignored := .settingIgnored (String.ofList key) (String.ofList value) :: r.ignored }
  if key = "max_steps".toList then
    match Count.parse? value with
    | some n => { r with limits := r.limits.withSteps n }
    | none => invalid
  else if key = "memory_size".toList then
    match cellCount? value with
    | some n => { r with limits := r.limits.withCells n }
    | none => invalid
  else r

def Reading.next (r : Reading) : Line → Reading
  | .idle => r
  | .header name => { r with inSection := name = sectionName }
  | .setting key value => if r.inSection then r.set key value else r

/-- read a whole file -/
def read (text : List Char) : Reading :=
  ((Text.lines text).map Line.ofText).foldl Reading.next {}

/-- the limits a file sets -/
def limits (text : List Char) : Limits := (read text).limits

/-- what is noted about a file, in line order -/
def notes (text : List Char) : List Event := (read text).ignored.reverse

end Brainfuck.ConfigFile
