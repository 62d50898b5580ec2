/-
The eight commands and programs. Every character of a program text is one command; a character outside the eight is
kept as it stands and is an error only when execution reaches it.
-/

namespace Brainfuck

inductive Command where
  | moveRight
  | moveLeft
  | increment
  | decrement
  | write
  | read
  | loopStart
  | loopEnd
  /-- not a command -/
  | other (c : Char)
  deriving DecidableEq, Repr

namespace Command

def ofChar (c : Char) : Command :=
  if c = '>' then moveRight
  else if c = '<' then moveLeft
  else if c = '+' then increment
  else if c = '-' then decrement
  else if c = '.' then write
  else if c = ',' then read
  else if c = '[' then loopStart
  else if c = ']' then loopEnd
  else other c

def toChar : Command → Char
  | moveRight => '>'
  | moveLeft => '<'
  | increment => '+'
  | decrement => '-'
  | write => '.'
  | read => ','
  | loopStart => '['
  | loopEnd => ']'
  | other c => c

/-- one of the two brackets -/
def isBracket : Command → Bool
  | loopStart | loopEnd => true
  | _ => false

@[simp] theorem toChar_ofChar (c : Char) : (ofChar c).toChar = c := by
  unfold ofChar
  repeat' split
  all_goals simp_all [toChar]

end Command

/-- the commands of a program, by position -/
abbrev Program := Array Command

/-- one command per character -/
def Program.ofText (text : List Char) : Program := (text.map Command.ofChar).toArray

@[simp] theorem Program.size_ofText (text : List Char) : (Program.ofText text).size = text.length := by
  simp [ofText]

end Brainfuck
