/-
The machine without its surroundings. A store holds the tape, the pointer and how much input was consumed. At each
instruction `Job.decide` looks at the store and says which action follows or which error; `Store.apply` carries the
action out.
-/
import Brainfuck.Matching

namespace Brainfuck

structure Store where
  /-- the tape -/
  cells : Array UInt8
  pointer : Nat
  /-- characters of the input read so far -/
  consumed : Nat
  deriving DecidableEq, Repr

namespace Store

/-- a tape of zeros, nothing read -/
def blank (cells : Nat) : Store := ⟨Array.replicate cells 0, 0, 0⟩

/-- the cell under the pointer -/
def cell (s : Store) : UInt8 := s.cells.getD s.pointer 0

/-- write the cell under the pointer -/
def setCell (s : Store) (b : UInt8) : Store := { s with cells := s.cells.setIfInBounds s.pointer b }

theorem cell_setCell {s : Store} (h : s.pointer < s.cells.size) (b : UInt8) : (s.setCell b).cell = b := by
  simp [cell, setCell, h]

end Store

/-- what an instruction does, once it is known to be possible -/
inductive Action where
  | move (pointer : Nat)
  | increment
  | decrement
  | write (byte : UInt8)
  | read (c : Char)
  /-- past the loop that ends at `close` -/
  | skipLoop (close : Nat)
  | enterLoop
  /-- back to the loop's start -/
  | repeatLoop (start : Nat)
  | exitLoop
  deriving DecidableEq, Repr

/-- the low byte of a character's code point -/
def lowByte (c : Char) : UInt8 := c.toNat.toUInt8

theorem toNat_lowByte (c : Char) : (lowByte c).toNat = c.toNat % 256 := UInt8.toNat_ofNat'

/-- the effect of an action on the store -/
def Store.apply (s : Store) : Action → Store
  | .move p => { s with pointer := p }
  | .increment => let b := s.cell + 1; s.setCell b
  | .decrement => let b := s.cell - 1; s.setCell b
  | .read c => let n := s.consumed + 1; { s.setCell (lowByte c) with consumed := n }
  | .write _ | .skipLoop _ | .enterLoop | .repeatLoop _ | .exitLoop => s

/-- where execution goes on after an action at `ip` -/
def Action.next (ip : Nat) : Action → Nat
  | .skipLoop close => close + 1
  | .repeatLoop start => start
  | _ => ip + 1

/-- the byte an action sends to the program's output -/
def Action.emitted : Action → Option UInt8
  | .write b => some b
  | _ => none

/-- what a run writes: the program's own output, or a table of its steps instead -/
inductive View where
  | output
  | table
  deriving DecidableEq, Repr

/-- all that stays fixed during a run -/
structure Job where
  program : Program
  matching : Matching
  input : Array Char
  stepLimit : Option Nat
  view : View
  deriving Repr

namespace Job

/-- the action of command `c` at position `ip`, or why there is none -/
def decide (j : Job) (s : Store) (ip : Nat) : Command → Except RunError Action
  | .moveRight =>
    if s.pointer + 1 < s.cells.size then .ok (.move (s.pointer + 1)) else .error (.offTape .right ip s.pointer)
  | .moveLeft =>
    if 0 < s.pointer then .ok (.move (s.pointer - 1)) else .error (.offTape .left ip s.pointer)
  | .increment => .ok .increment
  | .decrement => .ok .decrement
  | .write => .ok (.write s.cell)
  | .read =>
    match j.input[s.consumed]? with
    | some c => .ok (.read c)
    | none => .error (.noInput ip)
  | .loopStart => .ok (if s.cell = 0 then .skipLoop (j.matching.partner ip) else .enterLoop)
  | .loopEnd => .ok (if s.cell = 0 then .exitLoop else .repeatLoop (j.matching.partner ip))
  | .other c => .error (.notACommand c ip)

/-- the limit, when `steps` instructions already reach it -/
def limitReached? (j : Job) (steps : Nat) : Option Nat :=
  j.stepLimit.filter (· ≤ steps)

end Job

end Brainfuck
