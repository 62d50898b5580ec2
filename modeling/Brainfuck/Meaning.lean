/-
What programs mean, without positions to jump to: a block is evaluated from left to right, and a loop evaluates its
body as long as the cell is not zero. Every command counts one step, a loop's brackets included, and a step limit is
looked at before each step. `pos` is the position of the block's first command; it appears in errors only. The state
keeps the tape as a list, the input not yet read and the output written so far.
-/
import Brainfuck.Block
import Brainfuck.RunError

namespace Brainfuck.Meaning

structure State where
  tape : List UInt8
  pointer : Nat := 0
  unread : List Char
  written : List UInt8 := []
  steps : Nat := 0
  deriving DecidableEq, Repr

namespace State

/-- the cell under the pointer -/
def cell (s : State) : UInt8 := s.tape.getD s.pointer 0

/-- write the cell under the pointer -/
def setCell (s : State) (b : UInt8) : State := { s with tape := s.tape.set s.pointer b }

/-- one step more -/
def tick (s : State) : State := { s with steps := s.steps + 1 }

end State

/-- how an evaluation ends: in a state, with an error or without -/
structure Result where
  state : State
  error : Option RunError := none
  deriving DecidableEq, Repr

/-- the effect of one command; a bracket has none by itself, for in a block it belongs to a loop -/
def effect (pos : Nat) (s : State) : Command → Except RunError State
  | .moveRight =>
    if s.pointer + 1 = s.tape.length then .error (.offTape .right pos s.pointer)
    else .ok { s with pointer := s.pointer + 1 }
  | .moveLeft =>
    match s.pointer with
    | 0 => .error (.offTape .left pos 0)
    | p + 1 => .ok { s with pointer := p }
  | .increment => .ok (s.setCell (s.cell + 1))
  | .decrement => .ok (s.setCell (s.cell - 1))
  | .write => .ok { s with written := s.written ++ [s.cell] }
  | .read =>
    match s.unread with
    | [] => .error (.noInput pos)
    | c :: cs => .ok { s.setCell (UInt8.ofNat c.toNat) with unread := cs }
  | .loopStart => .error (.unmatchedBracket .opening pos)
  | .loopEnd => .error (.unmatchedBracket .closing pos)
  | .other c => .error (.notACommand c pos)

/-- the limit, when the steps taken have reached it -/
def limitReached? (limit : Option Nat) (s : State) : Option Nat :=
  match limit with
  | none => none
  | some l => if l ≤ s.steps then some l else none

/-- evaluate a block; no result when `fuel` does not suffice -/
def eval (limit : Option Nat) : Nat → Nat → Block → State → Option Result
  | 0, _, _, _ => none
  | _ + 1, _, .done, s => some ⟨s, none⟩
  | fuel + 1, pos, .leaf c rest, s =>
    match limitReached? limit s with
    | some l => some ⟨s, some (.stepLimitReached l)⟩
    | none =>
      match effect pos s c with
      | .error e => some ⟨s, some e⟩
      | .ok s => eval limit fuel (pos + 1) rest s.tick
  | fuel + 1, pos, .loop body rest, s =>
    match limitReached? limit s with
    | some l => some ⟨s, some (.stepLimitReached l)⟩
    | none =>
      if s.cell = 0 then eval limit fuel (pos + body.size + 2) rest s.tick
      else
        match eval limit fuel (pos + 1) body s.tick with
        | none => none
        | some ⟨s, some e⟩ => some ⟨s, some e⟩
        | some ⟨s, none⟩ =>
          match limitReached? limit s with
          | some l => some ⟨s, some (.stepLimitReached l)⟩
          | none =>
            if s.cell = 0 then eval limit fuel (pos + body.size + 2) rest s.tick
            else eval limit fuel pos (.loop body rest) s.tick

end Brainfuck.Meaning
