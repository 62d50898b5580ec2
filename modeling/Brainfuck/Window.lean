/-
A short stretch of the program around a position, with a caret under the character at that position. The stretch
reaches 32 characters to either side as far as the program goes. Positions are 64-bit words, and so is the sum that
gives the stretch's end: near the top of the range it wraps, and a stretch that would then end before it starts does
not exist.
-/
import Brainfuck.Count

namespace Brainfuck

structure Window where
  /-- the characters shown, controls replaced -/
  shown : List Char
  /-- characters shown before the one the caret points at -/
  caret : Nat
  deriving DecidableEq, Repr

namespace Window

/-- characters shown on either side -/
def reach : Nat := 32

/-- first position of the stretch -/
def start (pos : Nat) : Nat := pos - reach

/-- the position after the stretch, in a program of `total` characters -/
def stop (total pos : Nat) : Nat := min ((pos + reach + 1) % Count.bound) total

/-- control characters would break the line -/
def isControl (c : Char) : Bool := c.toNat < 0x20 || (0x7f ≤ c.toNat && c.toNat < 0xa0)

/-- what stands for a control character -/
def placeholder : Char := '·'

def shownAs (c : Char) : Char := if isControl c then placeholder else c

/-- the window around `pos`, unless its end wraps to before its start -/
def around? (code : List Char) (pos : Nat) : Option Window :=
  let first := min (start pos) code.length
  let last := stop code.length pos
  if first ≤ last then some ⟨((code.take last).drop first).map shownAs, pos - start pos⟩ else none

/-- the two lines of the window -/
def text (w : Window) : List Char :=
  ' ' :: ' ' :: w.shown ++ '\n' :: ' ' :: ' ' :: List.replicate w.caret ' ' ++ ['^', '\n']

end Window

end Brainfuck
