/-
Which bracket belongs to which. All brackets are matched in one pass with a stack of the loops still open, before
anything runs; a bracket without a partner is an error at its position.
-/
import Brainfuck.Command
import Brainfuck.RunError

namespace Brainfuck

/-- partner of the bracket at each position; any other position is its own partner -/
structure Matching where
  partners : Array Nat
  deriving DecidableEq, Repr

namespace Matching

def partner (m : Matching) (i : Nat) : Nat := m.partners.getD i i

/-- record that `i` and `j` belong together -/
def pair (partners : Array Nat) (i j : Nat) : Array Nat :=
  (partners.setIfInBounds i j).setIfInBounds j i

/-- go on from position `i` with the innermost open loop on top of `openLoops` -/
def scan : List Command → Nat → List Nat → Array Nat → Except RunError Matching
  | [], _, [], partners => .ok ⟨partners⟩
  | [], _, o :: _, _ => .error (.unmatchedBracket .opening o)
  | .loopStart :: cs, i, openLoops, partners => scan cs (i + 1) (i :: openLoops) partners
  | .loopEnd :: _, i, [], _ => .error (.unmatchedBracket .closing i)
  | .loopEnd :: cs, i, o :: openLoops, partners => scan cs (i + 1) openLoops (pair partners o i)
  | _ :: cs, i, openLoops, partners => scan cs (i + 1) openLoops partners

/-- the matching of a whole program -/
def ofProgram (p : Program) : Except RunError Matching :=
  scan p.toList 0 [] (Array.range p.size)

end Matching

end Brainfuck
