/-
Sets of code points given by ranges, as tables of character properties give them.
-/

namespace Brainfuck.Text

/-- the code point `n` lies in one of the ranges, both ends included -/
def inRanges (ranges : Array (Nat × Nat)) (n : Nat) : Bool :=
  ranges.any fun r => r.1 ≤ n && n ≤ r.2

end Brainfuck.Text
