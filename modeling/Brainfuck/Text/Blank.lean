/-
Blank characters (the White_Space property of Unicode) and what is done with them: `trim` drops them at both ends of
a text, `squeeze` drops them everywhere.
-/

namespace Brainfuck.Text

/-- the twenty-five characters of White_Space -/
def isBlank (c : Char) : Bool :=
  let n := c.toNat
  (9 ≤ n && n ≤ 13) || n == 0x20 || n == 0x85 || n == 0xa0 || n == 0x1680 || (0x2000 ≤ n && n ≤ 0x200a) ||
    n == 0x2028 || n == 0x2029 || n == 0x202f || n == 0x205f || n == 0x3000

/-- drop the blanks in front -/
def trimStart (cs : List Char) : List Char := cs.dropWhile isBlank

/-- drop the blanks at the end -/
def trimEnd (cs : List Char) : List Char := (cs.reverse.dropWhile isBlank).reverse

/-- drop the blanks at both ends -/
def trim (cs : List Char) : List Char := trimEnd (trimStart cs)

/-- drop every blank -/
def squeeze (cs : List Char) : List Char := cs.filter fun c => !isBlank c

@[simp] theorem trim_nil : trim [] = [] := rfl

@[simp] theorem squeeze_nil : squeeze [] = [] := rfl

@[simp] theorem squeeze_append (a b : List Char) : squeeze (a ++ b) = squeeze a ++ squeeze b :=
  List.filter_append ..

end Brainfuck.Text
