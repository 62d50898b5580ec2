/-
Lines of a text and lines of a byte stream. A line ends with a line feed or with the text. `lines` drops the line feed
and one carriage return before it; `byteLines` keeps the line feed, so that its lines put together are the stream.
-/

namespace Brainfuck.Text

/-- the line whose characters were collected in reverse, less one carriage return at its end -/
def closeLine : List Char → List Char
  | '\r' :: cs => cs.reverse
  | cs => cs.reverse

/-- the lines of `cur.reverse ++ cs`, where `cur` holds no line feed -/
def linesFrom (cur : List Char) : List Char → List (List Char)
  | [] => if cur.isEmpty then [] else [cur.reverse]
  | c :: cs => if c = '\n' then closeLine cur :: linesFrom [] cs else linesFrom (c :: cur) cs

/-- the lines of a text; a text that ends in a line feed has no empty last line -/
def lines (cs : List Char) : List (List Char) := linesFrom [] cs

@[simp] theorem lines_nil : lines [] = [] := rfl

theorem linesFrom_append {cs : List Char} (h : '\n' ∉ cs) (cur rest : List Char) :
    linesFrom cur (cs ++ rest) = linesFrom (cs.reverse ++ cur) rest := by
  induction cs generalizing cur with
  | nil => rfl
  | cons c cs ih =>
    have hc : c ≠ '\n' := fun e => h (e ▸ List.mem_cons_self)
    have hcs : '\n' ∉ cs := fun m => h (List.mem_cons_of_mem _ m)
    simp [linesFrom, hc, ih hcs]

theorem closeLine_reverse {l : List Char} (h : l.getLast? ≠ some '\r') : closeLine l.reverse = l := by
  unfold closeLine
  split
  · rename_i cs hl
    have hlast : l.getLast? = some '\r' := by rw [List.getLast?_eq_head?_reverse, hl]; rfl
    exact absurd hlast h
  · exact List.reverse_reverse l

/-- lines put together, each with its line feed, are cut into the same lines -/
theorem lines_flatMap {ls : List (List Char)} (h : ∀ l ∈ ls, '\n' ∉ l) (hr : ∀ l ∈ ls, l.getLast? ≠ some '\r') :
    lines (ls.flatMap (· ++ ['\n'])) = ls := by
  induction ls with
  | nil => rfl
  | cons l ls ih =>
    have hrest : lines (ls.flatMap (· ++ ['\n'])) = ls :=
      ih (fun l' m => h l' (List.mem_cons_of_mem _ m)) (fun l' m => hr l' (List.mem_cons_of_mem _ m))
    rw [List.flatMap_cons, lines, List.append_assoc, linesFrom_append (h l List.mem_cons_self), List.append_nil]
    simp only [List.singleton_append, linesFrom, if_pos, closeLine_reverse (hr l List.mem_cons_self)]
    exact congrArg (l :: ·) hrest

/-- a line feed as a byte -/
def lineFeed : UInt8 := 10

/-- the lines of `line.reverse ++ bs`, where `line` holds no line feed -/
def byteLinesFrom (line : List UInt8) : List UInt8 → List (List UInt8)
  | [] => if line.isEmpty then [] else [line.reverse]
  | b :: bs =>
    if b = lineFeed then (b :: line).reverse :: byteLinesFrom [] bs else byteLinesFrom (b :: line) bs

/-- a byte stream cut into lines, each with the line feed that ends it -/
def byteLines (bs : List UInt8) : List (List UInt8) := byteLinesFrom [] bs

end Brainfuck.Text
