/-
Numbers as people write them: an optional sign, then digits with at most one point and perhaps a power of ten, or the
name of infinity or of no number, in any case.
-/
import Brainfuck.Count

namespace Brainfuck.Text

/-- what follows an optional sign -/
def afterSign : List Char → List Char
  | '+' :: cs => cs
  | '-' :: cs => cs
  | cs => cs

/-- nothing, or a power of ten -/
def isExponent : List Char → Bool
  | [] => true
  | c :: cs =>
    let digits := afterSign cs
    (c = 'e' || c = 'E') && !digits.isEmpty && digits.all Count.isDigit

/-- digits with at most one point, then perhaps a power of ten -/
def isUnsignedDecimal (cs : List Char) : Bool :=
  let whole := cs.takeWhile Count.isDigit
  match cs.dropWhile Count.isDigit with
  | '.' :: rest =>
    !(whole.isEmpty && (rest.takeWhile Count.isDigit).isEmpty) && isExponent (rest.dropWhile Count.isDigit)
  | rest => !whole.isEmpty && isExponent rest

def isDecimal (cs : List Char) : Bool :=
  let body := afterSign cs
  let name := body.map Char.toLower
  isUnsignedDecimal body || name = "inf".toList || name = "infinity".toList || name = "nan".toList

end Brainfuck.Text
