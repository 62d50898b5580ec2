/-
Counts as people write them: an optional plus sign, then decimal digits. A count fits into 64 bits; larger numbers are
refused, not truncated.
-/

namespace Brainfuck.Count

/-- one more than the largest count -/
def bound : Nat := 0x10000000000000000

def isDigit (c : Char) : Bool := '0' ≤ c && c ≤ '9'

/-- the digits after the optional sign -/
def unsigned : List Char → List Char
  | '+' :: ds => ds
  | ds => ds

/-- the value of a digit string read after the number `n` -/
def valueFrom (n : Nat) (ds : List Char) : Nat :=
  ds.foldl (fun n d => 10 * n + (d.toNat - '0'.toNat)) n

/-- the value of a digit string -/
def value (ds : List Char) : Nat := valueFrom 0 ds

/-- the value of a digit string read after `n`, or `bound` where it is not smaller -/
def cappedFrom (n : Nat) (ds : List Char) : Nat :=
  ds.foldl (fun n d => min bound (10 * n + (d.toNat - '0'.toNat))) n

theorem cappedFrom_eq (n : Nat) (ds : List Char) : cappedFrom (min bound n) ds = min bound (valueFrom n ds) := by
  induction ds generalizing n with
  | nil => rfl
  | cons d ds ih =>
    have h : min bound (10 * min bound n + (d.toNat - '0'.toNat)) = min bound (10 * n + (d.toNat - '0'.toNat)) := by
      omega
    simp only [cappedFrom, valueFrom, List.foldl_cons] at ih ⊢
    rw [h]
    exact ih _

/-- the count a text writes, if it writes one; numbers grow no larger than `bound` on the way -/
def parse? (cs : List Char) : Option Nat :=
  let ds := unsigned cs
  if ds.isEmpty || !ds.all isDigit then none
  else
    let n := cappedFrom 0 ds
    if n < bound then some n else none

/-- the decimal digits of a count -/
def render (n : Nat) : List Char := Nat.toDigits 10 n

theorem render_ne_nil (n : Nat) : render n ≠ [] := Nat.toDigits_ne_nil

theorem isDigit_of_mem_render {n : Nat} {c : Char} (h : c ∈ render n) : isDigit c = true := by
  have hd : c.isDigit = true := Nat.isDigit_of_mem_toDigits (by decide) (by decide) h
  simpa [isDigit, Char.isDigit, Char.le_def] using hd

theorem value_render (n : Nat) : value (render n) = n := by
  have h : Nat.ofDigitChars 10 (Nat.toDigits 10 n) 0 = n := Nat.ofDigitChars_ten_toDigits
  rwa [Nat.ofDigitChars_eq_foldl] at h

theorem parse?_eq (cs : List Char) :
    parse? cs =
      if (unsigned cs).isEmpty || !(unsigned cs).all isDigit then none
      else if value (unsigned cs) < bound then some (value (unsigned cs)) else none := by
  have h : cappedFrom 0 (unsigned cs) = min bound (value (unsigned cs)) := cappedFrom_eq 0 _
  by_cases hd : ((unsigned cs).isEmpty || !(unsigned cs).all isDigit) = true
  · simp only [parse?, if_pos hd]
  · simp only [parse?, if_neg hd, h]
    by_cases hv : value (unsigned cs) < bound
    · rw [Nat.min_eq_right (Nat.le_of_lt hv)]
    · rw [Nat.min_eq_left (Nat.le_of_not_lt hv), if_neg (Nat.lt_irrefl _), if_neg hv]

end Brainfuck.Count
