/-
Quoted characters and texts, as diagnostics show them. A character with a short name is written by it, a hidden one by
its number, any other as it is. Only the quote that encloses the text is escaped inside it.
-/
import Brainfuck.Text.Hidden

namespace Brainfuck.Text

/-- the lower-case hexadecimal digits of a number -/
def hexDigits (n : Nat) : List Char := Nat.toDigits 16 n

/-- one character between quotes `q` -/
def quoteChar (q : Char) (c : Char) : List Char :=
  if c = '\x00' then ['\\', '0']
  else if c = '\t' then ['\\', 't']
  else if c = '\r' then ['\\', 'r']
  else if c = '\n' then ['\\', 'n']
  else if c = '\\' then ['\\', '\\']
  else if c = q then ['\\', q]
  else if isHidden c then '\\' :: 'u' :: '\x7b' :: (hexDigits c.toNat ++ ['\x7d'])
  else [c]

/-- a character in single quotes -/
def quotedChar (c : Char) : List Char := '\'' :: (quoteChar '\'' c ++ ['\''])

theorem lineFeed_not_mem_hexDigits (n : Nat) : '\n' ∉ hexDigits n := by
  have hdigit : ∀ d < 16, '\n' ≠ Nat.digitChar d := by decide
  induction n using Nat.strongRecOn with
  | ind n ih =>
    unfold hexDigits at ih ⊢
    rw [Nat.toDigits_eq_if (by decide)]
    split
    · rename_i hn
      simp [hdigit n hn]
    · have hq := ih (n / 16) (by omega)
      have hr := hdigit (n % 16) (Nat.mod_lt n (by decide))
      simp [hq, hr]

theorem lineFeed_not_mem_quotedChar (c : Char) : '\n' ∉ quotedChar c := by
  have hquoted : '\n' ∉ quoteChar '\'' c := by
    by_cases hc : c = '\n'
    · subst hc; decide
    · have hne : '\n' ≠ c := fun h => hc h.symm
      unfold quoteChar
      repeat' split
      all_goals simp [lineFeed_not_mem_hexDigits, hne]
  simp [quotedChar, hquoted]

/-- a text in double quotes -/
def quotedText (cs : List Char) : List Char := '"' :: (cs.flatMap (quoteChar '"') ++ ['"'])

end Brainfuck.Text
