/-
Resource limits of one run: how many instructions it may execute and how many cells its tape has. Either may be left
open: then the run may take any number of steps, or has the standard tape.
-/

namespace Brainfuck

/-- a number of cells; a tape has at least one -/
abbrev CellCount := { n : Nat // 0 < n }

/-- zero cells is no tape -/
def CellCount.ofNat? (n : Nat) : Option CellCount :=
  if h : 0 < n then some ⟨n, h⟩ else none

/-- tape length when none is set -/
def standardTape : Nat := 30000

structure Limits where
  /-- how many instructions may be executed -/
  steps : Option Nat := none
  /-- how many cells the tape has -/
  cells : Option CellCount := none
  deriving DecidableEq, Repr

namespace Limits

/-- nothing set -/
def unset : Limits := {}

instance : Inhabited Limits := ⟨unset⟩

def withSteps (l : Limits) (n : Nat) : Limits := { l with steps := some n }

def withCells (l : Limits) (n : CellCount) : Limits := { l with cells := some n }

/-- the resolved tape length -/
def tapeLength (l : Limits) : Nat := (l.cells.map Subtype.val).getD standardTape

/-- fill the open fields from `other` -/
def or (l other : Limits) : Limits :=
  ⟨l.steps.or other.steps, l.cells.or other.cells⟩

theorem tapeLength_pos (l : Limits) : 0 < l.tapeLength := by
  unfold tapeLength
  cases l.cells with
  | none => decide
  | some n => exact n.2

@[simp] theorem unset_or (l : Limits) : unset.or l = l := by
  cases l; rfl

@[simp] theorem or_unset (l : Limits) : l.or unset = l := by
  simp [or, unset]

theorem or_assoc (a b c : Limits) : (a.or b).or c = a.or (b.or c) := by
  simp [or, Option.or_assoc]

theorem or_or_self (a b : Limits) : a.or (a.or b) = a.or b := by
  have hself : a.or a = a := by simp [or]
  rw [← or_assoc, hself]

end Limits

@[simp] theorem CellCount.ofNat?_zero : CellCount.ofNat? 0 = none := rfl

@[simp] theorem CellCount.ofNat?_val (n : CellCount) : CellCount.ofNat? n.1 = some n := by
  simp [ofNat?, n.2]

end Brainfuck
