/-
The nested form of a program: a block is a sequence of single commands and loops around blocks. `Block.ofCommands?`
reads a program from its end, so that at each closing bracket the block behind the loop is already there. Main
statement: a program that reads as a block is that block written out.
-/
import Brainfuck.Command

namespace Brainfuck

inductive Block where
  | done
  | leaf (c : Command) (rest : Block)
  | loop (body rest : Block)
  deriving DecidableEq, Repr

namespace Block

/-- a block written out -/
def commands : Block → List Command
  | done => []
  | leaf c rest => c :: rest.commands
  | loop body rest => .loopStart :: (body.commands ++ .loopEnd :: rest.commands)

/-- number of commands -/
def size : Block → Nat
  | done => 0
  | leaf _ rest => rest.size + 1
  | loop body rest => body.size + rest.size + 2

/-- the block at the front, and those behind the loops that were closed but not opened, the innermost first -/
def read : List Command → Option (Block × List Block)
  | [] => some (done, [])
  | c :: cs =>
    match read cs with
    | none => none
    | some (b, behind) =>
      match c, behind with
      | .loopEnd, behind => some (done, b :: behind)
      | .loopStart, [] => none
      | .loopStart, rest :: behind => some (loop b rest, behind)
      | c, behind => some (leaf c b, behind)

/-- the nested form of a program, if its brackets nest -/
def ofCommands? (cs : List Command) : Option Block :=
  match read cs with
  | some (b, []) => some b
  | _ => none

@[simp] theorem length_commands (b : Block) : b.commands.length = b.size := by
  induction b with
  | done => rfl
  | leaf c rest ih => simp [commands, size, ih]
  | loop body rest ihb ihr => simp [commands, size, ihb, ihr]; omega

/-- blocks put behind a front block, each after a closing bracket -/
def unread (b : Block) : List Block → List Command
  | [] => b.commands
  | rest :: behind => b.commands ++ .loopEnd :: unread rest behind

theorem unread_of_read {cs : List Command} {b : Block} {behind : List Block} (h : read cs = some (b, behind)) :
    unread b behind = cs := by
  induction cs generalizing b behind with
  | nil => simp [read] at h; obtain ⟨rfl, rfl⟩ := h; rfl
  | cons c cs ih =>
    unfold read at h
    split at h
    · simp at h
    · rename_i b' behind' hr
      have hu := ih hr
      split at h
      · cases h
        simp [unread, commands, hu]
      · cases h
      · rename_i rest behind
        cases h
        rw [← hu]
        cases behind <;> simp [unread, commands]
      · cases h
        rw [← hu]
        cases behind <;> simp [unread, commands]

theorem commands_of_ofCommands? {cs : List Command} {b : Block} (h : ofCommands? cs = some b) : b.commands = cs := by
  unfold ofCommands? at h
  split at h
  · rename_i hr
    cases h
    exact unread_of_read hr
  · simp at h

end Block

end Brainfuck
