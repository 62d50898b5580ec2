/-
A machine that takes nothing for granted. It computes with words: a sum must be smaller than `word`, a difference must
not fall below zero, and what is looked up must be there. Where that fails it faults, and a fault is `none`. The
number of steps alone has no bound, so it is counted as it is.

Main statement: `ofProgram?_eq`, brackets are matched without a fault. That runs have none either is shown with the
bounds that every configuration keeps to.
-/
import Mathlib.Tactic
import Brainfuck.Proofs.Brackets.Matching
import Brainfuck.Proofs.Execution.Turn

namespace Brainfuck.Checked

/-! ## Words -/

/-- a sum that fits into a word -/
def add? (word m n : Nat) : Option Nat := if m + n < word then some (m + n) else none

/-- a difference that does not fall below zero -/
def sub? (m n : Nat) : Option Nat := if n ≤ m then some (m - n) else none

theorem add?_eq {word m n : Nat} (h : m + n < word) : add? word m n = some (m + n) := if_pos h

theorem sub?_eq {m n : Nat} (h : n ≤ m) : sub? m n = some (m - n) := if_pos h

/-! ## The store -/

/-- the cell under the pointer -/
def cell? (s : Store) : Option UInt8 := s.cells[s.pointer]?

/-- write the cell under the pointer -/
def setCell? (s : Store) (b : UInt8) : Option Store :=
  if h : s.pointer < s.cells.size then some { s with cells := s.cells.set s.pointer b h } else none

theorem cell?_eq {s : Store} (h : s.pointer < s.cells.size) : cell? s = some s.cell := by
  simp [cell?, Store.cell, h]

theorem setCell?_eq {s : Store} (h : s.pointer < s.cells.size) (b : UInt8) : setCell? s b = some (s.setCell b) := by
  simp [setCell?, Store.setCell, Array.setIfInBounds, h]

/-! ## One instruction -/

section Instructions

variable (word : Nat)

/-- the action of a command, with the cell under the pointer already read -/
def decide? (j : Job) (s : Store) (ip : Nat) (cell : UInt8) : Command → Option (Except RunError Action)
  | .moveRight => do
    let right ← add? word s.pointer 1
    return if right < s.cells.size then .ok (.move right) else .error (.offTape .right ip s.pointer)
  | .moveLeft =>
    if s.pointer = 0 then some (.error (.offTape .left ip s.pointer))
    else do
      let left ← sub? s.pointer 1
      return .ok (.move left)
  | .increment => some (.ok .increment)
  | .decrement => some (.ok .decrement)
  | .write => some (.ok (.write cell))
  | .read =>
    match j.input[s.consumed]? with
    | some c => some (.ok (.read c))
    | none => some (.error (.noInput ip))
  | .loopStart =>
    if cell = 0 then do
      let close ← j.matching.partners[ip]?
      return .ok (.skipLoop close)
    else some (.ok .enterLoop)
  | .loopEnd =>
    if cell = 0 then some (.ok .exitLoop)
    else do
      let start ← j.matching.partners[ip]?
      return .ok (.repeatLoop start)
  | .other c => some (.error (.notACommand c ip))

/-- the effect of an action on the store, with the cell under the pointer already read -/
def effect? (s : Store) (cell : UInt8) : Action → Option Store
  | .move p => some { s with pointer := p }
  | .increment => setCell? s (cell + 1)
  | .decrement => setCell? s (cell - 1)
  | .read c => do
    let written ← setCell? s (lowByte c)
    let consumed ← add? word s.consumed 1
    return { written with consumed := consumed }
  | .write _ | .skipLoop _ | .enterLoop | .repeatLoop _ | .exitLoop => some s

/-- where execution goes on, with the position behind the instruction already computed -/
def next? (behind : Nat) : Action → Option Nat
  | .skipLoop close => add? word close 1
  | .repeatLoop start => some start
  | _ => some behind

variable {σ : Type} [Sink σ]

/-- carry out an action and write what the view shows of it -/
def perform? (view : View) (command : Command) (c : Config) (cell : UInt8) (behind : Nat) (sink : σ) (a : Action) :
    Option (Progress σ) := do
  let store ← effect? word c.store cell a
  let ip ← next? word behind a
  let after : Config := ⟨store, ip, c.steps + 1, Config.noteJump c.journal c.ip a⟩
  match view with
  | .output =>
    match a.emitted with
    | none => return .running after sink
    | some b =>
      let w := Sink.write sink [b]
      return after.afterWrite c.ip w.sink w.failure
  | .table =>
    let (sink, failure) := Sink.writeLine sink (Row.text ⟨c.steps, c.ip, c.store.pointer, cell, command, a⟩)
    return after.afterWrite c.ip sink failure

/-- one instruction, or the end of the run -/
def advance? (j : Job) (c : Config) (sink : σ) : Option (Progress σ) :=
  if c.ip < j.program.size then
    match j.limitReached? c.steps with
    | some limit => some (.ended (c.note (.limitReached limit c.ip)) sink (.error (.stepLimitReached limit)))
    | none => do
      let command ← j.program[c.ip]?
      let cell ← cell? c.store
      let behind ← add? word c.ip 1
      match ← decide? word j c.store c.ip cell command with
      | .error e => return .ended c sink (.error e)
      | .ok a => perform? word j.view command c cell behind sink a
  else some (.ended (c.note (.runFinished c.steps c.store.pointer)) sink (.ok ⟨c.steps, c.store.pointer⟩))

/-- advance at most `fuel` times -/
def runFor? (j : Job) : Nat → Config → σ → Option (Progress σ)
  | 0, c, sink => some (.running c sink)
  | fuel + 1, c, sink => do
    match ← advance? word j c sink with
    | .running c sink => runFor? j fuel c sink
    | .ended c sink outcome => return .ended c sink outcome

end Instructions

/-! ## Brackets -/

/-- record that `i` and `j` belong together -/
def pair? (partners : Array Nat) (i j : Nat) : Option (Array Nat) :=
  if i < partners.size ∧ j < partners.size then some (Matching.pair partners i j) else none

/-- go on from position `i` with the innermost open loop on top of `openLoops` -/
def scan? : List Command → Nat → List Nat → Array Nat → Option (Except RunError Matching)
  | [], _, [], partners => some (.ok ⟨partners⟩)
  | [], _, o :: _, _ => some (.error (.unmatchedBracket .opening o))
  | .loopStart :: cs, i, openLoops, partners => scan? cs (i + 1) (i :: openLoops) partners
  | .loopEnd :: _, i, [], _ => some (.error (.unmatchedBracket .closing i))
  | .loopEnd :: cs, i, o :: openLoops, partners => do
    let paired ← pair? partners o i
    scan? cs (i + 1) openLoops paired
  | _ :: cs, i, openLoops, partners => scan? cs (i + 1) openLoops partners

/-- the matching of a whole program -/
def ofProgram? (p : Program) : Option (Except RunError Matching) := scan? p.toList 0 [] (Array.range p.size)

/-- an open loop lies before the position of the scan, and that lies in the table -/
theorem scan?_eq (cs : List Command) {i : Nat} {openLoops : List Nat} {partners : Array Nat}
    (hsize : i + cs.length = partners.size) (hopen : ∀ o ∈ openLoops, o < i) :
    scan? cs i openLoops partners = some (Matching.scan cs i openLoops partners) := by
  induction cs generalizing i openLoops partners with
  | nil => cases openLoops <;> rfl
  | cons c cs ih =>
    rw [List.length_cons] at hsize
    have hopen' : ∀ o ∈ openLoops, o < i + 1 := fun o ho => Nat.lt_succ_of_lt (hopen o ho)
    cases c with
    | loopStart => exact ih (by omega) (List.forall_mem_cons.2 ⟨i.lt_succ_self, hopen'⟩)
    | loopEnd =>
      cases openLoops with
      | nil => rfl
      | cons o openLoops =>
        have ho : o < i := hopen o List.mem_cons_self
        have hpair : pair? partners o i = some (Matching.pair partners o i) := if_pos ⟨by omega, by omega⟩
        simp only [scan?, hpair]
        exact ih (by rw [Matching.size_pair]; omega) (List.forall_mem_cons.1 hopen').2
    | _ => exact ih (by omega) hopen'

/-- **Brackets are matched without a fault**, whether they match or not. -/
theorem ofProgram?_eq (p : Program) : ofProgram? p = some (Matching.ofProgram p) :=
  scan?_eq p.toList (by simp) (by simp)

/-! ## Whole runs -/

section Runs

variable {σ : Type} [Sink σ]

/-- match the brackets and write what comes before the first instruction -/
def launch? (i : Interpreter) (view : View) (sink : σ) (journal : Journal) : Option (Interpreter.Launch σ) := do
  match ← ofProgram? i.program with
  | .error err => return ⟨i.job ⟨#[]⟩ view, .ended { store := i.freshStore, journal } sink (.error err)⟩
  | .ok matching =>
    let (sink, failure) := Interpreter.writeLines sink (Interpreter.preamble view)
    return ⟨i.job matching view, (i.start journal).afterWrite 0 sink failure⟩

/-- run the program, unless the run takes more than `fuel` advances -/
def run? (word fuel : Nat) (view : View) (i : Interpreter) (sink : σ) (journal : Journal) :
    Option (Option (Finished σ)) := do
  let launch ← launch? i view sink journal
  match launch.progress with
  | .running c sink => return i.finished? (← runFor? word launch.job fuel c sink)
  | .ended c sink outcome => return i.finished? (.ended c sink outcome)

theorem launch?_eq (i : Interpreter) (view : View) (sink : σ) (journal : Journal) :
    launch? i view sink journal = some (i.launch view sink journal) := by
  simp only [launch?, ofProgram?_eq, Interpreter.launch]
  cases Matching.ofProgram i.program <;> rfl

end Runs

end Brainfuck.Checked
