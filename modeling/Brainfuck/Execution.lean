/-
A run, one instruction at a time. `advance` performs one instruction or ends the run; `runFor` advances at most a
given number of times, since a program need not end. An instruction first takes effect on the store and is then
written to the sink; nothing happens after the first error.
-/
import Brainfuck.Journal
import Brainfuck.Sink
import Brainfuck.StepTable

namespace Brainfuck

/-- a run in progress, apart from the sink it writes to -/
structure Config where
  store : Store
  /-- position of the next instruction -/
  ip : Nat := 0
  /-- instructions executed -/
  steps : Nat := 0
  journal : Journal := .silent
  deriving DecidableEq, Repr

/-- how a run ends -/
abbrev Outcome := Except RunError Summary

inductive Progress (σ : Type) where
  | running (c : Config) (sink : σ)
  | ended (c : Config) (sink : σ) (outcome : Outcome)

namespace Config

def note (c : Config) (e : Event) : Config := { c with journal := c.journal.note e }

/-- a jump is noted -/
def noteJump (j : Journal) (ip : Nat) : Action → Journal
  | .skipLoop close => j.note (.loopSkipped ip (close + 1))
  | .repeatLoop start => j.note (.loopRepeated ip start)
  | _ => j

/-- the configuration after an action -/
def apply (c : Config) (a : Action) : Config :=
  { store := c.store.apply a, ip := a.next c.ip, steps := c.steps + 1, journal := noteJump c.journal c.ip a }

/-- the row of the step table for an action about to be carried out -/
def row (c : Config) (command : Command) (a : Action) : Row :=
  ⟨c.steps, c.ip, c.store.pointer, c.store.cell, command, a⟩

variable {σ : Type}

/-- go on after writing, or end with the failure of the write at instruction `ip` -/
def afterWrite (c : Config) (ip : Nat) (sink : σ) : Option DeviceError → Progress σ
  | none => .running c sink
  | some e => .ended c sink (.error (.notWritten ip e))

variable [Sink σ]

/-- carry out an action and write what the view shows of it -/
def perform (view : View) (command : Command) (c : Config) (sink : σ) (a : Action) : Progress σ :=
  match view with
  | .output =>
    match a.emitted with
    | none => .running (c.apply a) sink
    | some b =>
      let w := Sink.write sink [b]
      let ip := c.ip
      (c.apply a).afterWrite ip w.sink w.failure
  | .table =>
    let (sink, failure) := Sink.writeLine sink (c.row command a).text
    let ip := c.ip
    (c.apply a).afterWrite ip sink failure

/-- one instruction, or the end of the run -/
def advance (j : Job) (c : Config) (sink : σ) : Progress σ :=
  match j.program[c.ip]? with
  | none => .ended (c.note (.runFinished c.steps c.store.pointer)) sink (.ok ⟨c.steps, c.store.pointer⟩)
  | some command =>
    match j.limitReached? c.steps with
    | some limit => .ended (c.note (.limitReached limit c.ip)) sink (.error (.stepLimitReached limit))
    | none =>
      match j.decide c.store c.ip command with
      | .error e => .ended c sink (.error e)
      | .ok a => c.perform j.view command sink a

/-- advance at most `fuel` times -/
def runFor (j : Job) : Nat → Config → σ → Progress σ
  | 0, c, sink => .running c sink
  | fuel + 1, c, sink =>
    match c.advance j sink with
    | .running c sink => runFor j fuel c sink
    | .ended c sink outcome => .ended c sink outcome

@[simp] theorem runFor_zero (j : Job) (c : Config) (sink : σ) : c.runFor j 0 sink = .running c sink := rfl

theorem runFor_succ (j : Job) (fuel : Nat) (c : Config) (sink : σ) :
    c.runFor j (fuel + 1) sink = match c.advance j sink with
      | .running c sink => c.runFor j fuel sink
      | .ended c sink outcome => .ended c sink outcome := rfl

theorem runFor_add (j : Job) (m n : Nat) (c : Config) (sink : σ) :
    c.runFor j (m + n) sink = match c.runFor j m sink with
      | .running c sink => c.runFor j n sink
      | .ended c sink outcome => .ended c sink outcome := by
  induction m generalizing c sink with
  | zero => simp
  | succ m ih =>
    rw [Nat.succ_add, runFor_succ, runFor_succ]
    cases c.advance j sink with
    | running c sink => exact ih c sink
    | ended c sink outcome => rfl

theorem runFor_mono {j : Job} {m n : Nat} {c c' : Config} {sink sink' : σ} {o : Outcome}
    (h : c.runFor j m sink = .ended c' sink' o) (hmn : m ≤ n) : c.runFor j n sink = .ended c' sink' o := by
  obtain ⟨k, rfl⟩ := Nat.exists_eq_add_of_le hmn
  rw [runFor_add, h]

end Config

end Brainfuck
