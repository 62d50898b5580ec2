/-
What one advance does, told without the sink. `Config.turn` says whether the run has finished, has reached its limit,
refuses the next instruction or performs it; it looks at the program, the store and the counters only. `advance_eq`
reads an advance off its turn, and `Stops` lists the ways in which an advance ends the run. On a sink that never fails
the performed instruction always goes through, and what the sink gains is `Config.shown`: the emitted byte, or the row
with its line feed.
-/
import Mathlib.Tactic
import Brainfuck.Interpreter
import Brainfuck.Sink.Quota

namespace Brainfuck

/-- all that an instruction can do: the command, its action, and what the action asks of the store -/
inductive Job.Decides (j : Job) (s : Store) (ip : Nat) : Command → Action → Prop
  | moveRight (h : s.pointer + 1 < s.cells.size) : Decides j s ip .moveRight (.move (s.pointer + 1))
  | moveLeft (h : 0 < s.pointer) : Decides j s ip .moveLeft (.move (s.pointer - 1))
  | increment : Decides j s ip .increment .increment
  | decrement : Decides j s ip .decrement .decrement
  | write : Decides j s ip .write (.write s.cell)
  | read {c : Char} (h : j.input[s.consumed]? = some c) : Decides j s ip .read (.read c)
  | skipLoop (h : s.cell = 0) : Decides j s ip .loopStart (.skipLoop (j.matching.partner ip))
  | enterLoop (h : s.cell ≠ 0) : Decides j s ip .loopStart .enterLoop
  | exitLoop (h : s.cell = 0) : Decides j s ip .loopEnd .exitLoop
  | repeatLoop (h : s.cell ≠ 0) : Decides j s ip .loopEnd (.repeatLoop (j.matching.partner ip))

theorem Job.decides_of_decide {j : Job} {s : Store} {ip : Nat} {command : Command} {a : Action}
    (h : j.decide s ip command = .ok a) : j.Decides s ip command a := by
  cases command with
  | moveRight =>
    simp only [decide] at h
    split at h <;> cases h
    exact .moveRight ‹_›
  | moveLeft =>
    simp only [decide] at h
    split at h <;> cases h
    exact .moveLeft ‹_›
  | increment => cases h; exact .increment
  | decrement => cases h; exact .decrement
  | write => cases h; exact .write
  | read =>
    simp only [decide] at h
    split at h <;> cases h
    exact .read ‹_›
  | loopStart =>
    simp only [decide] at h
    split at h <;> cases h
    · exact .skipLoop ‹_›
    · exact .enterLoop ‹_›
  | loopEnd =>
    simp only [decide] at h
    split at h <;> cases h
    · exact .exitLoop ‹_›
    · exact .repeatLoop ‹_›
  | other c => cases h

/-- all that a command can be refused for -/
inductive Job.Refuses (j : Job) (s : Store) (ip : Nat) : Command → RunError → Prop
  | moveRight (h : s.cells.size ≤ s.pointer + 1) : Refuses j s ip .moveRight (.offTape .right ip s.pointer)
  | moveLeft (h : s.pointer = 0) : Refuses j s ip .moveLeft (.offTape .left ip s.pointer)
  | read (h : j.input[s.consumed]? = none) : Refuses j s ip .read (.noInput ip)
  | other (c : Char) : Refuses j s ip (.other c) (.notACommand c ip)

theorem Job.refuses_of_decide {j : Job} {s : Store} {ip : Nat} {command : Command} {e : RunError}
    (h : j.decide s ip command = .error e) : j.Refuses s ip command e := by
  cases command with
  | moveRight =>
    simp only [decide] at h
    split at h <;> cases h
    exact .moveRight (Nat.le_of_not_lt ‹_›)
  | moveLeft =>
    simp only [decide] at h
    split at h <;> cases h
    exact .moveLeft (Nat.eq_zero_of_not_pos ‹_›)
  | read =>
    simp only [decide] at h
    split at h <;> cases h
    exact .read ‹_›
  | other c => cases h; exact .other c
  | _ => cases h

/-- what comes next in a run -/
inductive Turn where
  | finished
  | limitReached (limit : Nat)
  | refused (e : RunError)
  | performed (command : Command) (a : Action)
deriving DecidableEq, Repr

namespace Config

def turn (j : Job) (c : Config) : Turn :=
  match j.program[c.ip]? with
  | none => .finished
  | some command =>
    match j.limitReached? c.steps with
    | some limit => .limitReached limit
    | none =>
      match j.decide c.store c.ip command with
      | .error e => .refused e
      | .ok a => .performed command a

theorem turn_of_end {j : Job} {c : Config} (h : j.program[c.ip]? = none) : c.turn j = .finished := by
  simp only [turn, h]

theorem turn_of_limit {j : Job} {c : Config} {command : Command} {limit : Nat} (h : j.program[c.ip]? = some command)
    (hl : j.limitReached? c.steps = some limit) : c.turn j = .limitReached limit := by
  simp only [turn, h, hl]

theorem turn_of_command {j : Job} {c : Config} {command : Command} (h : j.program[c.ip]? = some command)
    (hl : j.limitReached? c.steps = none) :
    c.turn j = match j.decide c.store c.ip command with
      | .error e => .refused e
      | .ok a => .performed command a := by
  simp only [turn, h, hl]

/-- where the same command stands, the limit is reached alike and the command is decided alike, the turn is the same -/
theorem turn_congr {j k : Job} {c d : Config} (hprogram : j.program[c.ip]? = k.program[d.ip]?)
    (hlimit : j.limitReached? c.steps = k.limitReached? d.steps)
    (hdecide : ∀ command, j.program[c.ip]? = some command → j.limitReached? c.steps = none →
      j.decide c.store c.ip command = k.decide d.store d.ip command) : c.turn j = d.turn k := by
  cases hp : j.program[c.ip]? with
  | none => rw [turn_of_end hp, turn_of_end (hprogram.symm.trans hp)]
  | some command =>
    cases hl : j.limitReached? c.steps with
    | some l => rw [turn_of_limit hp hl, turn_of_limit (hprogram.symm.trans hp) (hlimit.symm.trans hl)]
    | none =>
      rw [turn_of_command hp hl, turn_of_command (hprogram.symm.trans hp) (hlimit.symm.trans hl), hdecide command hp hl]

/-- what a performed instruction says of the machine before it -/
theorem turn_eq_performed {j : Job} {c : Config} {command : Command} {a : Action}
    (h : c.turn j = .performed command a) :
    j.program[c.ip]? = some command ∧ j.limitReached? c.steps = none ∧ j.decide c.store c.ip command = .ok a := by
  unfold turn at h
  split at h
  · cases h
  · rename_i hp
    split at h
    · cases h
    · rename_i hl
      split at h
      · cases h
      · rename_i hd
        cases h
        exact ⟨hp, hl, hd⟩

/-- and what a refused one says of it -/
theorem turn_eq_refused {j : Job} {c : Config} {e : RunError} (h : c.turn j = .refused e) :
    ∃ command, j.program[c.ip]? = some command ∧ j.limitReached? c.steps = none ∧
      j.decide c.store c.ip command = .error e := by
  unfold turn at h
  split at h
  · cases h
  · rename_i command hp
    split at h
    · cases h
    · rename_i hl
      split at h
      · rename_i hd
        cases h
        exact ⟨command, hp, hl, hd⟩
      · cases h

theorem turn_eq_limitReached {j : Job} {c : Config} {limit : Nat} (h : c.turn j = .limitReached limit) :
    j.limitReached? c.steps = some limit := by
  unfold turn at h
  split at h
  · cases h
  · split at h
    · cases h
      assumption
    · split at h <;> cases h

theorem turn_eq_finished {j : Job} {c : Config} (h : c.turn j = .finished) : j.program[c.ip]? = none := by
  unfold turn at h
  split at h
  · assumption
  · split at h
    · cases h
    · split at h <;> cases h

/-! ## Advancing on any sink -/

variable {σ : Type}

theorem afterWrite_running {c c' : Config} {ip : Nat} {s s' : σ} {e : Option DeviceError}
    (h : c.afterWrite ip s e = .running c' s') : c' = c ∧ s' = s ∧ e = none := by
  cases e with
  | none => cases h; exact ⟨rfl, rfl, rfl⟩
  | some e => cases h

theorem afterWrite_ended {c c' : Config} {ip : Nat} {s s' : σ} {e : Option DeviceError} {o : Outcome}
    (h : c.afterWrite ip s e = .ended c' s' o) : c' = c ∧ ∃ e', o = .error (.notWritten ip e') := by
  cases e with
  | none => cases h
  | some e => cases h; exact ⟨rfl, e, rfl⟩

variable [Sink σ]

theorem advance_eq (j : Job) (c : Config) (sink : σ) :
    c.advance j sink = match c.turn j with
      | .finished => .ended (c.note (.runFinished c.steps c.store.pointer)) sink (.ok ⟨c.steps, c.store.pointer⟩)
      | .limitReached limit => .ended (c.note (.limitReached limit c.ip)) sink (.error (.stepLimitReached limit))
      | .refused e => .ended c sink (.error e)
      | .performed command a => c.perform j.view command sink a := by
  unfold advance turn
  cases j.program[c.ip]? with
  | none => rfl
  | some command =>
    cases j.limitReached? c.steps with
    | some limit => rfl
    | none => cases hd : j.decide c.store c.ip command <;> simp only [hd]

theorem advance_congr {j k : Job} {c : Config} (hturn : c.turn j = c.turn k) (hview : j.view = k.view) (s : σ) :
    c.advance j s = c.advance k s := by
  rw [advance_eq, advance_eq, hturn, hview]

theorem advance_of_finished {j : Job} {c : Config} (h : c.turn j = .finished) (sink : σ) :
    c.advance j sink =
      .ended (c.note (.runFinished c.steps c.store.pointer)) sink (.ok ⟨c.steps, c.store.pointer⟩) := by
  rw [advance_eq, h]

theorem advance_of_limit {j : Job} {c : Config} {limit : Nat} (h : c.turn j = .limitReached limit) (sink : σ) :
    c.advance j sink = .ended (c.note (.limitReached limit c.ip)) sink (.error (.stepLimitReached limit)) := by
  rw [advance_eq, h]

theorem advance_of_refused {j : Job} {c : Config} {e : RunError} (h : c.turn j = .refused e) (sink : σ) :
    c.advance j sink = .ended c sink (.error e) := by
  rw [advance_eq, h]

/-- an advance performs an instruction, or it ends the run alike on every sink and leaves the store alone -/
theorem performs_or_ends (j : Job) (c : Config) : (∃ command a, c.turn j = .performed command a) ∨
    ∃ d o, d.store = c.store ∧ ∀ {ρ : Type} [Sink ρ] (r : ρ), c.advance j r = .ended d r o := by
  cases ht : c.turn j with
  | finished => exact Or.inr ⟨c.note _, _, rfl, fun r => advance_of_finished ht r⟩
  | limitReached limit => exact Or.inr ⟨c.note _, _, rfl, fun r => advance_of_limit ht r⟩
  | refused e => exact Or.inr ⟨_, _, rfl, fun r => advance_of_refused ht r⟩
  | performed command a => exact Or.inl ⟨command, a, rfl⟩

/-- a run that goes on has performed an instruction -/
theorem advance_running {j : Job} {c c' : Config} {s s' : σ} (h : c.advance j s = .running c' s') :
    ∃ command a, c.turn j = .performed command a ∧ c' = c.apply a := by
  rw [advance_eq] at h
  split at h
  · cases h
  · cases h
  · cases h
  · rename_i command a ht
    refine ⟨command, a, ht, ?_⟩
    unfold perform at h
    split at h
    · split at h
      · cases h; rfl
      · exact (afterWrite_running h).1
    · exact (afterWrite_running h).1

/-- an instruction that is performed ends a run only where it writes -/
theorem perform_ended {view : View} {command : Command} {c c' : Config} {s s' : σ} {a : Action} {o : Outcome}
    (h : c.perform view command s a = .ended c' s' o) :
    c' = c.apply a ∧ ∃ e, o = .error (.notWritten c.ip e) := by
  unfold perform at h
  split at h
  · split at h
    · cases h
    · exact afterWrite_ended h
  · exact afterWrite_ended h

theorem perform_silent {a : Action} (h : a.emitted = none) (c : Config) (command : Command) (s : σ) :
    c.perform .output command s a = .running (c.apply a) s := by
  simp only [perform, h]

/-- all ways in which an advance ends a run: the configuration, the sink and the outcome that it leaves -/
inductive Stops (j : Job) (c : Config) (s : σ) : Config → σ → Outcome → Prop
  | finished (h : c.turn j = .finished) :
    Stops j c s (c.note (.runFinished c.steps c.store.pointer)) s (.ok ⟨c.steps, c.store.pointer⟩)
  | limitReached {limit : Nat} (h : c.turn j = .limitReached limit) :
    Stops j c s (c.note (.limitReached limit c.ip)) s (.error (.stepLimitReached limit))
  | refused {e : RunError} (h : c.turn j = .refused e) : Stops j c s c s (.error e)
  | notWritten {command : Command} {a : Action} (h : c.turn j = .performed command a) (s' : σ) (e : DeviceError) :
    Stops j c s (c.apply a) s' (.error (.notWritten c.ip e))

theorem stops_of_ended {j : Job} {c c' : Config} {s s' : σ} {o : Outcome} (h : c.advance j s = .ended c' s' o) :
    c.Stops j s c' s' o := by
  rw [advance_eq] at h
  cases ht : c.turn j with
  | finished => rw [ht] at h; cases h; exact .finished ht
  | limitReached limit => rw [ht] at h; cases h; exact .limitReached ht
  | refused e => rw [ht] at h; cases h; exact .refused ht
  | performed command a =>
    rw [ht] at h
    obtain ⟨rfl, e, rfl⟩ := perform_ended h
    exact .notWritten ht s' e

theorem at_end_of_ok {j : Job} {c c' : Config} {s s' : σ} {summary : Summary}
    (h : c.advance j s = .ended c' s' (.ok summary)) : j.program[c.ip]? = none := by
  cases stops_of_ended h with
  | finished ht => exact turn_eq_finished ht

theorem steps_of_running {j : Job} {n : Nat} {c c' : Config} {s s' : σ} (h : c.runFor j n s = .running c' s') :
    c'.steps = c.steps + n := by
  induction n generalizing c s with
  | zero => cases h; rfl
  | succ n ih =>
    rw [runFor_succ] at h
    split at h
    · rename_i d t hd
      obtain ⟨command, a, -, rfl⟩ := advance_running hd
      have h1 := ih h
      simp only [apply] at h1
      omega
    · cases h

/-! ## Runs put together -/

theorem runFor_of_advance {j : Job} {c c' : Config} {s s' : σ} (h : c.advance j s = .running c' s') (n : Nat) :
    c.runFor j (n + 1) s = c'.runFor j n s' := by
  rw [runFor_succ, h]

theorem runFor_of_ended {j : Job} {c c' : Config} {s s' : σ} {o : Outcome} (h : c.advance j s = .ended c' s' o)
    (n : Nat) : c.runFor j (n + 1) s = .ended c' s' o := by
  rw [runFor_succ, h]

theorem runFor_of_running {j : Job} {m : Nat} {c c' : Config} {s s' : σ} (h : c.runFor j m s = .running c' s')
    (n : Nat) : c.runFor j (m + n) s = c'.runFor j n s' := by
  rw [runFor_add, h]

theorem runFor_succ_of_running {j : Job} {n : Nat} {c c' : Config} {s s' : σ} (h : c.runFor j n s = .running c' s') :
    c.runFor j (n + 1) s = c'.advance j s' := by
  rw [runFor_of_running h, runFor_succ]
  cases c'.advance j s' <;> rfl

/-- a run that goes on was refused nothing on its way -/
theorem not_refused_of_running {j : Job} {m n : Nat} {c c' d : Config} {s s' t : σ}
    (h : c.runFor j n s = .running c' s') (hmn : m < n) (hm : c.runFor j m s = .running d t) (e : RunError) :
    d.turn j ≠ .refused e := by
  intro ht
  have hend : c.runFor j (m + 1) s = .ended d t (.error e) :=
    (runFor_succ_of_running hm).trans (advance_of_refused ht t)
  rw [runFor_mono hend hmn] at h
  cases h

theorem exists_running_of_le {j : Job} {m n : Nat} {c c' : Config} {s s' : σ} (h : c.runFor j n s = .running c' s')
    (hmn : m ≤ n) : ∃ d t, c.runFor j m s = .running d t := by
  cases hm : c.runFor j m s with
  | running d t => exact ⟨d, t, rfl⟩
  | ended d t o =>
    rw [runFor_mono hm hmn] at h
    cases h

/-! ## Advancing on a sink that never fails -/

/-- the bytes that a view shows of an action -/
def shown (view : View) (c : Config) (command : Command) (a : Action) : List UInt8 :=
  match view with
  | .output => a.emitted.toList
  | .table => Text.encode ((c.row command a).text ++ ['\n'])

open Sink

variable [Lawful σ]

/-- a performed instruction goes through, and the sink gains what the view shows of it -/
theorem advance_performed {j : Job} {c : Config} {sink : σ} {command : Command} {a : Action} (hs : NeverFails sink)
    (ht : c.turn j = .performed command a) :
    ∃ sink', c.advance j sink = .running (c.apply a) sink' ∧ NeverFails sink' ∧
      taken sink' = taken sink ++ c.shown j.view command a := by
  rw [advance_eq, ht]
  simp only [perform, shown]
  cases j.view with
  | output =>
    cases a.emitted with
    | none => exact ⟨sink, rfl, hs, by simp⟩
    | some b =>
      refine ⟨(Sink.write sink [b]).sink, ?_, hs.write [b], ?_⟩
      · simp only [hs.failure_write, afterWrite]
      · rw [hs.taken_write]; rfl
  | table =>
    refine ⟨(Sink.writeLine sink (c.row command a).text).1, ?_, hs.writeLine _, hs.taken_writeLine _⟩
    simp only [hs.failure_writeLine, afterWrite]

end Config

/-! ## Whole runs -/

namespace Interpreter

open Sink

theorem load_eq_ok {program input : List Char} {limits : Limits} {i : Interpreter}
    (h : load program input limits = .ok i) :
    i = ⟨.ofText program, input.toArray, limits.steps, .blank limits.tapeLength⟩ := by
  simp only [load] at h
  split at h
  · cases h; rfl
  · cases h

theorem getElem?_program_of_load {program input : List Char} {limits : Limits} {i : Interpreter}
    (h : load program input limits = .ok i) (k : Nat) : i.program[k]? = program[k]?.map Command.ofChar := by
  rw [load_eq_ok h]
  simp only [Program.ofText, List.getElem?_toArray, List.getElem?_map]

theorem input_of_load {program input : List Char} {limits : Limits} {i : Interpreter}
    (h : load program input limits = .ok i) : i.input = input.toArray := by
  rw [load_eq_ok h]

/-- the same interpreter with another program -/
def withProgram (i : Interpreter) (program : List Char) : Interpreter := { i with program := .ofText program }

/-- the configuration at the first instruction -/
def start (i : Interpreter) (journal : Journal) : Config :=
  { store := i.freshStore, journal := journal.note (.runStarted i.program.size i.freshStore.cells.size i.stepLimit) }

variable {σ : Type} [Sink σ]

theorem launch_output {i : Interpreter} {m : Matching} (h : Matching.ofProgram i.program = .ok m) (sink : σ)
    (journal : Journal) : i.launch .output sink journal = ⟨i.job m .output, .running (i.start journal) sink⟩ := by
  simp only [launch, h]
  rfl

/-- the bytes that are written before the first instruction -/
def preambleBytes (view : View) : List UInt8 := Text.encode ((preamble view).flatMap (· ++ ['\n']))

theorem writeLines_of_neverFails [Lawful σ] {s : σ} (hs : NeverFails s) (ls : List (List Char)) :
    ∃ s', writeLines s ls = (s', none) ∧ NeverFails s' ∧
      taken s' = taken s ++ Text.encode (ls.flatMap (· ++ ['\n'])) := by
  induction ls generalizing s with
  | nil => exact ⟨s, rfl, hs, by simp⟩
  | cons l ls ih =>
    obtain ⟨s', hw, hs', htaken⟩ := ih (hs.writeLine l)
    have hl : Sink.writeLine s l = ((Sink.writeLine s l).1, none) := Prod.ext rfl (hs.failure_writeLine l)
    refine ⟨s', ?_, hs', ?_⟩
    · rw [writeLines, hl]
      exact hw
    · rw [htaken, hs.taken_writeLine, List.append_assoc, ← Text.encode_append, List.flatMap_cons]

/-- on a sink that never fails a program whose brackets match comes to its first instruction, in either view -/
theorem launch_of_neverFails [Lawful σ] {i : Interpreter} {m : Matching} (h : Matching.ofProgram i.program = .ok m)
    {s : σ} (hs : NeverFails s) (view : View) (journal : Journal) :
    ∃ s', i.launch view s journal = ⟨i.job m view, .running (i.start journal) s'⟩ ∧ NeverFails s' ∧
      taken s' = taken s ++ preambleBytes view := by
  obtain ⟨s', hw, hs', htaken⟩ := writeLines_of_neverFails hs (preamble view)
  refine ⟨s', ?_, hs', htaken⟩
  simp only [launch, h, hw]
  rfl

/-- the configuration and the sink after `n` instructions of a run -/
def Reaches (i : Interpreter) (n : Nat) (view : View) (sink : σ) (journal : Journal) (c : Config) (s : σ) : Prop :=
  (i.launch view sink journal).runFor n = .running c s

/-- a run that ends: the configuration it ends in, beside what it leaves behind -/
structure EndsIn (i : Interpreter) (fuel : Nat) (view : View) (sink : σ) (journal : Journal) (c : Config)
    (f : Finished σ) : Prop where
  run : i.run fuel view sink journal = some f
  progress : (i.launch view sink journal).runFor fuel = .ended c f.sink f.outcome
  interpreter : f.interpreter = { i with store := c.store }

theorem endsIn_of_progress {i : Interpreter} {fuel : Nat} {view : View} {sink s : σ} {journal : Journal} {c : Config}
    {o : Outcome} (h : (i.launch view sink journal).runFor fuel = .ended c s o) :
    i.EndsIn fuel view sink journal c ⟨{ i with store := c.store }, s, c.journal, o⟩ :=
  ⟨by simp only [Interpreter.run, h, finished?], h, rfl⟩

theorem exists_endsIn {i : Interpreter} {fuel : Nat} {view : View} {sink : σ} {journal : Journal} {f : Finished σ}
    (h : i.run fuel view sink journal = some f) : ∃ c, i.EndsIn fuel view sink journal c f := by
  cases hp : (i.launch view sink journal).runFor fuel with
  | running c s =>
    simp only [Interpreter.run, hp, finished?] at h
    cases h
  | ended c s o =>
    have he := endsIn_of_progress hp
    have hf := he.run.symm.trans h
    cases hf
    exact ⟨c, he⟩

theorem EndsIn.mono {i : Interpreter} {m n : Nat} {view : View} {sink : σ} {journal : Journal} {c : Config}
    {f : Finished σ} (h : i.EndsIn m view sink journal c f) (hmn : m ≤ n) : i.EndsIn n view sink journal c f := by
  have hp : (i.launch view sink journal).runFor n = .ended c f.sink f.outcome := by
    have hm := h.progress
    unfold Launch.runFor at hm ⊢
    split at hm
    · exact Config.runFor_mono hm hmn
    · exact hm
  refine ⟨?_, hp, h.interpreter⟩
  rw [(endsIn_of_progress hp).run, ← (endsIn_of_progress h.progress).run, h.run]

theorem EndsIn.unique {i : Interpreter} {m n : Nat} {view : View} {sink : σ} {journal : Journal} {c d : Config}
    {f g : Finished σ} (hc : i.EndsIn m view sink journal c f) (hd : i.EndsIn n view sink journal d g) :
    c = d ∧ f = g := by
  have h1 := hc.mono (Nat.le_max_left m n)
  have h2 := hd.mono (Nat.le_max_right m n)
  have hp := h1.progress.symm.trans h2.progress
  have hr := h1.run.symm.trans h2.run
  obtain rfl := Option.some.inj hr
  injection hp with hcd
  exact ⟨hcd, rfl⟩

theorem run_unique {i : Interpreter} {m n : Nat} {view : View} {sink : σ} {journal : Journal} {f g : Finished σ}
    (hf : i.run m view sink journal = some f) (hg : i.run n view sink journal = some g) : f = g := by
  obtain ⟨c, hc⟩ := exists_endsIn hf
  obtain ⟨d, hd⟩ := exists_endsIn hg
  exact (hc.unique hd).2

end Interpreter

end Brainfuck
