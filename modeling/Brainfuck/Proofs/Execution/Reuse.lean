/-
Many runs on one interpreter. A run begins on a blank tape with its input unread, so that of all earlier runs only the
length of their tape could matter. No instruction changes it, whatever becomes of the instruction's writes, and
nothing else of an interpreter is ever changed.

Main statement: `run_independent_of_history`. After any number of runs, each on a sink of its own and ended in any
way, a run is the one that it would have been as the first.
-/
import Mathlib.Tactic
import Brainfuck.Proofs.Execution.Writes

namespace Brainfuck

/-! ## The length of the tape -/

namespace Store

@[simp] theorem size_blank (cells : Nat) : (blank cells).cells.size = cells := by simp [blank]

@[simp] theorem size_setCell (s : Store) (b : UInt8) : (s.setCell b).cells.size = s.cells.size := by simp [setCell]

@[simp] theorem size_apply (s : Store) (a : Action) : (s.apply a).cells.size = s.cells.size := by
  cases a <;> simp [apply]

end Store

namespace Config

variable {σ : Type} [Sink σ]

theorem size_advance (j : Job) (c : Config) (s : σ) : (c.advance j s).config.store.cells.size = c.store.cells.size := by
  rw [advance_eq]
  cases c.turn j with
  | performed command a =>
    simp only [config_perform]
    exact Store.size_apply c.store a
  | _ => rfl

theorem size_runFor (j : Job) (n : Nat) (c : Config) (s : σ) :
    (c.runFor j n s).config.store.cells.size = c.store.cells.size := by
  induction n generalizing c s with
  | zero => rfl
  | succ n ih =>
    have hfirst := size_advance j c s
    rw [runFor_succ]
    cases ha : c.advance j s with
    | running d t => rw [ha] at hfirst; exact (ih d t).trans hfirst
    | ended d t o => rw [ha] at hfirst; exact hfirst

end Config

/-! ## Interpreters that differ only in what was left on them -/

namespace Interpreter

/-- the same but for what is on the tape, where the pointer is and how much was read -/
structure SameSetup (i i' : Interpreter) : Prop where
  program : i'.program = i.program
  input : i'.input = i.input
  stepLimit : i'.stepLimit = i.stepLimit
  cells : i'.store.cells.size = i.store.cells.size

namespace SameSetup

variable {i i' i'' : Interpreter}

theorem refl (i : Interpreter) : i.SameSetup i := ⟨rfl, rfl, rfl, rfl⟩

theorem trans (h : i.SameSetup i') (h' : i'.SameSetup i'') : i.SameSetup i'' :=
  ⟨h'.program.trans h.program, h'.input.trans h.input, h'.stepLimit.trans h.stepLimit, h'.cells.trans h.cells⟩

theorem freshStore (h : i.SameSetup i') : i'.freshStore = i.freshStore := by
  rw [Interpreter.freshStore, h.cells, ← Interpreter.freshStore]

variable {σ : Type} [Sink σ]

/-- nothing that was left is looked at before the first instruction, or written -/
theorem launch (h : i.SameSetup i') (view : View) (s : σ) (journal : Journal) :
    i'.launch view s journal = i.launch view s journal := by
  simp only [Interpreter.launch, job, h.freshStore, h.program, h.input, h.stepLimit]

theorem run (h : i.SameSetup i') (fuel : Nat) (view : View) (s : σ) (journal : Journal) :
    i'.run fuel view s journal = i.run fuel view s journal := by
  rw [Interpreter.run, Interpreter.run, h.launch]
  cases (i.launch view s journal).runFor fuel with
  | running c t => rfl
  | ended c t o => simp only [finished?, h.program, h.input, h.stepLimit]

end SameSetup

/-! ## The interpreters that runs leave behind -/

variable {σ : Type} [Sink σ]

theorem size_launch (i : Interpreter) (view : View) (s : σ) (journal : Journal) :
    (i.launch view s journal).progress.config.store.cells.size = i.store.cells.size := by
  have hblank : i.freshStore.cells.size = i.store.cells.size := Store.size_blank i.store.cells.size
  unfold launch
  cases Matching.ofProgram i.program with
  | error e => exact hblank
  | ok m =>
    simp only [Config.config_afterWrite]
    exact hblank

theorem size_launch_runFor (i : Interpreter) (view : View) (s : σ) (journal : Journal) (n : Nat) :
    ((i.launch view s journal).runFor n).config.store.cells.size = i.store.cells.size := by
  have hlaunch := size_launch i view s journal
  unfold Launch.runFor
  split
  · rename_i c t hl
    rw [hl] at hlaunch
    rw [Config.size_runFor]
    exact hlaunch
  · rename_i c t o hl
    rw [hl] at hlaunch
    exact hlaunch

/-- **No run, however it ends, changes the program, the input, the limit or the length of the tape.** -/
theorem sameSetup_of_run {i : Interpreter} {fuel : Nat} {view : View} {s : σ} {journal : Journal} {f : Finished σ}
    (h : i.run fuel view s journal = some f) : i.SameSetup f.interpreter := by
  obtain ⟨c, hc⟩ := exists_endsIn h
  have hsize := size_launch_runFor i view s journal fuel
  rw [hc.progress] at hsize
  rw [hc.interpreter]
  exact ⟨rfl, rfl, rfl, hsize⟩

/-- what becomes of an interpreter through runs that have ended, each on a sink of its own -/
inductive Becomes (i : Interpreter) : Interpreter → Prop
  | unused : Becomes i i
  | run {i' : Interpreter} (h : Becomes i i') {ρ : Type} [Sink ρ] {fuel : Nat} {view : View} {s : ρ}
      {journal : Journal} {f : Finished ρ} (hf : i'.run fuel view s journal = some f) : Becomes i f.interpreter

theorem Becomes.sameSetup {i i' : Interpreter} (h : i.Becomes i') : i.SameSetup i' := by
  induction h with
  | unused => exact .refl i
  | run _ hf ih => exact ih.trans (sameSetup_of_run hf)

theorem Becomes.loaded {program input : List Char} {limits : Limits} {i i' : Interpreter}
    (hi : load program input limits = .ok i) (h : i.Becomes i') :
    (⟨.ofText program, input.toArray, limits.steps, .blank limits.tapeLength⟩ : Interpreter).SameSetup i' := by
  rw [← load_eq_ok hi]
  exact h.sameSetup

/-- **A run is independent of all runs before it.** It begins on a blank tape of the length that was asked for, and it
is the run that the interpreter as it was loaded would have made: at every instruction, and in its end. -/
theorem run_independent_of_history {program input : List Char} {limits : Limits} {i i' : Interpreter}
    (hi : load program input limits = .ok i) (h : i.Becomes i') :
    i'.freshStore = .blank limits.tapeLength ∧ ∀ {ρ : Type} [Sink ρ] (fuel : Nat) (view : View) (s : ρ)
      (journal : Journal), i'.launch view s journal = i.launch view s journal ∧
        i'.run fuel view s journal = i.run fuel view s journal := by
  have hsame := h.sameSetup
  refine ⟨?_, fun fuel view s journal => ⟨hsame.launch view s journal, hsame.run fuel view s journal⟩⟩
  rw [freshStore, (h.loaded hi).cells, Store.size_blank]

/-- a step table that breaks off in its header, then output of which nothing is taken: the tape is left in use, and a
third run starts afresh -/
theorem run_independent_of_history_aborted :
    ∃ i i', load "+>,.".toList "a".toList (Limits.unset.withCells ⟨2, by decide⟩) = .ok i ∧ i.Becomes i' ∧
      i'.store = ⟨#[1, 97], 1, 1⟩ ∧ i'.freshStore = .blank 2 ∧
      i'.run 5 .output Quota.unlimited .silent = i.run 5 .output Quota.unlimited .silent := by
  obtain ⟨i, hi⟩ : ∃ i, load "+>,.".toList "a".toList (Limits.unset.withCells ⟨2, by decide⟩) = .ok i := ⟨_, rfl⟩
  have hloaded := load_eq_ok hi
  obtain ⟨f, hf⟩ : ∃ f, i.run 5 .table ({ limit := some 1 } : Quota) .silent = some f := by
    rw [hloaded]
    exact ⟨_, rfl⟩
  obtain ⟨g, hg, hstore⟩ : ∃ g, f.interpreter.run 5 .output Quota.full .silent = some g ∧
      g.interpreter.store = ⟨#[1, 97], 1, 1⟩ := by
    rw [(sameSetup_of_run hf).run, hloaded]
    exact ⟨_, rfl, rfl⟩
  have hbecomes : i.Becomes g.interpreter := .run (.run .unused hf) hg
  obtain ⟨hfresh, hrun⟩ := run_independent_of_history hi hbecomes
  exact ⟨i, g.interpreter, hi, hbecomes, hstore, hfresh, (hrun 5 .output Quota.unlimited .silent).2⟩

end Interpreter

end Brainfuck
