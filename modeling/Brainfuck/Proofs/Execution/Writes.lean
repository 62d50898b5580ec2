/-
What a run does to its sink: it writes, and nothing else. `OnlyWritten s s'` says that nothing but writes lie between
two states of a sink; what a lawful sink has taken is then never taken back. A view of one kind of sink as another
that writes commute with (`Shows`) commutes with whole runs.

Main statements:
- `onlyWritten_run`: from the sink a run is given to the sink it leaves there are only writes;
- `taken_prefix_runFor`: what was taken stays taken;
- `run_map`: a run on a sink, seen as another sink, is the run on that other sink.
-/
import Mathlib.Tactic
import Brainfuck.Proofs.Execution.Turn

namespace Brainfuck

variable {σ τ : Type}

namespace Sink

section Writes

variable [Sink σ]

theorem writeAll_append (s : σ) (bss bss' : List (List UInt8)) :
    writeAll s (bss ++ bss') = writeAll (writeAll s bss) bss' := List.foldl_append

/-- nothing but writes lie between `s` and `s'` -/
def OnlyWritten (s s' : σ) : Prop := ∃ bss, s' = writeAll s bss

theorem OnlyWritten.refl (s : σ) : OnlyWritten s s := ⟨[], rfl⟩

theorem OnlyWritten.trans {s s' s'' : σ} (h : OnlyWritten s s') (h' : OnlyWritten s' s'') : OnlyWritten s s'' := by
  obtain ⟨bss, rfl⟩ := h
  obtain ⟨bss', rfl⟩ := h'
  exact ⟨bss ++ bss', (writeAll_append s bss bss').symm⟩

theorem onlyWritten_write (s : σ) (bs : List UInt8) : OnlyWritten s (write s bs).sink := ⟨[bs], rfl⟩

theorem onlyWritten_writeLine (s : σ) (text : List Char) : OnlyWritten s (writeLine s text).1 := by
  have htext := onlyWritten_write s (Text.encode text)
  unfold writeLine
  split
  · rename_i hw
    rw [hw] at htext
    exact htext
  · rename_i hw
    rw [hw] at htext
    exact htext.trans (onlyWritten_write _ _)

/-- nothing is taken back -/
theorem OnlyWritten.prefix_taken [Lawful σ] {s s' : σ} (h : OnlyWritten s s') : taken s <+: taken s' := by
  obtain ⟨bss, rfl⟩ := h
  induction bss generalizing s with
  | nil => exact List.prefix_refl _
  | cons bs bss ih =>
    have hfirst : taken s <+: taken (write s bs).sink := ⟨_, (Lawful.taken_write s bs).symm⟩
    exact hfirst.trans ih

end Writes

/-! ## One sink seen as another -/

/-- seen through `φ`, a write is the other sink's write -/
structure Shows [Sink σ] [Sink τ] (φ : σ → τ) : Prop where
  sink : ∀ s bs, φ (write s bs).sink = (write (φ s) bs).sink
  failure : ∀ s bs, (write s bs).failure = (write (φ s) bs).failure

theorem Shows.onlyWritten [Sink σ] [Sink τ] {φ : σ → τ} (h : Shows φ) {s s' : σ} (hs : OnlyWritten s s') :
    OnlyWritten (φ s) (φ s') := by
  obtain ⟨bss, rfl⟩ := hs
  refine ⟨bss, ?_⟩
  induction bss generalizing s with
  | nil => rfl
  | cons bs bss ih =>
    rw [writeAll, List.foldl_cons, writeAll, List.foldl_cons, ← h.sink]
    exact ih

theorem Shows.writeLine [Sink σ] [Sink τ] {φ : σ → τ} (h : Shows φ) (s : σ) (text : List Char) :
    Sink.writeLine (φ s) text = (φ (Sink.writeLine s text).1, (Sink.writeLine s text).2) := by
  have hsink := h.sink s (Text.encode text)
  have hfailure := h.failure s (Text.encode text)
  simp only [Sink.writeLine]
  rcases hw : Sink.write s (Text.encode text) with ⟨s', count, failure⟩
  rcases hw' : Sink.write (φ s) (Text.encode text) with ⟨t', count', failure'⟩
  rw [hw, hw'] at hsink hfailure
  simp only at hsink hfailure
  subst hsink hfailure
  cases failure with
  | none => simp only [h.sink, h.failure]
  | some e => rfl

end Sink

open Sink

/-! ## Single advances and their runs -/

namespace Progress

/-- the sink as it is now -/
def sink : Progress σ → σ
  | .running _ s | .ended _ s _ => s

/-- the configuration as it is now -/
def config : Progress σ → Config
  | .running c _ | .ended c _ _ => c

/-- the same, with the sink seen as another -/
def map (φ : σ → τ) : Progress σ → Progress τ
  | .running c s => .running c (φ s)
  | .ended c s o => .ended c (φ s) o

end Progress

namespace Config

theorem sink_afterWrite (c : Config) (ip : Nat) (s : σ) (e : Option DeviceError) : (c.afterWrite ip s e).sink = s := by
  cases e <;> rfl

theorem config_afterWrite (c : Config) (ip : Nat) (s : σ) (e : Option DeviceError) :
    (c.afterWrite ip s e).config = c := by
  cases e <;> rfl

theorem map_afterWrite (φ : σ → τ) (c : Config) (ip : Nat) (s : σ) (e : Option DeviceError) :
    (c.afterWrite ip s e).map φ = c.afterWrite ip (φ s) e := by
  cases e <;> rfl

variable [Sink σ]

/-- the configuration after an instruction does not depend on what becomes of its writes -/
theorem config_perform (view : View) (command : Command) (c : Config) (s : σ) (a : Action) :
    (c.perform view command s a).config = c.apply a := by
  unfold perform
  split
  · split
    · rfl
    · exact config_afterWrite _ _ _ _
  · exact config_afterWrite _ _ _ _

theorem onlyWritten_perform (view : View) (command : Command) (c : Config) (s : σ) (a : Action) :
    OnlyWritten s (c.perform view command s a).sink := by
  unfold perform
  split
  · split
    · exact .refl s
    · rw [sink_afterWrite]
      exact onlyWritten_write s _
  · rw [sink_afterWrite]
    exact onlyWritten_writeLine s _

theorem onlyWritten_advance (j : Job) (c : Config) (s : σ) : OnlyWritten s (c.advance j s).sink := by
  rw [advance_eq]
  cases c.turn j with
  | performed command a => exact onlyWritten_perform _ _ _ _ _
  | _ => exact .refl s

theorem onlyWritten_runFor (j : Job) (n : Nat) (c : Config) (s : σ) : OnlyWritten s (c.runFor j n s).sink := by
  induction n generalizing c s with
  | zero => exact .refl s
  | succ n ih =>
    have hfirst := onlyWritten_advance j c s
    rw [runFor_succ]
    cases ha : c.advance j s with
    | running d t => rw [ha] at hfirst; exact hfirst.trans (ih d t)
    | ended d t o => rw [ha] at hfirst; exact hfirst

/-- **Nothing is taken back** while a run goes on. -/
theorem taken_prefix_runFor [Lawful σ] (j : Job) (n : Nat) (c : Config) (s : σ) :
    taken s <+: taken (c.runFor j n s).sink := (onlyWritten_runFor j n c s).prefix_taken

/-- a run that ends has added something to what was taken -/
theorem exists_added [Lawful σ] {j : Job} {n : Nat} {c c' : Config} {s s' : σ} {o : Outcome}
    (h : c.runFor j n s = .ended c' s' o) : ∃ added, taken s' = taken s ++ added := by
  have hprefix := taken_prefix_runFor j n c s
  rw [h] at hprefix
  obtain ⟨added, hadded⟩ := hprefix
  exact ⟨added, hadded.symm⟩

variable [Sink τ] {φ : σ → τ}

theorem advance_map (h : Shows φ) (j : Job) (c : Config) (s : σ) :
    c.advance j (φ s) = (c.advance j s).map φ := by
  rw [advance_eq, advance_eq]
  cases c.turn j with
  | performed command a =>
    simp only [perform]
    split
    · split
      · rfl
      · rw [map_afterWrite, h.sink, h.failure]
    · rw [h.writeLine, map_afterWrite]
  | _ => rfl

theorem runFor_map (h : Shows φ) (j : Job) (n : Nat) (c : Config) (s : σ) :
    c.runFor j n (φ s) = (c.runFor j n s).map φ := by
  induction n generalizing c s with
  | zero => rfl
  | succ n ih =>
    rw [runFor_succ, runFor_succ, advance_map h]
    cases c.advance j s with
    | running d t => exact ih d t
    | ended d t o => rfl

end Config

/-! ## Whole runs -/

/-- the same, with the sink seen as another -/
def Finished.map (φ : σ → τ) (f : Finished σ) : Finished τ := ⟨f.interpreter, φ f.sink, f.journal, f.outcome⟩

namespace Interpreter

variable [Sink σ]

theorem onlyWritten_writeLines (s : σ) (ls : List (List Char)) : OnlyWritten s (writeLines s ls).1 := by
  induction ls generalizing s with
  | nil => exact .refl s
  | cons l ls ih =>
    have hfirst := onlyWritten_writeLine s l
    rw [writeLines]
    rcases hl : Sink.writeLine s l with ⟨s', failure⟩
    rw [hl] at hfirst
    cases failure with
    | none => exact hfirst.trans (ih s')
    | some e => exact hfirst

theorem onlyWritten_launch (i : Interpreter) (view : View) (s : σ) (journal : Journal) :
    OnlyWritten s (i.launch view s journal).progress.sink := by
  unfold launch
  cases Matching.ofProgram i.program with
  | error e => exact .refl s
  | ok m =>
    simp only [Config.sink_afterWrite]
    exact onlyWritten_writeLines s _

/-- **A run does nothing to its sink but write.** -/
theorem onlyWritten_run {i : Interpreter} {fuel : Nat} {view : View} {s : σ} {journal : Journal} {f : Finished σ}
    (h : i.run fuel view s journal = some f) : OnlyWritten s f.sink := by
  obtain ⟨c, hc⟩ := exists_endsIn h
  have hp := hc.progress
  have hlaunch := onlyWritten_launch i view s journal
  unfold Launch.runFor at hp
  split at hp
  · rename_i d t hl
    rw [hl] at hlaunch
    have hrun := Config.onlyWritten_runFor (i.launch view s journal).job fuel d t
    rw [hp] at hrun
    exact hlaunch.trans hrun
  · rename_i d t o hl
    rw [hl] at hlaunch
    cases hp
    exact hlaunch

variable [Sink τ] {φ : σ → τ}

theorem writeLines_map (h : Shows φ) (s : σ) (ls : List (List Char)) :
    writeLines (φ s) ls = (φ (writeLines s ls).1, (writeLines s ls).2) := by
  induction ls generalizing s with
  | nil => rfl
  | cons l ls ih =>
    rw [writeLines, writeLines, h.writeLine]
    rcases Sink.writeLine s l with ⟨s', failure⟩
    cases failure with
    | none => exact ih s'
    | some e => rfl

theorem launch_map (h : Shows φ) (i : Interpreter) (view : View) (s : σ) (journal : Journal) :
    i.launch view (φ s) journal =
      ⟨(i.launch view s journal).job, (i.launch view s journal).progress.map φ⟩ := by
  unfold launch
  cases Matching.ofProgram i.program with
  | error e => rfl
  | ok m => simp only [writeLines_map h, Config.map_afterWrite]

theorem runFor_launch_map (h : Shows φ) (i : Interpreter) (fuel : Nat) (view : View) (s : σ) (journal : Journal) :
    (i.launch view (φ s) journal).runFor fuel = ((i.launch view s journal).runFor fuel).map φ := by
  rw [launch_map h]
  simp only [Launch.runFor]
  cases (i.launch view s journal).progress with
  | running c t => exact Config.runFor_map h _ fuel c t
  | ended c t o => rfl

/-- **A run on a sink, seen as another sink, is the run on that other sink.** -/
theorem run_map (h : Shows φ) (i : Interpreter) (fuel : Nat) (view : View) (s : σ) (journal : Journal) :
    i.run fuel view (φ s) journal = (i.run fuel view s journal).map (Finished.map φ) := by
  rw [run, run, runFor_launch_map h]
  cases (i.launch view s journal).runFor fuel <;> rfl

end Interpreter

end Brainfuck
