/-
A run instruction by instruction. `Reaches` says where a run stands after `n` instructions, `Dispatches` that it takes
up one more there: a command stands at the position, and the limit allows it. Both begin with a run that was launched,
with its brackets matched and its header written (`Launched`).

Main statements:
- `exists_performed`: a run that goes on has performed the instruction that it dispatched;
- `exists_refused`, `run_of_refused`: a run ends with an error of a command exactly where it dispatches a command that
  is refused, on the store and the sink that it stands at;
- `StartsAlike.run_rel`: two interpreters that start alike, and advance alike wherever the first one comes, end alike.
-/
import Mathlib.Tactic
import Brainfuck.Proofs.Execution.StepLimit

namespace Brainfuck

/-- an error that a command brings about by itself -/
def RunError.OfCommand : RunError → Prop
  | .notACommand .. | .offTape .. | .noInput _ => True
  | _ => False

variable {σ : Type} [Sink σ]

/-! ## Single advances -/

namespace Config

variable {j : Job} {c c' : Config} {s s' : σ}

/-- an error that is the command's own ends the run where the command stands, and nothing has happened -/
theorem refused_of_ended {e : RunError} (h : c.advance j s = .ended c' s' (.error e)) (he : e.OfCommand) :
    c.turn j = .refused e ∧ c' = c ∧ s' = s := by
  cases stops_of_ended h with
  | limitReached => cases he
  | refused ht => exact ⟨ht, rfl, rfl⟩
  | notWritten => cases he

end Config

/-! ## Launched runs -/

namespace Interpreter

open Config

/-- the run stands at its first instruction, with its brackets matched by `m` and the sink at `s₀` -/
structure Launched (i : Interpreter) (view : View) (sink : σ) (journal : Journal) (m : Matching) (s₀ : σ) : Prop where
  matched : Matching.ofProgram i.program = .ok m
  launch : i.launch view sink journal = ⟨i.job m view, .running (i.start journal) s₀⟩

/-- instruction `n` of the run (from 0) is taken up: `command` stands there, and the limit allows it -/
structure Dispatches (i : Interpreter) (n : Nat) (view : View) (sink : σ) (journal : Journal) (command : Command)
    (c : Config) (s : σ) : Prop where
  reaches : i.Reaches n view sink journal c s
  command : i.program[c.ip]? = some command
  allowed : ∀ l ∈ i.stepLimit, n < l

variable {i : Interpreter} {view : View} {sink s₀ : σ} {journal : Journal} {m : Matching} {n : Nat} {c c' : Config}
  {s s' : σ}

/-- a program whose brackets match is launched, or its header was not written -/
theorem launched_or_ended (hm : Matching.ofProgram i.program = .ok m) (view : View) (sink : σ) (journal : Journal) :
    (∃ s₀, i.Launched view sink journal m s₀) ∨
      ∃ s₀ e, i.launch view sink journal = ⟨i.job m view, .ended (i.start journal) s₀ (.error (.notWritten 0 e))⟩ := by
  rcases hw : writeLines sink (preamble view) with ⟨s₀, failure⟩
  cases failure with
  | none => exact Or.inl ⟨s₀, hm, by simp only [launch, hm, hw]; rfl⟩
  | some e => exact Or.inr ⟨s₀, e, by simp only [launch, hm, hw]; rfl⟩

theorem launched_output (hm : Matching.ofProgram i.program = .ok m) : i.Launched .output sink journal m sink :=
  ⟨hm, launch_output hm sink journal⟩

theorem Reaches.exists_launched (h : i.Reaches n view sink journal c s) :
    ∃ m s₀, i.Launched view sink journal m s₀ := by
  cases hm : Matching.ofProgram i.program with
  | error e =>
    simp only [Reaches, launch, hm, Launch.runFor] at h
    cases h
  | ok m =>
    rcases launched_or_ended hm view sink journal with ⟨s₀, hl⟩ | ⟨s₀, e, hl⟩
    · exact ⟨m, s₀, hl⟩
    · simp only [Reaches, hl, Launch.runFor] at h
      cases h

theorem Reaches.unique (h : i.Reaches n view sink journal c s) (h' : i.Reaches n view sink journal c' s') :
    c' = c ∧ s' = s := by
  have heq := h.symm.trans h'
  cases heq
  exact ⟨rfl, rfl⟩

/-- a run that ends with an error of a command was launched -/
theorem exists_launched_of_run {fuel : Nat} {f : Finished σ} {e : RunError}
    (hf : i.run fuel view sink journal = some f) (ho : f.outcome = .error e) (he : e.OfCommand) :
    ∃ m s₀, i.Launched view sink journal m s₀ := by
  cases hm : Matching.ofProgram i.program with
  | error e' =>
    have hspec := Matching.ofProgram_spec i.program
    rw [hm] at hspec
    obtain ⟨b, ip, rfl, -⟩ := hspec
    rw [run_of_mismatch hm] at hf
    obtain rfl := Option.some.inj hf
    cases ho
    cases he
  | ok m =>
    rcases launched_or_ended hm view sink journal with ⟨s₀, hl⟩ | ⟨s₀, e', hl⟩
    · exact ⟨m, s₀, hl⟩
    · simp only [run, hl, Launch.runFor, finished?] at hf
      obtain rfl := Option.some.inj hf
      cases ho
      cases he

namespace Launched

variable (hl : i.Launched view sink journal m s₀)

include hl

theorem runFor_eq (n : Nat) :
    (i.launch view sink journal).runFor n = (i.start journal).runFor (i.job m view) n s₀ := by
  rw [hl.launch]
  rfl

theorem reaches_iff :
    i.Reaches n view sink journal c s ↔ (i.start journal).runFor (i.job m view) n s₀ = .running c s := by
  rw [Reaches, hl.runFor_eq]

theorem reaches_zero : i.Reaches 0 view sink journal (i.start journal) s₀ := hl.reaches_iff.2 rfl

theorem correct : m.Correct i.program.toList := by
  have hspec := Matching.ofProgram_spec i.program
  rw [hl.matched] at hspec
  exact hspec.2

theorem steps_eq (h : i.Reaches n view sink journal c s) : c.steps = n :=
  (steps_of_running (hl.reaches_iff.1 h)).trans (Nat.zero_add n)

theorem runFor_succ_of_reaches (h : i.Reaches n view sink journal c s) :
    (i.launch view sink journal).runFor (n + 1) = c.advance (i.job m view) s := by
  rw [hl.runFor_eq]
  exact runFor_succ_of_running (hl.reaches_iff.1 h)

theorem dispatches (h : i.Reaches n view sink journal c s) {command : Command}
    (hcommand : i.program[c.ip]? = some command) (hlimit : (i.job m view).limitReached? c.steps = none) :
    i.Dispatches n view sink journal command c s := by
  refine ⟨h, hcommand, fun l hlim => ?_⟩
  rw [hl.steps_eq h, Job.limitReached?, show (i.job m view).stepLimit = some l from hlim, Option.filter_some] at hlimit
  have hlt : ¬ l ≤ n := by simpa using hlimit
  exact Nat.lt_of_not_le hlt

theorem dispatches_of_performed (h : i.Reaches n view sink journal c s) {command : Command} {a : Action}
    (ht : c.turn (i.job m view) = .performed command a) : i.Dispatches n view sink journal command c s := by
  obtain ⟨hcommand, hlimit, -⟩ := turn_eq_performed ht
  exact hl.dispatches h hcommand hlimit

theorem turn_eq {command : Command} (h : i.Dispatches n view sink journal command c s) :
    c.turn (i.job m view) = match (i.job m view).decide c.store c.ip command with
      | .error e => .refused e
      | .ok a => .performed command a := by
  refine turn_of_command h.command ?_
  rw [hl.steps_eq h.reaches, Job.limitReached?]
  cases hlim : i.stepLimit with
  | none => rw [show (i.job m view).stepLimit = none from hlim]; rfl
  | some l =>
    have hlt := h.allowed l hlim
    rw [show (i.job m view).stepLimit = some l from hlim, Option.filter_some]
    simp; omega

/-- **A run that goes on has performed the instruction that it dispatched.** -/
theorem exists_performed (h : i.Reaches (n + 1) view sink journal c' s') :
    ∃ c s command a, i.Dispatches n view sink journal command c s ∧
      c.turn (i.job m view) = .performed command a ∧ c.advance (i.job m view) s = .running c' s' ∧ c' = c.apply a := by
  obtain ⟨c, s, hn⟩ := exists_running_of_le (hl.reaches_iff.1 h) n.le_succ
  have hr := hl.reaches_iff.2 hn
  have hadv : c.advance (i.job m view) s = .running c' s' := (hl.runFor_succ_of_reaches hr).symm.trans h
  obtain ⟨command, a, ht, hc'⟩ := advance_running hadv
  exact ⟨c, s, command, a, hl.dispatches_of_performed hr ht, ht, hadv, hc'⟩

theorem endsAfter (h : i.Reaches n view sink journal c s) {o : Outcome}
    (hlast : c.advance (i.job m view) s = .ended c' s' o) :
    i.EndsAfter n view sink journal ⟨{ i with store := c'.store }, s', c'.journal, o⟩ :=
  ⟨⟨c, s, h⟩, (endsIn_of_progress ((hl.runFor_succ_of_reaches h).trans hlast)).run⟩

/-- a run that ends does so at one of its advances -/
theorem exists_last {fuel : Nat} {f : Finished σ} (hf : i.run fuel view sink journal = some f) :
    ∃ n c s c', i.Reaches n view sink journal c s ∧ c.advance (i.job m view) s = .ended c' f.sink f.outcome ∧
      f.interpreter = { i with store := c'.store } ∧ i.EndsAfter n view sink journal f := by
  obtain ⟨c', he⟩ := exists_endsIn hf
  have hp := he.progress
  rw [hl.runFor_eq] at hp
  obtain ⟨n, c, s, -, hrun, hlast⟩ := exists_last_running hp
  have hr := hl.reaches_iff.2 hrun
  have hend := hl.endsAfter hr hlast
  rw [run_unique hend.run hf] at hend
  exact ⟨n, c, s, c', hr, hlast, he.interpreter, hend⟩

end Launched

/-! ## Commands that are refused -/

/-- **An error of a command comes from a command that is dispatched and refused**, and the run is left as it stands
there. -/
theorem exists_refused {fuel : Nat} {f : Finished σ} {e : RunError} (hf : i.run fuel view sink journal = some f)
    (ho : f.outcome = .error e) (he : e.OfCommand) :
    ∃ n command c m, i.EndsAfter n view sink journal f ∧ i.Dispatches n view sink journal command c f.sink ∧
      (i.job m view).Refuses c.store c.ip command e ∧ f.interpreter = { i with store := c.store } := by
  obtain ⟨m, s₀, hl⟩ := exists_launched_of_run hf ho he
  obtain ⟨n, c, s, c', hr, hlast, hi, hend⟩ := hl.exists_last hf
  rw [ho] at hlast
  obtain ⟨ht, rfl, hs⟩ := refused_of_ended hlast he
  obtain ⟨command, hcommand, hlimit, hdecide⟩ := turn_eq_refused ht
  rw [hs]
  exact ⟨n, command, c', m, hend, hl.dispatches hr hcommand hlimit, Job.refuses_of_decide hdecide, hi⟩

/-- **A command that is dispatched and refused ends the run** with its error, on the store and the sink it stands at. -/
theorem run_of_refused {command : Command} {e : RunError} (h : i.Dispatches n view sink journal command c s)
    (he : ∀ m, (i.job m view).decide c.store c.ip command = .error e) :
    i.run (n + 1) view sink journal = some ⟨{ i with store := c.store }, s, c.journal, .error e⟩ := by
  obtain ⟨m, s₀, hl⟩ := h.reaches.exists_launched
  have ht := hl.turn_eq h
  rw [he m] at ht
  exact (hl.endsAfter h.reaches (advance_of_refused ht s)).run

/-! ## Runs that start alike -/

/-- two interpreters that come to their first instruction in the same way -/
structure StartsAlike (i i' : Interpreter) : Prop where
  matching : Matching.ofProgram i'.program = Matching.ofProgram i.program
  length : i'.program.size = i.program.size
  stepLimit : i'.stepLimit = i.stepLimit
  cells : i'.store.cells.size = i.store.cells.size

section StartsAlike

variable {i' : Interpreter} {fuel : Nat}

theorem StartsAlike.runFor_eq (h : i.StartsAlike i')
    (hadv : ∀ n < fuel, ∀ m s₀ c s, i.Launched view sink journal m s₀ → i.Reaches n view sink journal c s →
      c.advance (i.job m view) s = c.advance (i'.job m view) s) :
    (i'.launch view sink journal).runFor fuel = (i.launch view sink journal).runFor fuel := by
  have hfresh : i'.freshStore = i.freshStore := by rw [freshStore, freshStore, h.cells]
  have hstart : i'.start journal = i.start journal := by rw [start, start, hfresh, h.length, h.stepLimit]
  cases hm : Matching.ofProgram i.program with
  | error e => simp only [launch, h.matching, hm, hfresh, Launch.runFor]
  | ok m =>
    rcases hw : writeLines sink (preamble view) with ⟨s₀, failure⟩
    have hl : i.launch view sink journal = ⟨i.job m view, (i.start journal).afterWrite 0 s₀ failure⟩ := by
      simp only [launch, hm, hw]
      rfl
    have hl' : i'.launch view sink journal = ⟨i'.job m view, (i.start journal).afterWrite 0 s₀ failure⟩ := by
      rw [← hstart]
      simp only [launch, h.matching, hm, hw]
      rfl
    cases failure with
    | some e => rw [hl, hl']; rfl
    | none =>
      have hlaunched : i.Launched view sink journal m s₀ := ⟨hm, hl⟩
      rw [hl', hl]
      refine (runFor_congr fun n hn c s hrun => ?_).symm
      exact hadv n hn m s₀ c s hlaunched (hlaunched.reaches_iff.2 hrun)

/-- **Interpreters that start alike end alike**, if they advance alike wherever the first one comes. -/
theorem StartsAlike.run_rel (h : i.StartsAlike i')
    (hadv : ∀ n < fuel, ∀ m s₀ c s, i.Launched view sink journal m s₀ → i.Reaches n view sink journal c s →
      c.advance (i.job m view) s = c.advance (i'.job m view) s) :
    Option.Rel SameEnd (i.run fuel view sink journal) (i'.run fuel view sink journal) := by
  rw [Interpreter.run, Interpreter.run, h.runFor_eq hadv]
  cases (i.launch view sink journal).runFor fuel with
  | running c s => exact .none
  | ended c s o => exact .some ⟨rfl, rfl, rfl⟩

theorem exists_sameEnd_of_rel {f : Finished σ} (hf : i.run fuel view sink journal = some f)
    (h : Option.Rel SameEnd (i.run fuel view sink journal) (i'.run fuel view sink journal)) :
    ∃ g, i'.run fuel view sink journal = some g ∧ SameEnd g f := by
  rw [hf] at h
  cases hg : i'.run fuel view sink journal with
  | none => rw [hg] at h; cases h
  | some g =>
    rw [hg] at h
    cases h with
    | some hfg => exact ⟨g, rfl, hfg.symm⟩

end StartsAlike

end Interpreter

end Brainfuck
