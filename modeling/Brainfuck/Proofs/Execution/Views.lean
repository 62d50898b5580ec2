/-
The two views show one run. Side by side, on sinks that never fail, a run in the output view and one in the table view
take the same turns (`InStep.advance`), so they stand at the same configuration as long as they run and end in the same
way. Beside the configuration they keep the rows written so far: the bytes that the rows' actions emit are the output.

Main statement: `views_show_one_run`.
-/
import Mathlib.Tactic
import Brainfuck.Proofs.Brackets.Matching
import Brainfuck.Proofs.Execution.Lockstep
import Brainfuck.Proofs.StepTable.RoundTrip

namespace Brainfuck

open Sink

variable {σ τ : Type}

/-- the same job in another view -/
def Job.inView (j : Job) (view : View) : Job := { j with view := view }

/-- only the eight commands are ever performed, and each can be told in a row -/
theorem Job.legible_of_decide {j : Job} {s : Store} {ip : Nat} {command : Command} {a : Action}
    (h : j.decide s ip command = .ok a) : command.toChar ∉ ['|', ' ', '\n'] := by
  cases command with
  | other c => cases h
  | _ => decide

namespace Config

variable [Sink σ] [Lawful σ] [Sink τ] [Lawful τ]

/-- a run in the output view beside one in the table view; `out` and `table` are what the sinks held at the start -/
structure InStep (out table : List UInt8) (c : Config) (s : σ) (d : Config) (t : τ) : Prop where
  config : c = d
  output_neverFails : NeverFails s
  table_neverFails : NeverFails t
  rows : ∃ rows : List Row, (∀ r ∈ rows, r.Legible) ∧ taken s = out ++ rows.filterMap (·.action.emitted) ∧
    taken t = table ++ Text.encode (StepTable.tableText rows)

variable {out table : List UInt8} {j : Job} {c d : Config} {s : σ} {t : τ}

/-- **One advance of each view keeps them in step.** -/
theorem InStep.advance (h : InStep out table c s d t) :
    Progress.Together (InStep out table) (c.advance (j.inView .output) s) (d.advance (j.inView .table) t) := by
  obtain ⟨rfl, hs, ht, rows, hlegible, hout, htable⟩ := h
  have hstay : InStep out table c s c t := ⟨rfl, hs, ht, rows, hlegible, hout, htable⟩
  have hsame : ∀ view, c.turn (j.inView view) = c.turn j := fun view => rfl
  cases hturn : c.turn j with
  | finished =>
    rw [advance_of_finished ((hsame _).trans hturn), advance_of_finished ((hsame _).trans hturn)]
    exact .ended _ ⟨rfl, hs, ht, hstay.rows⟩
  | limitReached limit =>
    rw [advance_of_limit ((hsame _).trans hturn), advance_of_limit ((hsame _).trans hturn)]
    exact .ended _ ⟨rfl, hs, ht, hstay.rows⟩
  | refused e =>
    rw [advance_of_refused ((hsame _).trans hturn), advance_of_refused ((hsame _).trans hturn)]
    exact .ended _ hstay
  | performed command a =>
    obtain ⟨s', hadvs, hs', hout'⟩ := advance_performed hs ((hsame .output).trans hturn)
    obtain ⟨t', hadvt, ht', htable'⟩ := advance_performed ht ((hsame .table).trans hturn)
    have hrow : (c.row command a).Legible := Job.legible_of_decide (turn_eq_performed hturn).2.2
    rw [hadvs, hadvt]
    refine .running ⟨rfl, hs', ht', rows ++ [c.row command a], ?_, ?_, ?_⟩
    · intro r hr
      rcases List.mem_append.1 hr with hr | hr
      · exact hlegible r hr
      · rw [List.mem_singleton.1 hr]
        exact hrow
    · have hlast : [c.row command a].filterMap (·.action.emitted) = a.emitted.toList := by
        cases ha : a.emitted <;> simp [row, ha]
      rw [hout', hout, List.append_assoc, List.filterMap_append, hlast]
      rfl
    · rw [htable', htable, List.append_assoc, StepTable.tableText_snoc,
        Text.encode_append _ ((c.row command a).text ++ _)]
      rfl

theorem InStep.runFor (h : InStep out table c s d t) (n : Nat) :
    Progress.Together (InStep out table) (c.runFor (j.inView .output) n s) (d.runFor (j.inView .table) n t) :=
  runFor_together (c.steps + n) (fun hR _ => hR.advance) h le_rfl

end Config

namespace Interpreter

open Config

/-! ## Whole runs -/

/-- at its first instruction a run in the table view has written a table without rows -/
theorem launch_table [Sink τ] [Lawful τ] {i : Interpreter} {m : Matching} (hm : Matching.ofProgram i.program = .ok m)
    {t : τ} (ht : NeverFails t) (journal : Journal) :
    ∃ t', i.launch .table t journal = ⟨i.job m .table, .running (i.start journal) t'⟩ ∧ NeverFails t' ∧
      taken t' = taken t ++ Text.encode (StepTable.tableText []) := by
  obtain ⟨t', hl, ht', htaken⟩ := launch_of_neverFails hm ht .table journal
  refine ⟨t', hl, ht', ?_⟩
  rw [htaken, StepTable.tableText, List.map_nil, List.append_nil]
  rfl

variable [Sink σ] [Lawful σ] [Sink τ] [Lawful τ]

/-- two ended runs are one, seen in two ways: the table written to `t` tells the bytes written to `s` -/
structure OneRun (s : σ) (t : τ) (f : Finished σ) (g : Finished τ) : Prop where
  outcome : f.outcome = g.outcome
  interpreter : f.interpreter = g.interpreter
  journal : f.journal = g.journal
  told : ∃ out table, taken f.sink = taken s ++ out ∧ taken g.sink = taken t ++ table ∧
    StepTable.outputs? table = some (out.map UInt8.toNat)

theorem oneRun_of_together (i : Interpreter) {s : σ} {t : τ} {p : Progress σ} {q : Progress τ}
    (h : Progress.Together (InStep (taken s) (taken t)) p q) :
    Option.Rel (OneRun s t) (i.finished? p) (i.finished? q) := by
  cases h with
  | running _ => exact .none
  | ended o hR =>
    obtain ⟨rfl, -, -, rows, hlegible, hout, htable⟩ := hR
    exact .some ⟨rfl, rfl, rfl, _, _, hout, htable, StepTable.outputs?_tableText hlegible⟩

/-- **The two views show one run**, on sinks that never fail. After any number of advances both are still running, or
both have ended with the same outcome and left the same interpreter, and the rows written to the table that tell of
output tell the bytes written in the output view, whatever the outcome. -/
theorem views_show_one_run (i : Interpreter) {s : σ} {t : τ} (hs : NeverFails s) (ht : NeverFails t) (fuel : Nat)
    (journal : Journal) : Option.Rel (OneRun s t) (i.run fuel .output s journal) (i.run fuel .table t journal) := by
  cases hm : Matching.ofProgram i.program with
  | error e =>
    rw [run_of_mismatch hm, run_of_mismatch hm]
    exact .some ⟨rfl, rfl, rfl, [], [], by simp, by simp, StepTable.outputs?_nil⟩
  | ok m =>
    obtain ⟨t', hl, ht', htaken⟩ := launch_table hm ht journal
    have hstart : InStep (taken s) (taken t) (i.start journal) s (i.start journal) t' :=
      ⟨rfl, hs, ht', [], by simp, by simp, htaken⟩
    rw [Interpreter.run, Interpreter.run, launch_output hm, hl]
    exact oneRun_of_together i (hstart.runFor (j := i.job m .output) fuel)

/-- a program that writes a byte and then leaves the tape: both views end with the error, the table tells the byte -/
theorem views_show_one_run_off_tape :
    Option.Rel (OneRun Quota.unlimited Quota.unlimited)
      ((⟨.ofText "+.<".toList, #[], none, .blank 1⟩ : Interpreter).run 3 .output Quota.unlimited .silent)
      ((⟨.ofText "+.<".toList, #[], none, .blank 1⟩ : Interpreter).run 3 .table Quota.unlimited .silent) ∧
    ((⟨.ofText "+.<".toList, #[], none, .blank 1⟩ : Interpreter).run 3 .output Quota.unlimited .silent).map
      (fun f => (f.outcome, taken f.sink)) = some (.error (.offTape .left 2 0), [1]) := by
  refine ⟨?_, by rfl⟩
  exact views_show_one_run ⟨.ofText "+.<".toList, #[], none, .blank 1⟩ Quota.neverFails_unlimited
    Quota.neverFails_unlimited 3 .silent

end Interpreter

end Brainfuck
