/-
What the error of a run points at, and what the run has left behind then. A command that is refused has done nothing:
the store is the one it stood at, and so is the sink. A byte that is not taken has no effect either. Only a row of the
step table comes after the effect of its instruction, so there the effect is kept and a part of the row was taken.

Main statement: `error_points_at_culprit`, for every loaded interpreter whatever ran on it before, in either view and
on any sink that takes the header of the table. Which character stands at the position, and what was left behind, is
told by `PointsAt`; why a command was refused, by `Blames`.
-/
import Mathlib.Tactic
import Brainfuck.Proofs.Execution.FullSink
import Brainfuck.Proofs.Execution.Unreached
import Brainfuck.Proofs.Report.Pointing

namespace Brainfuck

open Sink

/-- the character of a bracket -/
def Bracket.toChar : Bracket → Char
  | .opening => '['
  | .closing => ']'

/-- what the error of a refused command says: the character that stands at `ip`, and why it is refused on the store `s`,
with an input of `chars` characters and a tape of `cells` cells -/
inductive Blames (chars cells : Nat) (s : Store) (ip : Nat) : Char → RunError → Prop where
  | leftEnd (h : s.pointer = 0) : Blames chars cells s ip '<' (.offTape .left ip 0)
  | rightEnd (h : s.pointer = cells - 1) : Blames chars cells s ip '>' (.offTape .right ip (cells - 1))
  | inputEnd (h : s.consumed = chars) : Blames chars cells s ip ',' (.noInput ip)
  | notACommand {x : Char} (h : x ∉ Command.alphabet) : Blames chars cells s ip x (.notACommand x ip)

/-- a machine within its bounds refuses a command for what its character asks -/
theorem Job.Refuses.blames {j : Job} {s : Store} {ip : Nat} {x : Char} {e : RunError}
    (h : j.Refuses s ip (.ofChar x) e) (hpointer : s.pointer < s.cells.size) (hconsumed : s.consumed ≤ j.input.size) :
    Blames j.input.size s.cells.size s ip x e := by
  generalize hcommand : Command.ofChar x = command at h
  have hx : x = command.toChar := by rw [← hcommand, Command.toChar_ofChar]
  cases h with
  | moveRight hend =>
    have hlast : s.pointer = s.cells.size - 1 := by omega
    rw [hx, hlast]
    exact .rightEnd hlast
  | moveLeft hzero =>
    rw [hx, hzero]
    exact .leftEnd hzero
  | read hnone =>
    have hend : j.input.size ≤ s.consumed := Array.getElem?_eq_none_iff.1 hnone
    rw [hx]
    exact .inputEnd (Nat.le_antisymm hconsumed hend)
  | other y =>
    obtain ⟨rfl, halien⟩ := Command.ofChar_eq_other.1 hcommand
    exact .notACommand halien

namespace Config

variable {σ : Type} [Sink σ] [Lawful σ] [StopsShort σ]

/-- where a performed instruction ends the run, a proper part was taken of what it shows -/
theorem exists_taken_of_perform_ended {view : View} {command : Command} {c c' : Config} {s s' : σ} {a : Action}
    {o : Outcome} (h : c.perform view command s a = .ended c' s' o) :
    ∃ k < (c.shown view command a).length, taken s' = taken s ++ (c.shown view command a).take k := by
  cases view with
  | output =>
    cases hb : a.emitted with
    | none =>
      simp only [perform, hb] at h
      cases h
    | some b =>
      simp only [perform, hb] at h
      cases hfailure : (Sink.write s [b]).failure with
      | none =>
        rw [hfailure] at h
        cases h
      | some e =>
        rw [hfailure] at h
        cases h
        simp only [shown, hb, Option.toList_some]
        exact exists_taken_of_failure hfailure
  | table =>
    simp only [perform] at h
    rcases hw : Sink.writeLine s (c.row command a).text with ⟨t, _ | e⟩
    · rw [hw] at h
      cases h
    · rw [hw] at h
      cases h
      exact exists_taken_of_writeLine hw

end Config

namespace Interpreter

open Config

variable {σ : Type} [Sink σ]

/-- how a run from `sink` ends, with an input of `chars` characters and a tape of `cells` cells, whose error points at
position `ip`, where the character `x` stands -/
inductive PointsAt [Lawful σ] (i : Interpreter) (chars cells : Nat) (sink : σ) (journal : Journal) (f : Finished σ)
    (ip : Nat) : View → Char → RunError → Prop where
  /-- a bracket without its partner: the tape is blank, and the sink was not touched -/
  | bracket {view : View} (b : Bracket) (hstore : f.interpreter.store = .blank cells)
      (hsink : f.sink = sink) : PointsAt i chars cells sink journal f ip view b.toChar (.unmatchedBracket b ip)
  /-- a refused command: store and sink are as the `n` instructions before it left them -/
  | refused {view : View} {x : Char} {e : RunError} {n : Nat} {c : Config} (hend : i.EndsAfter n view sink journal f)
      (hd : i.Dispatches n view sink journal (.ofChar x) c f.sink) (hip : c.ip = ip)
      (hstore : f.interpreter.store = c.store) (hblames : Blames chars cells c.store ip x e) :
      PointsAt i chars cells sink journal f ip view x e
  /-- a byte of the program's output that was not taken: the store is as it was before, and no byte was added -/
  | notTaken {cause : DeviceError} {n : Nat} {c : Config} {s : σ} (hend : i.EndsAfter n .output sink journal f)
      (hd : i.Dispatches n .output sink journal .write c s) (hip : c.ip = ip)
      (hstore : f.interpreter.store = c.store) (houtput : taken f.sink = taken s) :
      PointsAt i chars cells sink journal f ip .output '.' (.notWritten ip cause)
  /-- a row of the table that was taken in part: its instruction has had its effect -/
  | rowCut {x : Char} {cause : DeviceError} {n k : Nat} {c : Config} {s : σ} {m : Matching} {a : Action}
      (hend : i.EndsAfter n .table sink journal f) (hd : i.Dispatches n .table sink journal (.ofChar x) c s)
      (hip : c.ip = ip) (hm : Matching.ofProgram i.program = .ok m)
      (hdecides : (i.job m .table).Decides c.store ip (.ofChar x) a)
      (hstore : f.interpreter.store = c.store.apply a)
      (hk : k < (Text.encode ((c.row (.ofChar x) a).text ++ ['\n'])).length)
      (houtput : taken f.sink = taken s ++ (Text.encode ((c.row (.ofChar x) a).text ++ ['\n'])).take k) :
      PointsAt i chars cells sink journal f ip .table x (.notWritten ip cause)

variable {program : List Char} {i : Interpreter} {view : View} {sink : σ} {journal : Journal} {fuel ip : Nat}
  {f : Finished σ} {e : RunError}

theorem exists_char (hp : i.program = .ofText program) {k : Nat} {command : Command}
    (h : i.program[k]? = some command) : ∃ x, program[k]? = some x ∧ Command.ofChar x = command := by
  rw [hp] at h
  simpa only [Program.ofText, List.getElem?_toArray, List.getElem?_map, Option.map_eq_some_iff] using h

theorem toChar_of_culprit (hp : i.program = .ofText program) {b : Bracket} (h : Culprit i.program.toList b ip) :
    program[ip]? = some b.toChar := by
  obtain ⟨command, hcommand, hchar⟩ : ∃ command, i.program.toList[ip]? = some command ∧ command.toChar = b.toChar := by
    cases b with
    | closing => exact ⟨.loopEnd, FirstOverclosed.isEnd h, rfl⟩
    | opening => exact ⟨.loopStart, LastUnclosed.isStart h, rfl⟩
  rw [Array.getElem?_toList] at hcommand
  obtain ⟨x, hx, rfl⟩ := exists_char hp hcommand
  rw [hx, ← hchar, Command.toChar_ofChar]

section Launched

variable [Lawful σ] {m : Matching} {s₀ s : σ} {n : Nat} {c : Config}

theorem Launched.pointsAt_refused (hl : i.Launched view sink journal m s₀) (hp : i.program = .ofText program)
    (hpos : 1 ≤ i.store.cells.size) (hr : i.Reaches n view sink journal c f.sink)
    (hend : i.EndsAfter n view sink journal f) (hstore : f.interpreter.store = c.store)
    (ht : c.turn (i.job m view) = .refused e) :
    ∃ x, program[c.ip]? = some x ∧ i.PointsAt i.input.size i.store.cells.size sink journal f c.ip view x e := by
  obtain ⟨command, hcommand, hlimit, hdecide⟩ := turn_eq_refused ht
  obtain ⟨x, hx, rfl⟩ := exists_char hp hcommand
  have hbounds := inBounds_of_reaches hpos hr
  have hblames := (Job.refuses_of_decide hdecide).blames hbounds.onTape hbounds.consumed
  rw [hbounds.size] at hblames
  exact ⟨x, hx, .refused hend (hl.dispatches hr hcommand hlimit) rfl hstore hblames⟩

/-- a run that ends where something is not taken that its next instruction writes -/
theorem Launched.pointsAt_notWritten (hl : i.Launched view sink journal m s₀) (hp : i.program = .ofText program)
    (hr : i.Reaches n view sink journal c s) (hend : i.EndsAfter n view sink journal f) {command : Command}
    {a : Action} {cause : DeviceError} (hstore : f.interpreter.store = c.store.apply a)
    (ht : c.turn (i.job m view) = .performed command a)
    (htaken : ∃ k < (c.shown view command a).length, taken f.sink = taken s ++ (c.shown view command a).take k) :
    ∃ x, program[c.ip]? = some x ∧
      i.PointsAt i.input.size i.store.cells.size sink journal f c.ip view x (.notWritten c.ip cause) := by
  obtain ⟨hcommand, -, hdecide⟩ := turn_eq_performed ht
  have hd := hl.dispatches_of_performed hr ht
  have hdecides := Job.decides_of_decide hdecide
  obtain ⟨x, hx, rfl⟩ := exists_char hp hcommand
  obtain ⟨k, hk, hadded⟩ := htaken
  cases view with
  | table => exact ⟨x, hx, .rowCut hend hd rfl hl.matched hdecides hstore hk hadded⟩
  | output =>
    cases hb : a.emitted with
    | none => simp [shown, hb] at hk
    | some b =>
      obtain ⟨hwrite, -, hsame⟩ := hdecides.write_of_emitted hb
      have hdot : x = '.' := by rw [← Command.toChar_ofChar x, hwrite, Command.toChar]
      -- of the one byte that was offered nothing was taken
      have hshown : (c.shown .output (.ofChar x) a).length = 1 := by simp only [shown, hb]; rfl
      obtain rfl : k = 0 := by omega
      rw [hsame] at hstore
      rw [List.take_zero, List.append_nil] at hadded
      subst hdot
      exact ⟨'.', hx, .notTaken hend hd rfl hstore hadded⟩

variable [StopsShort σ]

theorem Launched.pointsAt (hl : i.Launched view sink journal m s₀) (hp : i.program = .ofText program)
    (hpos : 1 ≤ i.store.cells.size) (hf : i.run fuel view sink journal = some f) (ho : f.outcome = .error e)
    (hip : e.position = some ip) :
    ∃ x, program[ip]? = some x ∧ i.PointsAt i.input.size i.store.cells.size sink journal f ip view x e := by
  obtain ⟨n, c, s, c', hr, hlast, hi, hend⟩ := hl.exists_last hf
  rw [ho] at hlast
  have hstore : f.interpreter.store = c'.store := by rw [hi]
  obtain ⟨rfl, -⟩ := position_of_advance hlast hip
  cases stops_of_ended hlast with
  | limitReached => cases hip
  | refused ht => exact hl.pointsAt_refused hp hpos hr hend hstore ht
  | notWritten ht =>
    rw [advance_eq, ht] at hlast
    exact hl.pointsAt_notWritten hp hr hend hstore ht (exists_taken_of_perform_ended hlast)

/-- a run whose header is taken ends with an error at a character of the program -/
theorem exists_pointsAt (hp : i.program = .ofText program) (hpos : 1 ≤ i.store.cells.size)
    (hheader : (writeLines sink (preamble view)).2 = none) (hf : i.run fuel view sink journal = some f)
    (ho : f.outcome = .error e) (hip : e.position = some ip) :
    ∃ x, program[ip]? = some x ∧ i.PointsAt i.input.size i.store.cells.size sink journal f ip view x e := by
  have hspec := Matching.ofProgram_spec i.program
  cases hm : Matching.ofProgram i.program with
  | error e' =>
    rw [hm] at hspec
    obtain ⟨b, ip', rfl, hculprit⟩ := hspec
    rw [run_of_mismatch hm] at hf
    obtain rfl := Option.some.inj hf
    cases ho
    cases hip
    exact ⟨b.toChar, toChar_of_culprit hp hculprit, .bracket b rfl rfl⟩
  | ok m =>
    have hl : i.Launched view sink journal m (writeLines sink (preamble view)).1 := by
      refine ⟨hm, ?_⟩
      rcases hw : writeLines sink (preamble view) with ⟨s₀, failure⟩
      rw [hw] at hheader
      cases hheader
      simp only [launch, hm, hw]
      rfl
    exact hl.pointsAt hp hpos hf ho hip

/-- **An error points at its culprit, and the command that failed has left no trace.** Let an interpreter be loaded, and
used before or not, and let a run of it end with an error that has a position; the step table needs a sink that takes
its header. The position is one of the program, and the character there is the one that the error is about. The run is
left as it stood before that character was executed; only in a table whose row was cut its effect is kept. -/
theorem error_points_at_culprit {input : List Char} {limits : Limits} {i i' : Interpreter}
    (hi : load program input limits = .ok i) (hb : i.Becomes i')
    (hheader : view = .table → (writeLines sink tableHeader).2 = none)
    (hf : i'.run fuel view sink journal = some f) (ho : f.outcome = .error e) (hip : e.position = some ip) :
    ip < program.length ∧
      ∃ x, program[ip]? = some x ∧ i'.PointsAt input.length limits.tapeLength sink journal f ip view x e := by
  have hsame := hb.loaded hi
  have hcells : i'.store.cells.size = limits.tapeLength := hsame.cells.trans (Store.size_blank _)
  have hinput : i'.input.size = input.length := by rw [hsame.input, List.size_toArray]
  have hpos : 1 ≤ i'.store.cells.size := by
    rw [hcells]
    exact limits.tapeLength_pos
  have hpreamble : (writeLines sink (preamble view)).2 = none := by
    cases view with
    | output => rfl
    | table => exact hheader rfl
  obtain ⟨x, hx, hpoints⟩ := exists_pointsAt hsame.program hpos hpreamble hf ho hip
  rw [hinput, hcells] at hpoints
  exact ⟨(List.getElem?_eq_some_iff.1 hx).1, x, hx, hpoints⟩

/-- a sink with room for the header and two rows of the table, up to the last line feed -/
def oneByteShort : Quota := { limit := some 270, refusal := .noSpace }

/-- a table whose last line feed is not taken: the error points at the fourth character, which is the fifth byte of the
program, and the cell is raised all the same -/
theorem error_points_at_culprit_cut_row :
    ∃ i f, load "[é]+".toList [] (Limits.unset.withCells ⟨1, by decide⟩) = .ok i ∧ i.Becomes i ∧
      (View.table = .table → (writeLines oneByteShort tableHeader).2 = none) ∧
      i.run 3 .table oneByteShort .silent = some f ∧ f.outcome = .error (.notWritten 3 .noSpace) ∧
      f.interpreter.store = ⟨#[1], 0, 0⟩ ∧ (RunError.notWritten 3 .noSpace).position = some 3 ∧
      i.PointsAt 0 1 oneByteShort .silent f 3 .table '+' (.notWritten 3 .noSpace) := by
  obtain ⟨i, hi⟩ : ∃ i, load "[é]+".toList [] (Limits.unset.withCells ⟨1, by decide⟩) = .ok i := ⟨_, rfl⟩
  have hheader : (writeLines oneByteShort tableHeader).2 = none := by decide +kernel
  have hrun : (i.run 3 .table oneByteShort .silent).map (fun f => (f.outcome, f.interpreter.store)) =
      some (.error (.notWritten 3 .noSpace), ⟨#[1], 0, 0⟩) := by
    rw [load_eq_ok hi]
    decide +kernel
  obtain ⟨f, hf, hend⟩ := Option.map_eq_some_iff.1 hrun
  have ho : f.outcome = .error (.notWritten 3 .noSpace) := congrArg Prod.fst hend
  have hstore : f.interpreter.store = ⟨#[1], 0, 0⟩ := congrArg Prod.snd hend
  obtain ⟨-, x, hx, hpoints⟩ := error_points_at_culprit hi .unused (fun _ => hheader) hf ho rfl
  obtain rfl : '+' = x := Option.some.inj hx
  exact ⟨i, f, hi, .unused, fun _ => hheader, hf, ho, hstore, rfl, hpoints⟩

end Launched

end Interpreter

end Brainfuck
