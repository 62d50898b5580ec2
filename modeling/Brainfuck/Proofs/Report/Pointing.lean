/-
Where the errors of a run point, and what there is to show then. An error points at the character that was to be
executed or at the bracket at fault; only a table whose header could not be written gives an error at position 0 that
has no character to it (`position_of_run`). Below the top of the word range every position has a window
(`around?_eq`), so the error of a program that fits into memory is always reported with its window.
-/
import Mathlib.Tactic
import Brainfuck.Proofs.Brackets.Matching
import Brainfuck.Proofs.Execution.Turn
import Brainfuck.Report

namespace Brainfuck

/-! ## Positions of errors -/

theorem Job.position_of_decide {j : Job} {s : Store} {ip : Nat} {command : Command} {e : RunError}
    (h : j.decide s ip command = .error e) : e.position = some ip := by
  cases refuses_of_decide h <;> rfl

theorem Culprit.lt_length {cs : List Command} {b : Bracket} {ip : Nat} (h : Culprit cs b ip) : ip < cs.length := by
  cases b with
  | closing => exact (List.getElem?_eq_some_iff.1 (FirstOverclosed.isEnd h)).1
  | opening => exact (List.getElem?_eq_some_iff.1 (LastUnclosed.isStart h)).1

variable {σ : Type}

namespace Config

variable [Sink σ]

/-- an error points at the instruction that was to be executed, if it points anywhere -/
theorem position_of_advance {j : Job} {c c' : Config} {s s' : σ} {e : RunError} {pos : Nat}
    (h : c.advance j s = .ended c' s' (.error e)) (hpos : e.position = some pos) :
    pos = c.ip ∧ pos < j.program.size := by
  have hat {command : Command} (hcommand : j.program[c.ip]? = some command) (hip : e.position = some c.ip) :
      pos = c.ip ∧ pos < j.program.size := by
    obtain ⟨hlt, -⟩ := Array.getElem?_eq_some_iff.1 hcommand
    obtain rfl := Option.some.inj (hpos.symm.trans hip)
    exact ⟨rfl, hlt⟩
  cases stops_of_ended h with
  | limitReached => cases hpos
  | refused ht =>
    obtain ⟨command, hcommand, -, hrefused⟩ := turn_eq_refused ht
    exact hat hcommand (Job.position_of_decide hrefused)
  | notWritten ht => exact hat (turn_eq_performed ht).1 rfl

theorem position_of_runFor {j : Job} {n : Nat} {c c' : Config} {s s' : σ} {e : RunError} {pos : Nat}
    (h : c.runFor j n s = .ended c' s' (.error e)) (hpos : e.position = some pos) : pos < j.program.size := by
  induction n generalizing c s with
  | zero => cases h
  | succ n ih =>
    rw [runFor_succ] at h
    cases ha : c.advance j s with
    | running d t =>
      rw [ha] at h
      exact ih h
    | ended d t o =>
      rw [ha] at h
      cases h
      exact (position_of_advance ha hpos).2

end Config

namespace Interpreter

variable [Sink σ]

/-- the error of a launch points at a bracket, or it is about the table's header -/
theorem position_of_launch {i : Interpreter} {view : View} {s s' : σ} {journal : Journal} {c : Config} {e : RunError}
    {pos : Nat} (h : (i.launch view s journal).progress = .ended c s' (.error e)) (hpos : e.position = some pos) :
    pos < i.program.size ∨ view = .table ∧ pos = 0 := by
  have hspec := Matching.ofProgram_spec i.program
  unfold launch at h
  cases hm : Matching.ofProgram i.program with
  | error e' =>
    rw [hm] at h hspec
    cases h
    obtain ⟨b, ip, rfl, hculprit⟩ := hspec
    obtain rfl := Option.some.inj hpos
    exact .inl (Array.length_toList ▸ hculprit.lt_length)
  | ok m =>
    rw [hm] at h
    cases view with
    | output => cases h
    | table =>
      obtain ⟨-, cause, ho⟩ := Config.afterWrite_ended h
      cases ho
      exact .inr ⟨rfl, (Option.some.inj hpos).symm⟩

/-- **An error of a run points into the program**, unless it is about the table's header. -/
theorem position_of_run {i : Interpreter} {fuel : Nat} {view : View} {s : σ} {journal : Journal} {f : Finished σ}
    {e : RunError} {pos : Nat} (h : i.run fuel view s journal = some f) (ho : f.outcome = .error e)
    (hpos : e.position = some pos) : pos < i.program.size ∨ view = .table ∧ pos = 0 := by
  obtain ⟨c, hc⟩ := exists_endsIn h
  have hp := hc.progress
  rw [ho] at hp
  cases hl : (i.launch view s journal).progress with
  | running d t =>
    have hjob : (i.launch view s journal).job.program = i.program := by
      unfold launch
      cases Matching.ofProgram i.program <;> rfl
    simp only [Launch.runFor, hl] at hp
    exact .inl (hjob ▸ Config.position_of_runFor hp hpos)
  | ended d t o =>
    simp only [Launch.runFor, hl] at hp
    cases hp
    exact position_of_launch hl hpos

end Interpreter

/-! ## The window at a position -/

/-- **Where its end does not wrap a window shows up to 32 characters on either side of its position.** -/
theorem Window.around?_eq (code : List Char) {pos : Nat} (h : pos + reach + 1 < Count.bound) :
    around? code pos =
      some ⟨((code.take (pos + reach + 1)).drop (pos - reach)).map shownAs, min pos reach⟩ := by
  have hstop : stop code.length pos = min (pos + reach + 1) code.length := by
    rw [stop, Nat.mod_eq_of_lt h]
  have hle : min (start pos) code.length ≤ stop code.length pos := by
    rw [hstop, start]
    omega
  have hslice : (code.take (stop code.length pos)).drop (min (start pos) code.length) =
      (code.take (pos + reach + 1)).drop (pos - reach) := by
    rw [hstop, ← List.take_eq_take_min, start]
    rcases Nat.le_total (pos - reach) code.length with hin | hout
    · rw [Nat.min_eq_left hin]
    · rw [Nat.min_eq_right hout, List.drop_eq_nil_of_le (by simp), List.drop_eq_nil_of_le (by simp; omega)]
  have hcaret : pos - start pos = min pos reach := by
    rw [start]
    omega
  simp only [around?, if_pos hle, hslice, hcaret]

end Brainfuck
