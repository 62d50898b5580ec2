/-
Programs without loops, input and output mean what their text adds up to. `drift` is where a text has moved the pointer,
`net` what it has added to a cell, both counted in the text alone. As long as the drift stays on the tape, the store
after `k` instructions is told by these sums (`Sums`, kept by every instruction in `Sums.step`); the first position
behind which it would not ends the run.

Main statement: `straight_program_adds_up`.
-/
import Mathlib.Tactic
import Brainfuck.Proofs.Execution.Trace
import Brainfuck.Proofs.Safety.Bounds

namespace Brainfuck

/-! ## Sums over a text -/

/-- nothing but moves of the pointer and counting -/
def Straight (program : List Char) : Prop := ∀ x ∈ program, x = '>' ∨ x = '<' ∨ x = '+' ∨ x = '-'

/-- moves to the right less moves to the left among the first `k` characters -/
def drift (program : List Char) (k : Nat) : ℤ := (program.take k).count '>' - (program.take k).count '<'

/-- how many of the first `k` characters are `x` and stand where the pointer is at cell `c` -/
def tally (program : List Char) (x : Char) (c k : Nat) : Nat :=
  Nat.count (fun n => program[n]? = some x ∧ drift program n = c) k

/-- increments less decrements of cell `c` among the first `k` characters -/
def net (program : List Char) (c k : Nat) : ℤ := tally program '+' c k - tally program '-' c k

/-- the first `k` characters leave the pointer on a tape of that many cells -/
def OnTape (program : List Char) (cells k : Nat) : Prop := 0 ≤ drift program k ∧ drift program k < cells

/-- what a character adds to the drift -/
def shift (x : Char) : ℤ := if x = '>' then 1 else if x = '<' then -1 else 0

/-- what a character adds to the cell under the pointer -/
def weight (x : Char) : ℤ := if x = '+' then 1 else if x = '-' then -1 else 0

/-- the store that the first `k` characters add up to -/
structure Sums (program : List Char) (cells k : Nat) (s : Store) : Prop where
  size : s.cells.size = cells
  pointer : (s.pointer : ℤ) = drift program k
  cell : ∀ c < cells, ∃ b, s.cells[c]? = some b ∧ (b.toNat : ℤ) = net program c k % 256

section Text

variable {program : List Char} {k : Nat} {x : Char}

@[simp] theorem drift_zero (program : List Char) : drift program 0 = 0 := by simp [drift]

@[simp] theorem net_zero (program : List Char) (c : Nat) : net program c 0 = 0 := by simp [net, tally]

theorem drift_succ (hx : program[k]? = some x) : drift program (k + 1) = drift program k + shift x := by
  have hcount (y : Char) :
      ((program.take (k + 1)).count y : ℤ) = (program.take k).count y + if x = y then 1 else 0 := by
    rw [List.take_add_one, hx, Option.toList_some, List.count_append, List.count_singleton]
    simp
  rw [drift, drift, hcount, hcount, shift]
  split_ifs with hright hleft
  · subst hright
    cases hleft
  all_goals omega

theorem tally_succ (hx : program[k]? = some x) (y : Char) (c : Nat) :
    tally program y c (k + 1) = tally program y c k + if x = y ∧ drift program k = c then 1 else 0 := by
  rw [tally, tally, Nat.count_succ, hx]
  simp only [Option.some.injEq]

theorem net_succ (hx : program[k]? = some x) (c : Nat) :
    net program c (k + 1) = net program c k + if drift program k = c then weight x else 0 := by
  rw [net, net, tally_succ hx, tally_succ hx, weight]
  by_cases hc : drift program k = c
  · simp only [hc, and_true, if_true]
    split_ifs with hplus hminus
    · subst hplus
      cases hminus
    all_goals push_cast; omega
  · simp [hc]

theorem balanced_of_straight (h : Straight program) : Balanced (program.map Command.ofChar) := by
  induction program with
  | nil => exact balanced_nil
  | cons x cs ih =>
    have hplain : (Command.ofChar x).isBracket = false := by
      rcases h x List.mem_cons_self with rfl | rfl | rfl | rfl <;> rfl
    exact (balanced_single hplain).append (ih fun y hy => h y (List.mem_cons_of_mem _ hy))

/-- the fewest characters that lead off the tape are some, for none lead nowhere -/
theorem exists_first_offTape {cells : Nat} (hcells : 0 < cells)
    (hoff : ¬ ∀ n ≤ program.length, OnTape program cells n) :
    ∃ k, IsLeast {n | n ≤ program.length ∧ ¬ OnTape program cells n} (k + 1) ∧ ∀ n ≤ k, OnTape program cells n := by
  have hne : ∃ n, n ≤ program.length ∧ ¬ OnTape program cells n := by simpa using hoff
  obtain ⟨n, hleast⟩ : ∃ n, IsLeast {n | n ≤ program.length ∧ ¬ OnTape program cells n} n := ⟨_, isLeast_csInf hne⟩
  cases n with
  | zero =>
    have hstart : OnTape program cells 0 := by constructor <;> simp [hcells]
    exact absurd hstart hleast.1.2
  | succ k =>
    refine ⟨k, hleast, fun n hn => ?_⟩
    by_contra hoff
    have hle : k + 1 ≤ n := hleast.2 ⟨hn.trans (Nat.le_of_succ_le hleast.1.1), hoff⟩
    omega

end Text

/-! ## One instruction -/

namespace Sums

variable {program : List Char} {cells k : Nat} {s : Store} {x : Char}

theorem blank (program : List Char) (cells : Nat) : Sums program cells 0 (.blank cells) where
  size := Store.size_blank cells
  pointer := by simp [Store.blank]
  cell c hc := ⟨0, by simp [Store.blank, hc], by simp⟩

theorem move (h : Sums program cells k s) (hx : program[k]? = some x) (hweight : weight x = 0) {p : Nat}
    (hp : (p : ℤ) = s.pointer + shift x) : Sums program cells (k + 1) (s.apply (.move p)) where
  size := h.size
  pointer := by
    rw [drift_succ hx, ← h.pointer]
    exact hp
  cell c hc := by
    rw [net_succ hx, hweight, ite_self, add_zero]
    exact h.cell c hc

/-- counting changes the cell under the pointer, modulo 256, and no other -/
theorem count (h : Sums program cells k s) (hx : program[k]? = some x) (hshift : shift x = 0)
    (hon : OnTape program cells k) {b : UInt8} (hb : (b.toNat : ℤ) = (s.cell.toNat + weight x) % 256) :
    Sums program cells (k + 1) (s.setCell b) where
  size := (Store.size_setCell s b).trans h.size
  pointer := by
    rw [drift_succ hx, hshift, add_zero]
    exact h.pointer
  cell c hc := by
    have hlt : s.pointer < s.cells.size := by
      have hpointer := h.pointer
      have hsize := h.size
      have hhigh := hon.2
      omega
    obtain ⟨old, hold, hsum⟩ := h.cell c hc
    rw [net_succ hx, ← h.pointer]
    by_cases hcell : c = s.pointer
    · subst hcell
      have hread : s.cell = old := by rw [Store.cell, Array.getD_eq_getD_getElem?, hold, Option.getD_some]
      refine ⟨b, by simp [Store.setCell, hlt], ?_⟩
      rw [hread] at hb
      rw [if_pos rfl]
      omega
    · refine ⟨old, ?_, ?_⟩
      · rw [Store.setCell, Array.getElem?_setIfInBounds_ne (Ne.symm hcell)]
        exact hold
      · rw [if_neg (by omega), add_zero]
        exact hsum

/-- what a command comes to at position `k`: the sums of one character more, or the edge that it would leave by -/
inductive Comes (program : List Char) (cells k : Nat) (s : Store) : Except RunError Action → Prop where
  | on {a : Action} (hon : OnTape program cells (k + 1)) (hsilent : a.emitted = none) (hnext : a.next k = k + 1)
      (hsums : Sums program cells (k + 1) (s.apply a)) : Comes program cells k s (.ok a)
  | left (hdrift : drift program (k + 1) = -1) : Comes program cells k s (.error (.offTape .left k s.pointer))
  | right (hdrift : drift program (k + 1) = cells) : Comes program cells k s (.error (.offTape .right k s.pointer))

/-- **Every command of a straight program keeps the sums**, unless it would leave the tape. -/
theorem step (h : Sums program cells k s) (hx : program[k]? = some x) (hon : OnTape program cells k)
    (hstraight : Straight program) (j : Job) : Comes program cells k s (j.decide s k (.ofChar x)) := by
  have hsize := h.size
  have hpointer := h.pointer
  have hdrift := drift_succ hx
  obtain ⟨hlow, hhigh⟩ := hon
  rcases hstraight x (List.mem_of_getElem? hx) with rfl | rfl | rfl | rfl
  · change Comes program cells k s (if s.pointer + 1 < s.cells.size then _ else _)
    have hshift : shift '>' = 1 := rfl
    split_ifs with hroom
    · exact .on ⟨by omega, by omega⟩ rfl rfl (h.move hx rfl (by rw [hshift]; push_cast; rfl))
    · exact .right (by omega)
  · change Comes program cells k s (if 0 < s.pointer then _ else _)
    have hshift : shift '<' = -1 := rfl
    split_ifs with hroom
    · exact .on ⟨by omega, by omega⟩ rfl rfl (h.move hx rfl (by omega))
    · exact .left (by omega)
  · have hshift : shift '+' = 0 := rfl
    have hweight : weight '+' = 1 := rfl
    refine .on ⟨by omega, by omega⟩ rfl rfl (h.count hx rfl ⟨hlow, hhigh⟩ ?_)
    rw [UInt8.toNat_add, hweight]
    simp
  · have hshift : shift '-' = 0 := rfl
    have hweight : weight '-' = -1 := rfl
    refine .on ⟨by omega, by omega⟩ rfl rfl (h.count hx rfl ⟨hlow, hhigh⟩ ?_)
    rw [UInt8.toNat_sub, hweight]
    simp
    omega

end Sums

/-! ## Whole runs -/

/-- how the run of a straight program ends, and after how many instructions -/
inductive EndsStraight {σ : Type} (program : List Char) (cells : Nat) (f : Finished σ) : Nat → Prop where
  /-- the drift never leaves the tape, and the program is run to its end -/
  | completed (hon : ∀ k ≤ program.length, OnTape program cells k)
      (houtcome : f.outcome = .ok ⟨program.length, f.interpreter.store.pointer⟩)
      (hsums : Sums program cells program.length f.interpreter.store) : EndsStraight program cells f program.length
  /-- `k + 1` characters are the fewest that lead off the tape; the last of them, at position `k`, is refused -/
  | offTape {k : Nat} {edge : Edge} (hleast : IsLeast {n | n ≤ program.length ∧ ¬ OnTape program cells n} (k + 1))
      (hedge : edge = .left ∧ drift program (k + 1) = -1 ∨ edge = .right ∧ drift program (k + 1) = cells)
      (houtcome : f.outcome = .error (.offTape edge k f.interpreter.store.pointer))
      (hsums : Sums program cells k f.interpreter.store) : EndsStraight program cells f k

namespace Interpreter

open Config

variable {σ : Type} [Sink σ] {program input : List Char} {limits : Limits} {i : Interpreter} {m : Matching} {sink : σ}
  {journal : Journal} {cells k : Nat}

/-- after `k` instructions a run stands at position `k`, on the store of the sums, with nothing written -/
structure AddsUp (i : Interpreter) (program : List Char) (cells : Nat) (sink : σ) (journal : Journal) (k : Nat)
    (c : Config) : Prop where
  reaches : i.Reaches k .output sink journal c sink
  ip : c.ip = k
  sums : Sums program cells k c.store

theorem exists_launched_straight (h : Straight program) (hi : load program input limits = .ok i) (sink : σ)
    (journal : Journal) : ∃ m, i.Launched .output sink journal m sink := by
  have hbalanced : Balanced i.program.toList := by
    rw [load_eq_ok hi]
    exact balanced_of_straight h
  obtain ⟨m, hm, -⟩ := Matching.exists_of_balanced hbalanced
  exact ⟨m, launched_output hm⟩

section Run

variable {c : Config} (hi : load program input limits = .ok i) (hl : i.Launched .output sink journal m sink)

include hi hl

theorem addsUp_start : i.AddsUp program limits.tapeLength sink journal 0 (i.start journal) where
  reaches := hl.reaches_zero
  ip := rfl
  sums := by
    change Sums program limits.tapeLength 0 (.blank i.store.cells.size)
    rw [size_of_load hi]
    exact .blank program limits.tapeLength

/-- behind its last character the run has finished -/
theorem AddsUp.exists_completed (h : i.AddsUp program cells sink journal program.length c)
    (hon : ∀ k ≤ program.length, OnTape program cells k) :
    ∃ f, i.EndsAfter program.length .output sink journal f ∧ f.sink = sink ∧
      EndsStraight program cells f program.length := by
  have hend : (i.job m .output).program[c.ip]? = none := by
    rw [h.ip]
    change i.program[program.length]? = none
    rw [getElem?_program_of_load hi, List.getElem?_length]
    rfl
  have hlast := hl.endsAfter h.reaches (advance_of_finished (turn_of_end hend) sink)
  rw [hl.steps_eq h.reaches] at hlast
  exact ⟨_, hlast, rfl, .completed hon rfl h.sums⟩

variable (hstraight : Straight program) (hsteps : NoLess program.length limits.steps)

include hstraight hsteps

/-- before that, the turn at position `k` is what the command there comes to -/
theorem AddsUp.exists_turn (h : i.AddsUp program cells sink journal k c) (hk : k < program.length)
    (hon : OnTape program cells k) :
    ∃ command r, Sums.Comes program cells k c.store r ∧ c.turn (i.job m .output) = match r with
      | .error e => .refused e
      | .ok a => .performed command a := by
  have hx : program[k]? = some program[k] := List.getElem?_eq_getElem hk
  have hcommand : i.program[c.ip]? = some (.ofChar program[k]) := by
    rw [h.ip, getElem?_program_of_load hi, hx]
    rfl
  have hallowed : ∀ l ∈ i.stepLimit, k < l := by
    intro l hlimit
    rw [load_eq_ok hi] at hlimit
    exact Nat.lt_of_lt_of_le hk (hsteps l hlimit)
  have ht := hl.turn_eq ⟨h.reaches, hcommand, hallowed⟩
  rw [h.ip] at ht
  exact ⟨_, _, h.sums.step hx hon hstraight (i.job m .output), ht⟩

/-- **The run goes on as long as the text stays on the tape.** -/
theorem AddsUp.exists_succ (h : i.AddsUp program cells sink journal k c) (hk : k < program.length)
    (hon : OnTape program cells k) (hnext : OnTape program cells (k + 1)) :
    ∃ d, i.AddsUp program cells sink journal (k + 1) d := by
  obtain ⟨command, r, hcomes, ht⟩ := h.exists_turn hi hl hstraight hsteps hk hon
  obtain ⟨hlow, hhigh⟩ := hnext
  cases hcomes with
  | left hdrift => omega
  | right hdrift => omega
  | @on a _ hsilent hip hsums =>
    have hadv : c.advance (i.job m .output) sink = .running (c.apply a) sink := by
      rw [advance_eq, ht]
      exact Config.perform_silent hsilent c command sink
    refine ⟨c.apply a, (hl.runFor_succ_of_reaches h.reaches).trans hadv, ?_, hsums⟩
    change a.next c.ip = k + 1
    rw [h.ip, hip]

/-- **As far as the text stays on the tape, the run adds it up.** -/
theorem exists_addsUp (hk : k ≤ program.length) (hon : ∀ n ≤ k, OnTape program limits.tapeLength n) :
    ∃ c, i.AddsUp program limits.tapeLength sink journal k c := by
  induction k with
  | zero => exact ⟨_, addsUp_start hi hl⟩
  | succ k ih =>
    obtain ⟨c, hc⟩ := ih (Nat.le_of_succ_le hk) fun n hn => hon n (Nat.le_succ_of_le hn)
    exact hc.exists_succ hi hl hstraight hsteps hk (hon k k.le_succ) (hon (k + 1) le_rfl)

theorem AddsUp.exists_offTape (h : i.AddsUp program cells sink journal k c) (hon : OnTape program cells k)
    (hleast : IsLeast {n | n ≤ program.length ∧ ¬ OnTape program cells n} (k + 1)) :
    ∃ f, i.EndsAfter k .output sink journal f ∧ f.sink = sink ∧ EndsStraight program cells f k := by
  obtain ⟨hk, hoff⟩ := hleast.1
  obtain ⟨command, r, hcomes, ht⟩ := h.exists_turn hi hl hstraight hsteps hk hon
  cases hcomes with
  | on hnext => exact absurd hnext hoff
  | left hdrift =>
    have hlast := hl.endsAfter h.reaches (advance_of_refused ht sink)
    exact ⟨_, hlast, rfl, .offTape hleast (Or.inl ⟨rfl, hdrift⟩) rfl h.sums⟩
  | right hdrift =>
    have hlast := hl.endsAfter h.reaches (advance_of_refused ht sink)
    exact ⟨_, hlast, rfl, .offTape hleast (Or.inr ⟨rfl, hdrift⟩) rfl h.sums⟩

end Run

/-- **A program without loops, input and output means what its text adds up to.** Loaded with a tape of any length, under
a limit that allows for its characters, it ends with nothing written. If the drift of the text never leaves the tape,
all of it is executed, the pointer stands where the text has drifted, and every cell holds its increments less its
decrements modulo 256. If it does, the first character that leads off the tape is refused, with the sums of the
characters before it in the cells. -/
theorem straight_program_adds_up (hstraight : Straight program) (input : List Char) {limits : Limits}
    (hsteps : NoLess program.length limits.steps) (sink : σ) (journal : Journal) :
    (limits.tapeLength ≤ largestTape → ∃ i, load program input limits = .ok i) ∧
    ∀ i, load program input limits = .ok i →
      ∃ n f, i.EndsAfter n .output sink journal f ∧ f.sink = sink ∧ EndsStraight program limits.tapeLength f n := by
  refine ⟨fun hcells => ⟨_, if_pos hcells⟩, fun i hi => ?_⟩
  obtain ⟨m, hl⟩ := exists_launched_straight hstraight hi sink journal
  by_cases hall : ∀ k ≤ program.length, OnTape program limits.tapeLength k
  · obtain ⟨c, hc⟩ := exists_addsUp hi hl hstraight hsteps le_rfl hall
    obtain ⟨f, hf⟩ := hc.exists_completed hi hl hall
    exact ⟨program.length, f, hf⟩
  · obtain ⟨k, hleast, hon⟩ := exists_first_offTape limits.tapeLength_pos hall
    obtain ⟨c, hc⟩ := exists_addsUp hi hl hstraight hsteps (Nat.le_of_succ_le hleast.1.1) hon
    obtain ⟨f, hf⟩ := hc.exists_offTape hi hl hstraight hsteps (hon k le_rfl) hleast
    exact ⟨k, f, hf⟩

/-- on two cells: the second one is counted down from zero, and the last move would leave by the left edge -/
theorem straight_program_adds_up_left_edge :
    ∃ i f, load ">-<<".toList [] ⟨some 4, some ⟨2, by decide⟩⟩ = .ok i ∧
      i.EndsAfter 3 .output Quota.unlimited .silent f ∧ f.sink = Quota.unlimited ∧ EndsStraight ">-<<".toList 2 f 3 ∧
      f.outcome = .error (.offTape .left 3 0) ∧ f.interpreter.store.cells = #[0, 255] := by
  have hstraight : Straight ">-<<".toList := by simp [Straight]
  have hsteps : NoLess ">-<<".toList.length (Limits.steps ⟨some 4, some ⟨2, by decide⟩⟩) := by
    rintro _ ⟨⟩
    exact le_rfl
  have hcells : Limits.tapeLength ⟨some 4, some ⟨2, by decide⟩⟩ ≤ largestTape := by decide
  obtain ⟨hload, hruns⟩ := straight_program_adds_up hstraight [] hsteps Quota.unlimited .silent
  obtain ⟨i, hi⟩ := hload hcells
  obtain ⟨n, f, hend, hsink, hends⟩ := hruns i hi
  obtain ⟨g, hg, ho, hstored⟩ : ∃ g, i.run 4 .output Quota.unlimited .silent = some g ∧
      g.outcome = .error (.offTape .left 3 0) ∧ g.interpreter.store.cells = #[0, 255] := by
    rw [load_eq_ok hi]
    exact ⟨_, rfl, rfl, rfl⟩
  obtain rfl := run_unique hend.run hg
  have hthree : n = 3 := by
    cases hends with
    | completed _ houtcome =>
      rw [houtcome] at ho
      cases ho
    | offTape _ _ houtcome => exact (RunError.offTape.inj (Except.error.inj (houtcome.symm.trans ho))).2.1
  subst hthree
  exact ⟨i, f, hi, hend, hsink, hends, ho, hstored⟩

end Interpreter

end Brainfuck
