/-
A longer tape. A machine on a tape with more cells does what the machine on the shorter tape does, and the cells behind
stay zero (`Widened.runFor`), up to the one thing that can tell the tapes apart: a move to the right in the last cell of
the shorter one, which the longer tape lets through.

Main statement: `longer_tape_keeps_run`, for every loaded program and any sink:
- a run that does not leave its tape on the right is the same run on a longer tape, with zeros behind;
- one that does stands in its last cell, and on a longer tape it comes to the same instruction and moves on.
-/
import Mathlib.Tactic
import Brainfuck.Proofs.Execution.Trace
import Brainfuck.Proofs.Safety.Bounds

namespace Brainfuck

/-! ## Stores on a longer tape -/

namespace Store

/-- the same store with `extra` more cells, all zero -/
def widened (extra : Nat) (s : Store) : Store := { s with cells := s.cells ++ Array.replicate extra 0 }

variable {extra : Nat} {s : Store}

theorem blank_widened (cells extra : Nat) : (blank cells).widened extra = blank (cells + extra) := by
  simp only [blank, widened, Array.replicate_append_replicate]

@[simp] theorem size_widened : (s.widened extra).cells.size = s.cells.size + extra := by simp [widened]

@[simp] theorem pointer_widened : (s.widened extra).pointer = s.pointer := rfl

/-- the cell under the pointer is the same: a cell behind the shorter tape is read as zero there -/
@[simp] theorem cell_widened : (s.widened extra).cell = s.cell := by
  simp only [cell, widened, Array.getD_eq_getD_getElem?, Array.getElem?_append]
  split
  · rfl
  · rename_i hge
    rw [Array.getElem?_eq_none (Nat.le_of_not_lt hge), Array.getElem?_replicate]
    split <;> rfl

theorem setCell_widened (h : s.pointer < s.cells.size) (b : UInt8) :
    (s.widened extra).setCell b = (s.setCell b).widened extra := by
  simp only [setCell, widened, Array.setIfInBounds_append_left h]

theorem apply_widened (h : s.pointer < s.cells.size) (a : Action) :
    (s.widened extra).apply a = (s.apply a).widened extra := by
  cases a with
  | increment => simp only [apply, cell_widened, setCell_widened h]
  | decrement => simp only [apply, cell_widened, setCell_widened h]
  | read c => simp only [apply, setCell_widened h]; rfl
  | _ => rfl

end Store

/-- only a move to the right in the last cell is decided in another way on a longer tape -/
theorem Job.decide_widened (j : Job) (s : Store) (extra ip : Nat) (command : Command) :
    j.decide (s.widened extra) ip command = j.decide s ip command ∨
      j.decide s ip command = .error (.offTape .right ip s.pointer) := by
  cases command with
  | moveRight =>
    by_cases h : s.pointer + 1 < s.cells.size
    · left
      simp only [decide, Store.size_widened, Store.pointer_widened, if_pos h, if_pos (Nat.lt_add_right extra h)]
    · exact Or.inr (if_neg h)
  | loopStart => exact Or.inl (by simp only [decide, Store.cell_widened])
  | loopEnd => exact Or.inl (by simp only [decide, Store.cell_widened])
  | write => exact Or.inl (by simp only [decide, Store.cell_widened])
  | _ => exact Or.inl rfl

/-! ## Runs on a longer tape -/

namespace Config

/-- `d` is `c` on a tape with `extra` more cells -/
structure Widened (extra : Nat) (c d : Config) : Prop where
  store : d.store = c.store.widened extra
  ip : d.ip = c.ip
  steps : d.steps = c.steps
  onTape : c.store.pointer < c.store.cells.size

/-- and on the same sink -/
def WidenedOn {σ : Type} (extra : Nat) (c : Config) (s : σ) (d : Config) (t : σ) : Prop := Widened extra c d ∧ s = t

variable {j : Job} {extra : Nat} {c d : Config}

theorem Widened.apply (h : Widened extra c d) {command : Command} {a : Action} (hd : j.Decides c.store c.ip command a) :
    Widened extra (c.apply a) (d.apply a) where
  store := by simp only [Config.apply, h.store, Store.apply_widened h.onTape]
  ip := by simp only [Config.apply, h.ip]
  steps := by simp only [Config.apply, h.steps]
  onTape := by
    simp only [Config.apply, Store.size_apply]
    exact hd.pointer_lt h.onTape

theorem Widened.turn (h : Widened extra c d) (hno : c.turn j ≠ .refused (.offTape .right c.ip c.store.pointer)) :
    c.turn j = d.turn j := by
  refine turn_congr (by rw [h.ip]) (by rw [h.steps]) ?_
  intro command hcommand hlimit
  rw [h.store, h.ip]
  rcases j.decide_widened c.store extra c.ip command with heq | herror
  · exact heq.symm
  · rw [turn_of_command hcommand hlimit, herror] at hno
    exact absurd rfl hno

variable {σ : Type}

theorem Widened.afterWrite (h : Widened extra c d) (ip : Nat) (s : σ) (e : Option DeviceError) :
    Progress.Together (WidenedOn extra) (c.afterWrite ip s e) (d.afterWrite ip s e) := by
  cases e with
  | none => exact .running ⟨h, rfl⟩
  | some e => exact .ended _ ⟨h, rfl⟩

variable [Sink σ]

theorem Widened.advance (h : Widened extra c d) (hview : j.view = .output)
    (hno : c.turn j ≠ .refused (.offTape .right c.ip c.store.pointer)) (s : σ) :
    Progress.Together (WidenedOn extra) (c.advance j s) (d.advance j s) := by
  rw [advance_eq, advance_eq, ← h.turn hno, hview]
  cases ht : c.turn j with
  | finished =>
    simp only [h.steps, h.store]
    exact .ended _ ⟨⟨h.store, h.ip, h.steps, h.onTape⟩, rfl⟩
  | limitReached limit => exact .ended _ ⟨⟨h.store, h.ip, h.steps, h.onTape⟩, rfl⟩
  | refused e => exact .ended _ ⟨h, rfl⟩
  | performed command a =>
    have happly := h.apply (Job.decides_of_decide (turn_eq_performed ht).2.2)
    simp only [perform]
    cases a.emitted with
    | none => exact .running ⟨happly, rfl⟩
    | some b =>
      simp only [h.ip]
      exact happly.afterWrite _ _ _

/-- **Both tapes are run on alike**, as long as the run on the shorter one does not leave it on the right. -/
theorem Widened.runFor (h : Widened extra c d) (hview : j.view = .output) {s : σ} {n : Nat}
    (hno : ∀ m < n, ∀ c' s', c.runFor j m s = .running c' s' →
      c'.turn j ≠ .refused (.offTape .right c'.ip c'.store.pointer)) :
    Progress.Together (WidenedOn extra) (c.runFor j n s) (d.runFor j n s) := by
  refine runFor_together_on_way ?_ ⟨h, rfl⟩
  rintro m hm c' s' d' _ hrun ⟨hw, rfl⟩
  exact hw.advance hview (hno m hm c' s' hrun) s'

end Config

/-! ## Loaded programs -/

namespace Interpreter

open Config Sink

variable {σ : Type} [Sink σ]

/-- `g` is the end `f`, on a tape with `extra` more cells -/
structure SameOnLonger (extra : Nat) (f g : Finished σ) : Prop where
  outcome : g.outcome = f.outcome
  sink : g.sink = f.sink
  store : g.interpreter.store = f.interpreter.store.widened extra

/-- where the run of `i` ended with `f`, off the right end of its tape, the run of `i'` on a tape with `extra` more
cells goes on -/
structure GoesOn (i i' : Interpreter) (extra : Nat) (sink : σ) (journal : Journal) (f : Finished σ) (n : Nat)
    (c d d' : Config) : Prop where
  /-- after `n` instructions the run of `i` ended, at `c` -/
  stopped : i.EndsAfter n .output sink journal f
  stood : i.Dispatches n .output sink journal .moveRight c f.sink
  left : f.interpreter.store = c.store
  /-- the other one comes to the same instruction after as many steps, with the same output and zeros behind -/
  dispatched : i'.Dispatches n .output sink journal .moveRight d f.sink
  ip : d.ip = c.ip
  store : d.store = c.store.widened extra
  /-- and moves on -/
  moved : i'.Reaches (n + 1) .output sink journal d' f.sink
  pointer : d'.store = { d.store with pointer := c.store.pointer + 1 }

variable {i : Interpreter} {sink : σ} {journal : Journal} {extra : Nat}

/-- the same interpreter on a tape with `extra` more cells -/
def lengthened (i : Interpreter) (extra : Nat) : Interpreter := { i with store := .blank (i.store.cells.size + extra) }

theorem freshStore_lengthened (i : Interpreter) (extra : Nat) :
    (i.lengthened extra).freshStore = i.freshStore.widened extra := by
  rw [freshStore, freshStore, Store.blank_widened, lengthened, Store.size_blank]

theorem widened_start (hpos : 1 ≤ i.store.cells.size) (extra : Nat) (journal : Journal) :
    Widened extra (i.start journal) ((i.lengthened extra).start journal) :=
  ⟨freshStore_lengthened i extra, rfl, rfl, by simp only [start, freshStore, Store.size_blank]; exact hpos⟩

/-- a run that is not refused a move to the right comes to the same end -/
theorem exists_sameOnLonger (hpos : 1 ≤ i.store.cells.size) {fuel : Nat} {f : Finished σ}
    (hf : i.run fuel .output sink journal = some f) (hfits : ∀ ip p, f.outcome ≠ .error (.offTape .right ip p)) :
    ∃ g, (i.lengthened extra).run fuel .output sink journal = some g ∧ SameOnLonger extra f g := by
  cases hm : Matching.ofProgram i.program with
  | error e =>
    rw [run_of_mismatch hm] at hf
    obtain rfl := Option.some.inj hf
    exact ⟨_, run_of_mismatch (i := i.lengthened extra) hm fuel .output sink journal, rfl, rfl,
      freshStore_lengthened i extra⟩
  | ok m =>
    have hl : i.Launched .output sink journal m sink := launched_output hm
    have hl' : (i.lengthened extra).Launched .output sink journal m sink := launched_output hm
    obtain ⟨c, he⟩ := exists_endsIn hf
    have hallowed : ∀ k < fuel, ∀ c' s', (i.start journal).runFor (i.job m .output) k sink = .running c' s' →
        c'.turn (i.job m .output) ≠ .refused (.offTape .right c'.ip c'.store.pointer) := by
      intro k _ c' s' hrun ht
      have hend := (hl.endsAfter (hl.reaches_iff.2 hrun) (advance_of_refused ht s')).run
      obtain rfl := run_unique hend hf
      exact hfits _ _ rfl
    have htog := (widened_start hpos extra journal).runFor rfl hallowed
    rw [← hl.runFor_eq, he.progress] at htog
    obtain ⟨d, t, hd, hw, rfl⟩ := htog.exists_ended
    refine ⟨_, (endsIn_of_progress ((hl'.runFor_eq fuel).trans hd)).run, rfl, rfl, ?_⟩
    rw [he.interpreter]
    exact hw.store

theorem exists_reaches_lengthened (hpos : 1 ≤ i.store.cells.size) {n : Nat} {c : Config} {s : σ}
    (h : i.Reaches n .output sink journal c s) (extra : Nat) :
    ∃ d, (i.lengthened extra).Reaches n .output sink journal d s ∧ Widened extra c d := by
  obtain ⟨m, s₀, hm⟩ := h.exists_launched
  have hl : i.Launched .output sink journal m sink := launched_output hm.matched
  have hl' : (i.lengthened extra).Launched .output sink journal m sink := launched_output hm.matched
  have hrun := hl.reaches_iff.1 h
  -- a run that came so far was refused nothing before
  have hallowed : ∀ k < n, ∀ c' s', (i.start journal).runFor (i.job m .output) k sink = .running c' s' →
      c'.turn (i.job m .output) ≠ .refused (.offTape .right c'.ip c'.store.pointer) := by
    intro k hk c' s' hk'
    exact not_refused_of_running hrun hk hk' _
  have htog := (widened_start hpos extra journal).runFor rfl hallowed
  rw [hrun] at htog
  obtain ⟨d, t, hrun', hw, rfl⟩ := htog.exists_running
  exact ⟨d, hl'.reaches_iff.2 hrun', hw⟩

/-- a run that is refused a move to the right makes that move on a longer tape -/
theorem exists_goesOn (hpos : 1 ≤ i.store.cells.size) {fuel : Nat} {f : Finished σ} {ip p : Nat}
    (hf : i.run fuel .output sink journal = some f) (ho : f.outcome = .error (.offTape .right ip p)) :
    p + 1 = i.store.cells.size ∧ (0 < extra →
      ∃ n c d d', c.ip = ip ∧ c.store.pointer = p ∧ i.GoesOn (i.lengthened extra) extra sink journal f n c d d') := by
  obtain ⟨n, command, c, m, hend, hd, hrefuses, hi⟩ := exists_refused hf ho trivial
  cases hrefuses with
  | moveRight hge =>
    have hbounds := inBounds_of_reaches hpos hd.reaches
    have hsize := hbounds.size
    have hlt := hbounds.pointer
    refine ⟨by omega, fun hextra => ?_⟩
    obtain ⟨d, hreaches, hw⟩ := exists_reaches_lengthened hpos hd.reaches extra
    have hdispatches : (i.lengthened extra).Dispatches n .output sink journal .moveRight d f.sink :=
      ⟨hreaches, by rw [hw.ip]; exact hd.command, hd.allowed⟩
    obtain ⟨m', s₀, hl⟩ := hreaches.exists_launched
    have hroom : d.store.pointer + 1 < d.store.cells.size := by
      rw [hw.store, Store.size_widened]
      exact Nat.lt_of_le_of_lt (Nat.succ_le_of_lt hw.onTape) (Nat.lt_add_of_pos_right hextra)
    have ht : d.turn ((i.lengthened extra).job m' .output) = .performed .moveRight (.move (d.store.pointer + 1)) := by
      rw [hl.turn_eq hdispatches]
      simp only [Job.decide, if_pos hroom]
    have hadv : d.advance ((i.lengthened extra).job m' .output) f.sink =
        .running (d.apply (.move (d.store.pointer + 1))) f.sink := by
      rw [advance_eq, ht]
      rfl
    have hpointer : d.store.pointer = c.store.pointer := by rw [hw.store]; rfl
    refine ⟨n, c, d, _, rfl, rfl, hend, hd, by rw [hi], hdispatches, hw.ip, hw.store,
      (hl.runFor_succ_of_reaches hreaches).trans hadv, ?_⟩
    rw [← hpointer]
    rfl

theorem eq_lengthened {program input : List Char} {limits limits' : Limits} {i i' : Interpreter}
    (hi : load program input limits = .ok i) (hi' : load program input limits' = .ok i')
    (hsteps : limits'.steps = limits.steps) (hle : limits.tapeLength ≤ limits'.tapeLength) :
    i' = i.lengthened (limits'.tapeLength - limits.tapeLength) := by
  rw [load_eq_ok hi, load_eq_ok hi', lengthened, hsteps]
  simp only [Store.size_blank, Nat.add_sub_of_le hle]

/-- **A longer tape keeps the runs that fit.** A run that ends in any way but off the right end of its tape ends in the
same way on a tape with more cells, with the same output and the same store, zeros behind. One that would leave its tape
on the right stands in the last cell, and on a tape with more cells it comes to the same instruction and goes on. -/
theorem longer_tape_keeps_run {program input : List Char} {limits limits' : Limits} {i i' : Interpreter}
    (hi : load program input limits = .ok i) (hi' : load program input limits' = .ok i')
    (hsteps : limits'.steps = limits.steps) (hle : limits.tapeLength ≤ limits'.tapeLength) (sink : σ)
    (journal : Journal) {fuel : Nat} {f : Finished σ} (hf : i.run fuel .output sink journal = some f) :
    ((∀ ip p, f.outcome ≠ .error (.offTape .right ip p)) →
      ∃ g, i'.run fuel .output sink journal = some g ∧
        SameOnLonger (limits'.tapeLength - limits.tapeLength) f g) ∧
    ∀ ip p, f.outcome = .error (.offTape .right ip p) →
      p + 1 = limits.tapeLength ∧ (limits.tapeLength < limits'.tapeLength →
        ∃ n c d d', c.ip = ip ∧ c.store.pointer = p ∧
          i.GoesOn i' (limits'.tapeLength - limits.tapeLength) sink journal f n c d d') := by
  obtain rfl := eq_lengthened hi hi' hsteps hle
  have hpos := cells_pos_of_load hi
  constructor
  · intro hfits
    exact exists_sameOnLonger hpos hf hfits
  · intro ip p ho
    obtain ⟨hlast, hon⟩ := exists_goesOn hpos hf ho
    exact ⟨hlast.trans (size_of_load hi), fun hlt => hon (Nat.sub_pos_of_lt hlt)⟩

/-- two moves to the right, on a tape of two cells and on one of three -/
theorem longer_tape_keeps_run_last_cell :
    ∃ i i' f, load "+.>>".toList [] ⟨some 4, some ⟨2, by decide⟩⟩ = .ok i ∧
      load "+.>>".toList [] ⟨some 4, some ⟨3, by decide⟩⟩ = .ok i' ∧
      i.run 4 .output Quota.unlimited .silent = some f ∧ f.outcome = .error (.offTape .right 3 1) ∧
      ∃ n c d d', c.ip = 3 ∧ c.store.pointer = 1 ∧ i.GoesOn i' 1 Quota.unlimited .silent f n c d d' := by
  obtain ⟨i, hi⟩ : ∃ i, load "+.>>".toList [] ⟨some 4, some ⟨2, by decide⟩⟩ = .ok i := ⟨_, rfl⟩
  obtain ⟨i', hi'⟩ : ∃ i', load "+.>>".toList [] ⟨some 4, some ⟨3, by decide⟩⟩ = .ok i' := ⟨_, rfl⟩
  obtain ⟨f, hf, ho⟩ : ∃ f, i.run 4 .output Quota.unlimited .silent = some f ∧
      f.outcome = .error (.offTape .right 3 1) := by
    rw [load_eq_ok hi]
    exact ⟨_, rfl, rfl⟩
  have hkeeps := longer_tape_keeps_run hi hi' rfl (by decide) Quota.unlimited .silent hf
  exact ⟨i, i', f, hi, hi', hf, ho, (hkeeps.2 3 1 ho).2 (by decide)⟩

end Interpreter

end Brainfuck
