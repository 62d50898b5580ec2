/-
One program behind another. The table of two balanced texts put together is the first one's table and behind the seam
the second one's, moved by the length of the first; no jump crosses the seam. So the first text runs as it would by
itself, up to the seam (`running_front`, `ended_front`), and from there the second text runs as by itself, from
whatever store the first one left, its positions moved and its steps counted on (`runFor_moved`).

Main statement: `run_of_append`. An error of the first text is the error of both, a first text that does not end keeps
both from ending, and one that ends well hands over its store and its sink at the seam. A loop in front of a program,
which is skipped since the tape is blank, costs one step and moves the positions of the program.
-/
import Mathlib.Tactic
import Brainfuck.Proofs.Execution.StepLimit
import Brainfuck.Proofs.Safety.Bounds

namespace Brainfuck

/-! ## The table of two texts -/

namespace Matching.Correct

variable {p q : List Command} {m mp mq : Matching}

theorem partner_of_closes {cs : List Command} (h : m.Correct cs) {i j : Nat} (hc : Closes cs i j) :
    m.partner i = j ∧ m.partner j = i := by
  have hi : m.partner i = j := (h.starts i hc.start).unique hc
  exact ⟨hi, by rw [← hi]; exact h.involutive i⟩

/-- in front of the seam the table is the first text's -/
theorem partner_front (h : m.Correct (p ++ q)) (hp : mp.Correct p) {k : Nat} (hk : k < p.length) :
    m.partner k = mp.partner k := by
  have hget : p[k]? = some p[k] := List.getElem?_eq_getElem hk
  cases hc : p[k] with
  | loopStart => exact (h.partner_of_closes ((hp.starts k (hc ▸ hget)).append q)).1
  | loopEnd => exact (h.partner_of_closes ((hp.ends k (hc ▸ hget)).append q)).2
  | _ =>
    have hboth : (p ++ q)[k]? = some p[k] := (List.getElem?_append_left hk).trans hget
    rw [h.plain k _ hboth (by rw [hc]; rfl), hp.plain k _ hget (by rw [hc]; rfl)]

/-- behind the seam it is the second text's, moved -/
theorem partner_behind (h : m.Correct (p ++ q)) (hq : mq.Correct q) {k : Nat} (hk : k < q.length) :
    m.partner (p.length + k) = p.length + mq.partner k := by
  have hget : q[k]? = some q[k] := List.getElem?_eq_getElem hk
  have hmoved : ∀ {i j : Nat}, Closes q i j → Closes (p ++ q) (p.length + i) (p.length + j) := fun hc =>
    Closes.shift (by rwa [List.drop_left])
  cases hc : q[k] with
  | loopStart => exact (h.partner_of_closes (hmoved (hq.starts k (hc ▸ hget)))).1
  | loopEnd => exact (h.partner_of_closes (hmoved (hq.ends k (hc ▸ hget)))).2
  | _ =>
    have hboth : (p ++ q)[p.length + k]? = some q[k] := by
      rw [List.getElem?_append_right (Nat.le_add_right _ _), Nat.add_sub_cancel_left]
      exact hget
    rw [h.plain _ _ hboth (by rw [hc]; rfl), hq.plain k _ hget (by rw [hc]; rfl)]

end Matching.Correct

theorem Store.cell_blank (cells : Nat) : (blank cells).cell = 0 := by
  rw [blank, cell, Array.getD_eq_getD_getElem?, Array.getElem?_replicate]
  split <;> rfl

theorem Program.ofText_append (p q : List Char) :
    (Program.ofText (p ++ q)).toList = (Program.ofText p).toList ++ (Program.ofText q).toList := by
  simp [Program.ofText]

/-! ## What moves with a program -/

/-- an action of a program that stands behind `front` commands -/
def Action.moved (front : Nat) : Action → Action
  | .skipLoop close => .skipLoop (front + close)
  | .repeatLoop start => .repeatLoop (front + start)
  | a => a

/-- an error of a program that stands behind `front` commands -/
def RunError.moved (front : Nat) : RunError → RunError
  | .notACommand c ip => .notACommand c (front + ip)
  | .unmatchedBracket b ip => .unmatchedBracket b (front + ip)
  | .offTape e ip p => .offTape e (front + ip) p
  | .noInput ip => .noInput (front + ip)
  | .notWritten ip e => .notWritten (front + ip) e
  | .stepLimitReached limit => .stepLimitReached limit
  | .tapeTooLong cells => .tapeTooLong cells

/-- how a program ends that stands behind `front` commands and begins after `before` steps -/
def movedOutcome (front before : Nat) : Outcome → Outcome
  | .ok s => .ok ⟨before + s.steps, s.pointer⟩
  | .error e => .error (e.moved front)

/-- `d` is in the longer program where `c` is in its end: `front` positions further on, and `before` steps later -/
structure Config.Moved (front before : Nat) (c d : Config) : Prop where
  store : d.store = c.store
  ip : d.ip = front + c.ip
  steps : d.steps = before + c.steps

/-- both runs go on, or both end in the same way but for positions and steps; and they are on the same sink -/
inductive Progress.Moved {σ : Type} (front before : Nat) : Progress σ → Progress σ → Prop where
  | running {c d : Config} {s : σ} (h : c.Moved front before d) : Moved front before (.running c s) (.running d s)
  | ended {c d : Config} {s : σ} {o : Outcome} (h : c.Moved front before d) :
    Moved front before (.ended c s o) (.ended d s (movedOutcome front before o))

/-- `k` is a job whose program ends with the program of `j`, behind `front` commands; neither has a limit -/
structure Job.Moved (front : Nat) (j k : Job) : Prop where
  program : ∀ ip : Nat, k.program[front + ip]? = j.program[ip]?
  partner : ∀ ip < j.program.size, k.matching.partner (front + ip) = front + j.matching.partner ip
  input : k.input = j.input
  unlimited : j.stepLimit = none ∧ k.stepLimit = none
  view : j.view = .output ∧ k.view = .output

/-- `k` is a job whose program begins with the program of `j`; neither has a limit -/
structure Job.Front (j k : Job) : Prop where
  program : ∀ ip < j.program.size, k.program[ip]? = j.program[ip]?
  partner : ∀ ip < j.program.size, k.matching.partner ip = j.matching.partner ip
  input : k.input = j.input
  unlimited : j.stepLimit = none ∧ k.stepLimit = none
  view : j.view = k.view

theorem Job.limitReached?_of_unlimited {j : Job} (h : j.stepLimit = none) (steps : Nat) :
    j.limitReached? steps = none := by
  rw [limitReached?, h]
  rfl

/-! ## Behind the seam -/

section Behind

variable {σ : Type} {j k : Job} {front before : Nat} {c d : Config}

@[simp] theorem Action.emitted_moved (a : Action) : (a.moved front).emitted = a.emitted := by cases a <;> rfl

@[simp] theorem Store.apply_moved (s : Store) (a : Action) : s.apply (a.moved front) = s.apply a := by cases a <;> rfl

theorem Action.next_moved (a : Action) (ip : Nat) : (a.moved front).next (front + ip) = front + a.next ip := by
  cases a <;> simp only [moved, next] <;> omega

/-- a command decides on the same action, but for positions -/
theorem Job.Moved.decide (h : j.Moved front k) (s : Store) {ip : Nat} (hip : ip < j.program.size) (command : Command) :
    k.decide s (front + ip) command = match j.decide s ip command with
      | .ok a => .ok (a.moved front)
      | .error e => .error (e.moved front) := by
  cases command with
  | moveRight => simp only [Job.decide]; split <;> rfl
  | moveLeft => simp only [Job.decide]; split <;> rfl
  | read =>
    simp only [Job.decide, h.input]
    cases j.input[s.consumed]? <;> rfl
  | loopStart => simp only [Job.decide, h.partner ip hip]; split <;> rfl
  | loopEnd => simp only [Job.decide, h.partner ip hip]; split <;> rfl
  | _ => rfl

namespace Config

theorem Moved.apply (h : c.Moved front before d) (a : Action) :
    (c.apply a).Moved front before (d.apply (a.moved front)) where
  store := by simp only [Config.apply, Store.apply_moved, h.store]
  ip := by simp only [Config.apply, h.ip, Action.next_moved]
  steps := by simp only [Config.apply, h.steps, Nat.add_assoc]

theorem Moved.afterWrite (h : c.Moved front before d) (ip : Nat) (s : σ) (e : Option DeviceError) :
    Progress.Moved front before (c.afterWrite ip s e) (d.afterWrite (front + ip) s e) := by
  cases e with
  | none => exact .running h
  | some e => exact .ended (o := .error (.notWritten ip e)) h

variable [Sink σ]

theorem Moved.advance (h : c.Moved front before d) (hj : j.Moved front k) (s : σ) :
    Progress.Moved front before (c.advance j s) (d.advance k s) := by
  have hlimit := Job.limitReached?_of_unlimited hj.unlimited.1 c.steps
  have hlimit' := Job.limitReached?_of_unlimited hj.unlimited.2 d.steps
  have hprogram : k.program[d.ip]? = j.program[c.ip]? := by rw [h.ip]; exact hj.program c.ip
  cases hp : j.program[c.ip]? with
  | none =>
    rw [advance_of_finished (turn_of_end hp), advance_of_finished (turn_of_end (hprogram.trans hp)), h.store, h.steps]
    exact .ended (o := .ok ⟨c.steps, c.store.pointer⟩) ⟨h.store, h.ip, h.steps⟩
  | some command =>
    have hlt : c.ip < j.program.size := (Array.getElem?_eq_some_iff.1 hp).1
    have ht := turn_of_command hp hlimit
    have ht' := turn_of_command (hprogram.trans hp) hlimit'
    rw [h.store, h.ip, hj.decide c.store hlt] at ht'
    cases hd : j.decide c.store c.ip command with
    | error e =>
      rw [hd] at ht ht'
      rw [advance_of_refused ht, advance_of_refused ht']
      exact .ended (o := .error e) h
    | ok a =>
      rw [hd] at ht ht'
      rw [advance_eq, advance_eq, ht, ht']
      simp only [perform, hj.view.1, hj.view.2, Action.emitted_moved]
      cases a.emitted with
      | none => exact .running (h.apply a)
      | some b =>
        rw [h.ip]
        exact (h.apply a).afterWrite c.ip _ _

/-- **Behind the seam a program runs as by itself**, its positions moved and its steps counted on. -/
theorem runFor_moved (h : c.Moved front before d) (hj : j.Moved front k) (n : Nat) (s : σ) :
    Progress.Moved front before (c.runFor j n s) (d.runFor k n s) := by
  induction n generalizing c d s with
  | zero => exact .running h
  | succ n ih =>
    have hadv := h.advance hj s
    rw [runFor_succ, runFor_succ]
    generalize c.advance j s = x at hadv ⊢
    generalize d.advance k s = y at hadv ⊢
    cases hadv with
    | running h' => exact ih h' _
    | ended h' => exact .ended h'

end Config

end Behind

/-! ## In front of the seam -/

namespace Config

variable {σ : Type} [Sink σ] {j k : Job} {c d : Config}

/-- at a command of the first text the longer program has the same turn -/
theorem turn_front (hj : j.Front k) (h : c.Alike d) (hip : c.ip < j.program.size) : c.turn j = d.turn k := by
  refine turn_congr ?_ ?_ fun command _ _ => ?_
  · rw [← h.ip, hj.program c.ip hip]
  · rw [Job.limitReached?_of_unlimited hj.unlimited.1, Job.limitReached?_of_unlimited hj.unlimited.2]
  · rw [← h.store, ← h.ip]
    cases command <;> simp only [Job.decide, hj.input, hj.partner c.ip hip]

/-- **In front of the seam the longer program runs as the first text does**, which comes no further than the seam. -/
theorem running_front (hj : j.Front k) (hm : j.matching.Correct j.program.toList) (h : c.Alike d)
    (hip : c.ip ≤ j.program.size) {s s' : σ} {n : Nat} {c' : Config} (hrun : c.runFor j n s = .running c' s') :
    ∃ d', d.runFor k n s = .running d' s' ∧ c'.Alike d' ∧ c'.ip ≤ j.program.size := by
  induction n generalizing c d s with
  | zero =>
    cases hrun
    exact ⟨d, rfl, h, hip⟩
  | succ n ih =>
    rw [runFor_succ] at hrun
    cases ha : c.advance j s with
    | ended c₁ s₁ o =>
      rw [ha] at hrun
      cases hrun
    | running c₁ s₁ =>
      rw [ha] at hrun
      obtain ⟨command, a, ht, rfl⟩ := advance_running ha
      obtain ⟨hcommand, -, hdecide⟩ := turn_eq_performed ht
      have hlt : c.ip < j.program.size := (Array.getElem?_eq_some_iff.1 hcommand).1
      have hnext : (c.apply a).ip ≤ j.program.size := (Job.decides_of_decide hdecide).next_le hm hcommand
      have htog := h.advance hj.view (turn_front hj h hlt) s
      rw [ha] at htog
      obtain ⟨d₁, t, hb, halike, rfl⟩ := htog.exists_running
      obtain ⟨d', hd', hrest⟩ := ih halike hnext hrun
      exact ⟨d', (runFor_of_advance hb n).trans hd', hrest⟩

/-- where the first text ends with an error, so does the longer program; where it ends well, the longer program stands
at the seam -/
theorem ended_front (hj : j.Front k) (hm : j.matching.Correct j.program.toList) (h : c.Alike d)
    (hip : c.ip ≤ j.program.size) {s s' : σ} {n : Nat} {c' : Config} {o : Outcome}
    (hrun : c.runFor j n s = .ended c' s' o) :
    (∃ e d', o = .error e ∧ d.runFor k n s = .ended d' s' o ∧ c'.Alike d') ∨
      ∃ m d', o = .ok ⟨c.steps + m, c'.store.pointer⟩ ∧ d.runFor k m s = .running d' s' ∧ d'.store = c'.store ∧
        d'.ip = j.program.size ∧ d'.steps = c.steps + m := by
  obtain ⟨m, cm, t, hm', hrunm, hlast⟩ := exists_last_running hrun
  obtain ⟨dm, hdm, halike, hle⟩ := running_front hj hm h hip hrunm
  by_cases hlt : cm.ip < j.program.size
  · left
    have hcommand : j.program[cm.ip]? = some j.program[cm.ip] := Array.getElem?_eq_getElem hlt
    have htog := halike.advance hj.view (turn_front hj halike hlt) t
    rw [hlast] at htog
    obtain ⟨d₁, t₁, hb, halike', rfl⟩ := htog.exists_ended
    cases o with
    | ok summary =>
      have hend := at_end_of_ok hlast
      rw [hcommand] at hend
      cases hend
    | error e => exact ⟨e, d₁, rfl, runFor_mono ((runFor_succ_of_running hdm).trans hb) hm', halike'⟩
  · right
    have hend : j.program[cm.ip]? = none := Array.getElem?_eq_none (Nat.le_of_not_lt hlt)
    have hsteps : cm.steps = c.steps + m := steps_of_running hrunm
    rw [advance_of_finished (turn_of_end hend)] at hlast
    injection hlast with hc hs ho
    subst hc hs ho
    refine ⟨m, dm, ?_, hdm, halike.store.symm, ?_, ?_⟩
    · rw [← hsteps]
      rfl
    · rw [← halike.ip]
      omega
    · rw [← halike.steps, hsteps]

end Config

/-! ## Whole runs -/

namespace Interpreter

open Config

variable {σ : Type} [Sink σ]

/-- what a run of `p ++ q` comes to, told by the run of `p` and by the loop over `q` -/
structure InSequence (i : Interpreter) (p q : List Char) (sink : σ) (journal : Journal) : Prop where
  /-- an error in the first text is the error of both -/
  failed : ∀ n f e, (i.withProgram p).run n .output sink journal = some f → f.outcome = .error e →
    ∃ g, (i.withProgram (p ++ q)).run n .output sink journal = some g ∧ SameEnd g f
  /-- if the first does not end, neither do both -/
  endless : (∀ n, (i.withProgram p).run n .output sink journal = none) →
    ∀ n, (i.withProgram (p ++ q)).run n .output sink journal = none
  /-- after the steps of the first text both stand at the seam, with the store and the sink that it left; from there
  they do what the loop over the second does from that store -/
  handedOver : ∀ n f summary, (i.withProgram p).run n .output sink journal = some f → f.outcome = .ok summary →
    ∃ d m, (i.withProgram (p ++ q)).Reaches summary.steps .output sink journal d f.sink ∧
      d.store = f.interpreter.store ∧ d.ip = p.length ∧ d.steps = summary.steps ∧
      Matching.ofProgram (.ofText q) = .ok m ∧ ∀ (l : Nat) (journal' : Journal),
        Progress.Moved p.length summary.steps
          (Config.runFor ((i.withProgram q).job m .output) l { store := d.store, journal := journal' } f.sink)
          (((i.withProgram (p ++ q)).launch .output sink journal).runFor (summary.steps + l))

variable {i : Interpreter} {p q : List Char} {m mp mq : Matching}

theorem front_job (hi : i.stepLimit = none) (h : m.Correct (Program.ofText (p ++ q)).toList)
    (hp : mp.Correct (Program.ofText p).toList) (view : View) :
    ((i.withProgram p).job mp view).Front ((i.withProgram (p ++ q)).job m view) := by
  rw [Program.ofText_append] at h
  refine ⟨fun ip hip => ?_, fun ip hip => h.partner_front hp (by rwa [Array.length_toList]), rfl, ⟨hi, hi⟩, rfl⟩
  simp only [job, withProgram, ← Array.getElem?_toList, Program.ofText_append]
  exact List.getElem?_append_left (by rwa [Array.length_toList])

theorem moved_job (hi : i.stepLimit = none) (h : m.Correct (Program.ofText (p ++ q)).toList)
    (hq : mq.Correct (Program.ofText q).toList) :
    ((i.withProgram q).job mq .output).Moved p.length ((i.withProgram (p ++ q)).job m .output) := by
  have hlength : (Program.ofText p).toList.length = p.length := by rw [Array.length_toList, Program.size_ofText]
  rw [Program.ofText_append] at h
  refine ⟨fun ip => ?_, fun ip hip => ?_, rfl, ⟨hi, hi⟩, rfl, rfl⟩
  · simp only [job, withProgram, ← Array.getElem?_toList, Program.ofText_append, ← hlength]
    rw [List.getElem?_append_right (Nat.le_add_right _ _), Nat.add_sub_cancel_left]
  · rw [← hlength]
    exact h.partner_behind hq (by rwa [Array.length_toList])

theorem exists_matching (h : Balanced (p.map Command.ofChar)) :
    ∃ m, Matching.ofProgram (.ofText p) = .ok m ∧ m.Correct (Program.ofText p).toList :=
  Matching.exists_of_balanced (by simpa [Program.ofText] using h)

section Seam

variable {sink : σ} {journal : Journal}

theorem launch_withProgram (hm : Matching.ofProgram (.ofText p) = .ok m) (n : Nat) :
    ((i.withProgram p).launch .output sink journal).runFor n =
      ((i.withProgram p).start journal).runFor ((i.withProgram p).job m .output) n sink := by
  rw [launch_output (i := i.withProgram p) hm]
  rfl

theorem exists_ended_of_run (hm : Matching.ofProgram (.ofText p) = .ok m) {n : Nat} {f : Finished σ}
    (hf : (i.withProgram p).run n .output sink journal = some f) :
    ∃ c, ((i.withProgram p).start journal).runFor ((i.withProgram p).job m .output) n sink = .ended c f.sink f.outcome ∧
      f.interpreter.store = c.store := by
  obtain ⟨c, he⟩ := exists_endsIn hf
  exact ⟨c, (launch_withProgram hm n).symm.trans he.progress, by rw [he.interpreter]⟩

theorem alike_start_withProgram (i : Interpreter) (p q : List Char) (journal : Journal) :
    ((i.withProgram p).start journal).Alike ((i.withProgram q).start journal) := ⟨rfl, rfl, rfl⟩

/-- what is known of two balanced texts: their tables, and the table of both -/
structure Tables (p q : List Char) (m mp mq : Matching) : Prop where
  both : Matching.ofProgram (.ofText (p ++ q)) = .ok m ∧ m.Correct (Program.ofText (p ++ q)).toList
  first : Matching.ofProgram (.ofText p) = .ok mp ∧ mp.Correct (Program.ofText p).toList
  second : Matching.ofProgram (.ofText q) = .ok mq ∧ mq.Correct (Program.ofText q).toList

theorem exists_tables (hp : Balanced (p.map Command.ofChar)) (hq : Balanced (q.map Command.ofChar)) :
    ∃ m mp mq, Tables p q m mp mq := by
  obtain ⟨mp, hmp⟩ := exists_matching hp
  obtain ⟨mq, hmq⟩ := exists_matching hq
  obtain ⟨m, hm⟩ := exists_matching (p := p ++ q) (by rw [List.map_append]; exact hp.append hq)
  exact ⟨m, mp, mq, hm, hmp, hmq⟩

theorem Tables.failed (h : Tables p q m mp mq) (hi : i.stepLimit = none) {n : Nat} {f : Finished σ} {e : RunError}
    (hf : (i.withProgram p).run n .output sink journal = some f) (he : f.outcome = .error e) :
    ∃ g, (i.withProgram (p ++ q)).run n .output sink journal = some g ∧ SameEnd g f := by
  obtain ⟨c, hrun, hstore⟩ := exists_ended_of_run h.first.1 hf
  rcases ended_front (front_job hi h.both.2 h.first.2 .output) h.first.2 (alike_start_withProgram i p (p ++ q) journal)
    (Nat.zero_le _) hrun with ⟨e', d, -, hd, hcd⟩ | ⟨l, d, ho, -⟩
  · exact ⟨_, (endsIn_of_progress ((launch_withProgram h.both.1 n).trans hd)).run, rfl, rfl, by rw [hstore, hcd.store]⟩
  · rw [he] at ho
    cases ho

theorem Tables.endless (h : Tables p q m mp mq) (hi : i.stepLimit = none)
    (hnone : ∀ n, (i.withProgram p).run n .output sink journal = none) (n : Nat) :
    (i.withProgram (p ++ q)).run n .output sink journal = none := by
  cases hrun : ((i.withProgram p).start journal).runFor ((i.withProgram p).job mp .output) n sink with
  | running c s =>
    obtain ⟨d, hd, -⟩ := running_front (front_job hi h.both.2 h.first.2 .output) h.first.2
      (alike_start_withProgram i p (p ++ q) journal) (Nat.zero_le _) hrun
    simp only [run, launch_withProgram h.both.1, hd, finished?]
  | ended c s o =>
    have hsome := (endsIn_of_progress ((launch_withProgram h.first.1 n).trans hrun)).run
    rw [hnone n] at hsome
    cases hsome

theorem Tables.handedOver (h : Tables p q m mp mq) (hi : i.stepLimit = none) {n : Nat} {f : Finished σ}
    {summary : Summary} (hf : (i.withProgram p).run n .output sink journal = some f) (hok : f.outcome = .ok summary) :
    ∃ d, (i.withProgram (p ++ q)).Reaches summary.steps .output sink journal d f.sink ∧ d.store = f.interpreter.store ∧
      d.ip = p.length ∧ d.steps = summary.steps ∧ ∀ (l : Nat) (journal' : Journal),
        Progress.Moved p.length summary.steps
          (Config.runFor ((i.withProgram q).job mq .output) l { store := d.store, journal := journal' } f.sink)
          (((i.withProgram (p ++ q)).launch .output sink journal).runFor (summary.steps + l)) := by
  obtain ⟨c, hrun, hstore⟩ := exists_ended_of_run h.first.1 hf
  rcases ended_front (front_job hi h.both.2 h.first.2 .output) h.first.2 (alike_start_withProgram i p (p ++ q) journal)
    (Nat.zero_le _) hrun with ⟨e', d, ho, -⟩ | ⟨l, d, ho, hd, hds, hip, hsteps⟩
  · rw [hok] at ho
    cases ho
  · have hl : summary.steps = l := by
      rw [hok] at ho
      cases ho
      exact Nat.zero_add l
    have hseam : d.ip = p.length := hip.trans (Program.size_ofText p)
    have hcount : d.steps = l := hsteps.trans (Nat.zero_add l)
    subst hl
    refine ⟨d, (launch_withProgram h.both.1 _).trans hd, hds.trans hstore.symm, hseam, hcount, fun l' journal' => ?_⟩
    have hmoved : Moved p.length summary.steps { store := d.store, journal := journal' } d := ⟨rfl, hseam, hcount⟩
    rw [launch_withProgram h.both.1, runFor_of_running hd]
    exact runFor_moved hmoved (moved_job hi h.both.2 h.second.2) l' f.sink

end Seam

theorem inSequence (hi : i.stepLimit = none) (hp : Balanced (p.map Command.ofChar))
    (hq : Balanced (q.map Command.ofChar)) (sink : σ) (journal : Journal) : i.InSequence p q sink journal := by
  obtain ⟨m, mp, mq, h⟩ := exists_tables hp hq
  refine ⟨fun n f e hf he => h.failed hi hf he, h.endless hi, fun n f summary hf hok => ?_⟩
  obtain ⟨d, hreached, hstore, hip, hsteps, hmoved⟩ := h.handedOver hi hf hok
  exact ⟨d, mq, hreached, hstore, hip, hsteps, h.second.1, hmoved⟩

/-- a loop around `c` -/
def commentLoop (c : List Char) : List Char := '[' :: (c ++ [']'])

theorem balanced_commentLoop {c : List Char} (h : Balanced (c.map Command.ofChar)) :
    Balanced ((commentLoop c).map Command.ofChar) := by
  simpa [commentLoop, Command.ofChar] using h.loop

/-- a loop by itself is skipped on a blank tape: one step, and nothing has happened -/
theorem run_commentLoop (hi : i.stepLimit = none) {c : List Char} (h : Balanced (c.map Command.ofChar)) (sink : σ)
    (journal : Journal) : ∃ f, (i.withProgram (commentLoop c)).run 2 .output sink journal = some f ∧
      f.outcome = .ok ⟨1, 0⟩ ∧ f.sink = sink ∧ f.interpreter.store = i.freshStore := by
  obtain ⟨m, hm, hc⟩ := exists_matching (balanced_commentLoop h)
  set j := (i.withProgram (commentLoop c)).job m .output with hj
  set d := (i.withProgram (commentLoop c)).start journal with hd
  have hstart : j.program[d.ip]? = some .loopStart := by
    rw [← Array.getElem?_toList]
    rfl
  have hpartner : m.partner 0 = c.length + 1 := by
    have hcloses := closes_loop h [] []
    have htext : (Program.ofText (commentLoop c)).toList =
        [] ++ .loopStart :: (c.map Command.ofChar ++ .loopEnd :: []) := by
      simp [Program.ofText, commentLoop, Command.ofChar]
    rw [← htext] at hcloses
    have hpartner := (hc.partner_of_closes hcloses).1
    simpa using hpartner
  have hcell : d.store.cell = 0 := Store.cell_blank _
  have hturn : d.turn j = .performed .loopStart (.skipLoop (c.length + 1)) := by
    rw [turn_of_command hstart (Job.limitReached?_of_unlimited hi _)]
    simp only [Job.decide, hcell, if_true]
    rw [show d.ip = 0 from rfl, show j.matching = m from rfl, hpartner]
  have hadv : d.advance j sink = .running (d.apply (.skipLoop (c.length + 1))) sink := by
    rw [advance_eq, hturn]
    rfl
  have hend : j.program[(d.apply (.skipLoop (c.length + 1))).ip]? = none := by
    refine Array.getElem?_eq_none ?_
    have hsize : j.program.size = c.length + 2 := by
      simp [hj, job, withProgram, commentLoop]
    rw [hsize]
    rfl
  obtain ⟨e, hrun, hstore⟩ : ∃ e, ((i.withProgram (commentLoop c)).launch .output sink journal).runFor 2 =
      .ended e sink (.ok ⟨1, 0⟩) ∧ e.store = i.freshStore := by
    rw [launch_output (i := i.withProgram (commentLoop c)) hm]
    exact ⟨_, (runFor_of_advance hadv 1).trans (runFor_of_ended (advance_of_finished (turn_of_end hend) sink) 0), rfl⟩
  exact ⟨_, (endsIn_of_progress hrun).run, rfl, rfl, hstore⟩

/-- **A program behind another runs where the first one left off.** Let two texts be balanced each by itself. Their
concatenation, run without a limit on any input, tape and sink, does what the first does, and then what the second does
on the store that the first left. So a loop in front of a program costs one step, whatever stands in it, and otherwise
only moves the program's positions. -/
theorem run_of_append (hi : i.stepLimit = none) (hp : Balanced (p.map Command.ofChar))
    (hq : Balanced (q.map Command.ofChar)) (sink : σ) (journal : Journal) :
    i.InSequence p q sink journal ∧ ∀ n, Progress.Moved (p.length + 2) 1
      (((i.withProgram q).launch .output sink journal).runFor n)
      (((i.withProgram (commentLoop p ++ q)).launch .output sink journal).runFor (1 + n)) := by
  refine ⟨inSequence hi hp hq sink journal, fun n => ?_⟩
  obtain ⟨f, hf, hok, hsink, hstore⟩ := run_commentLoop hi hp sink journal
  obtain ⟨d, m, -, hds, -, -, hm, hmoved⟩ :=
    (inSequence hi (balanced_commentLoop hp) hq sink journal).handedOver 2 f _ hf hok
  have hlength : (commentLoop p).length = p.length + 2 := by simp [commentLoop]
  have hn := hmoved n ((i.withProgram q).start journal).journal
  rw [hds, hstore, hsink, hlength] at hn
  rw [launch_output (i := i.withProgram q) hm]
  exact hn

/-- a text that reads a character with code 2, and a loop that counts it down: both together, the loop begins in the
second cell after three steps, and what follows the loop is at position 7 -/
theorem run_of_append_countdown :
    ∃ i : Interpreter, i.stepLimit = none ∧ Balanced ("+>,".toList.map Command.ofChar) ∧
      Balanced ("[.-]x".toList.map Command.ofChar) ∧
      ∃ f d, (i.withProgram "+>,".toList).run 4 .output Quota.unlimited .silent = some f ∧ f.outcome = .ok ⟨3, 1⟩ ∧
        (i.withProgram ("+>,".toList ++ "[.-]x".toList)).Reaches 3 .output Quota.unlimited .silent d f.sink ∧
        d.store = ⟨#[1, 2], 1, 1⟩ ∧ d.ip = 3 ∧
        ((i.withProgram ("+>,".toList ++ "[.-]x".toList)).run 12 .output Quota.unlimited .silent).map Finished.outcome =
          some (.error (.notACommand 'x' 7)) := by
  obtain ⟨i, hi⟩ : ∃ i : Interpreter, i = ⟨#[], #['\x02'], none, .blank 2⟩ := ⟨_, rfl⟩
  have hlimit : i.stepLimit = none := by rw [hi]
  have hp : Balanced ("+>,".toList.map Command.ofChar) := by decide
  have hq : Balanced ("[.-]x".toList.map Command.ofChar) := by decide
  obtain ⟨f, hf, hok, hstore⟩ : ∃ f, (i.withProgram "+>,".toList).run 4 .output Quota.unlimited .silent = some f ∧
      f.outcome = .ok ⟨3, 1⟩ ∧ f.interpreter.store = ⟨#[1, 2], 1, 1⟩ := by
    rw [hi]
    exact ⟨_, rfl, rfl, rfl⟩
  obtain ⟨d, m, hreached, hds, hip, -⟩ :=
    (run_of_append hlimit hp hq Quota.unlimited .silent).1.handedOver 4 f _ hf hok
  exact ⟨i, hlimit, hp, hq, f, d, hf, hok, hreached, hds.trans hstore, hip, by rw [hi]; rfl⟩

end Interpreter

end Brainfuck
