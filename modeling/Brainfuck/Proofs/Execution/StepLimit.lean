/-
A step limit cuts a run and changes nothing else. The run with the limit and the run without one stay together as long
as fewer instructions than the limit were executed (`runFor_limited`): they differ in their journals only. From there
the run with the limit ends at its next advance.

Main statement: `limit_cuts_run`. Against the unlimited run of the same balanced program:
- an end at or before the limit is the end of the limited run too, where a failing instruction must come before it;
- in every other case the limited run ends with the limit, on the store and the sink of the unlimited run after as many
  instructions as the limit allows;
- so a limited run always ends, its output grows with the limit, and an end other than by the limit is final.
-/
import Mathlib.Tactic
import Brainfuck.Proofs.Brackets.Matching
import Brainfuck.Proofs.Execution.Lockstep

namespace Brainfuck

open Sink

variable {σ : Type}

/-- the same job under another limit -/
def Job.limitedTo (j : Job) (limit : Option Nat) : Job := { j with stepLimit := limit }

/-- configurations that differ in their journals only -/
structure Config.Alike (c d : Config) : Prop where
  store : c.store = d.store
  ip : c.ip = d.ip
  steps : c.steps = d.steps

/-- alike, and on the same sink -/
def Config.SameRun (c : Config) (s : σ) (d : Config) (t : σ) : Prop := c.Alike d ∧ s = t

namespace Config

theorem Alike.apply {c d : Config} (h : c.Alike d) (a : Action) : (c.apply a).Alike (d.apply a) :=
  ⟨by simp only [Config.apply, h.store], by simp only [Config.apply, h.ip], by simp only [Config.apply, h.steps]⟩

/-! ## One advance -/

theorem Alike.afterWrite {c d : Config} (h : c.Alike d) (ip : Nat) (s : σ) (e : Option DeviceError) :
    Progress.Together SameRun (c.afterWrite ip s e) (d.afterWrite ip s e) := by
  cases e with
  | none => exact .running ⟨h, rfl⟩
  | some e => exact .ended _ ⟨h, rfl⟩

variable [Sink σ]

theorem Alike.perform {c d : Config} (h : c.Alike d) (view : View) (command : Command) (s : σ) (a : Action) :
    Progress.Together SameRun (c.perform view command s a) (d.perform view command s a) := by
  unfold Config.perform
  cases view with
  | output =>
    cases a.emitted with
    | none => exact .running ⟨h.apply a, rfl⟩
    | some b =>
      rw [h.ip]
      exact (h.apply a).afterWrite _ _ _
  | table =>
    have hrow : c.row command a = d.row command a := by simp only [row, h.store, h.ip, h.steps]
    simp only [hrow, h.ip]
    exact (h.apply a).afterWrite _ _ _

theorem Alike.advance {j k : Job} {c d : Config} (h : c.Alike d) (hview : j.view = k.view) (ht : c.turn j = d.turn k)
    (s : σ) : Progress.Together SameRun (c.advance j s) (d.advance k s) := by
  rw [advance_eq, advance_eq, ← ht, ← hview]
  cases c.turn j with
  | finished =>
    simp only [h.steps, h.store]
    exact .ended _ ⟨⟨h.store, h.ip, h.steps⟩, rfl⟩
  | limitReached limit => exact .ended _ ⟨⟨h.store, h.ip, h.steps⟩, rfl⟩
  | refused e => exact .ended _ ⟨h, rfl⟩
  | performed command a => exact h.perform _ _ _ _

/-! ## Up to the limit -/

variable {j : Job} {limit : Nat} {c d : Config}

/-- below the limit, and at the end of the program, the limit does not show -/
theorem turn_limited (h : c.Alike d) (hc : c.steps < limit ∨ j.program[c.ip]? = none) :
    c.turn (j.limitedTo none) = d.turn (j.limitedTo (some limit)) := by
  have hdp : (j.limitedTo (some limit)).program[d.ip]? = j.program[c.ip]? := by rw [h.ip]; rfl
  cases hp : j.program[c.ip]? with
  | none => rw [turn_of_end (j := j.limitedTo none) hp, turn_of_end (hdp.trans hp)]
  | some command =>
    have hlt : c.steps < limit := hc.resolve_right (by simp [hp])
    have hd : (j.limitedTo (some limit)).limitReached? d.steps = none := by
      simp only [Job.limitReached?, Job.limitedTo, Option.filter_some, ← h.steps]
      simp; omega
    rw [turn_of_command (j := j.limitedTo none) hp rfl, turn_of_command (hdp.trans hp) hd, ← h.store, ← h.ip]
    rfl

theorem advance_limited (h : c.Alike d) (hc : c.steps < limit ∨ j.program[c.ip]? = none) (s : σ) :
    Progress.Together SameRun (c.advance (j.limitedTo none) s) (d.advance (j.limitedTo (some limit)) s) :=
  h.advance (j := j.limitedTo none) (k := j.limitedTo (some limit)) rfl (turn_limited h hc) s

/-- **Below the limit the two runs stay together.** -/
theorem runFor_limited (h : c.Alike d) (s : σ) {n : Nat} (hn : c.steps + n ≤ limit) :
    Progress.Together SameRun (c.runFor (j.limitedTo none) n s) (d.runFor (j.limitedTo (some limit)) n s) := by
  refine runFor_together limit (fun {c s d t} hR hlt => ?_) (⟨h, rfl⟩ : SameRun c s d s) hn
  obtain ⟨halike, rfl⟩ := hR
  exact advance_limited halike (Or.inl hlt) s

theorem running_limited (h : c.Alike d) {s s' : σ} {n : Nat} {c' : Config} (hn : c.steps + n ≤ limit)
    (hrun : c.runFor (j.limitedTo none) n s = .running c' s') :
    ∃ d', d.runFor (j.limitedTo (some limit)) n s = .running d' s' ∧ c'.Alike d' := by
  have htog := runFor_limited (j := j) h s hn
  rw [hrun] at htog
  obtain ⟨d', t, hd, halike, rfl⟩ := htog.exists_running
  exact ⟨d', hd, halike⟩

/-- an end after `n` instructions that the limit allows: it comes before the limit, or it is a good one at the limit -/
def Within (limit n : Nat) (o : Outcome) : Prop := n < limit ∨ n = limit ∧ ∃ summary, o = .ok summary

theorem Within.mono {k n : Nat} {o : Outcome} (h : Within limit n o) (hk : limit ≤ k) : Within k n o := by
  rcases h with h | ⟨rfl, hok⟩
  · exact Or.inl (h.trans_le hk)
  · rcases Nat.lt_or_eq_of_le hk with hlt | rfl
    · exact Or.inl hlt
    · exact Or.inr ⟨rfl, hok⟩

/-- an end that the limit allows is the end of the limited run -/
theorem ended_limited (h : c.Alike d) (h0 : c.steps = 0) {s t s' : σ} {n : Nat} {cn c' : Config} {o : Outcome}
    (hrun : c.runFor (j.limitedTo none) n s = .running cn t)
    (hlast : cn.advance (j.limitedTo none) t = .ended c' s' o) (hw : Within limit n o) :
    ∃ d', d.runFor (j.limitedTo (some limit)) (limit + 1) s = .ended d' s' o ∧ c'.Alike d' := by
  have hsteps : cn.steps = n := by rw [steps_of_running hrun, h0, Nat.zero_add]
  have hle : c.steps + n ≤ limit := by rcases hw with hw | ⟨hw, -⟩ <;> omega
  obtain ⟨dn, hd, halike⟩ := running_limited h hle hrun
  have hc : cn.steps < limit ∨ j.program[cn.ip]? = none := by
    rcases hw with hw | ⟨-, summary, rfl⟩
    · left; rw [hsteps]; exact hw
    · exact Or.inr (at_end_of_ok (j := j.limitedTo none) hlast)
  have hadv := advance_limited (j := j) halike hc t
  rw [hlast] at hadv
  obtain ⟨d', t', hda, halike', rfl⟩ := hadv.exists_ended
  have hend : d.runFor (j.limitedTo (some limit)) (n + 1) s = .ended d' s' o :=
    (runFor_succ_of_running hd).trans hda
  exact ⟨d', runFor_mono hend (by omega), halike'⟩

/-- where there is no such end, the limited run ends with the limit, as far as the unlimited one came -/
theorem stopped_limited (h : c.Alike d) (h0 : c.steps = 0) {s : σ}
    (hno : ∀ n cn t c' s' o, c.runFor (j.limitedTo none) n s = .running cn t →
      cn.advance (j.limitedTo none) t = .ended c' s' o → ¬ Within limit n o) :
    ∃ c' s' d', c.runFor (j.limitedTo none) limit s = .running c' s' ∧
      d.runFor (j.limitedTo (some limit)) (limit + 1) s = .ended d' s' (.error (.stepLimitReached limit)) ∧
      c'.Alike d' := by
  cases hrun : c.runFor (j.limitedTo none) limit s with
  | ended c' s' o =>
    obtain ⟨m, cm, t, hm, hrunm, hlast⟩ := exists_last_running hrun
    exact absurd (Or.inl hm) (hno m cm t c' s' o hrunm hlast)
  | running c' s' =>
    have hle : c.steps + limit ≤ limit := by omega
    obtain ⟨d', hd, halike⟩ := running_limited h hle hrun
    have hsteps : c'.steps = limit := by rw [steps_of_running hrun, h0, Nat.zero_add]
    cases hp : j.program[c'.ip]? with
    | none =>
      have hfin := advance_of_finished (turn_of_end (j := j.limitedTo none) hp) s'
      exact absurd (Or.inr ⟨rfl, _, rfl⟩) (hno limit c' s' _ _ _ hrun hfin)
    | some command =>
      have hlim : (j.limitedTo (some limit)).limitReached? d'.steps = some limit := by
        simp [Job.limitReached?, Job.limitedTo, ← halike.steps, hsteps]
      have hdp : (j.limitedTo (some limit)).program[d'.ip]? = some command := by rw [← halike.ip]; exact hp
      have hadv := advance_of_limit (turn_of_limit hdp hlim) s'
      exact ⟨c', s', _, rfl, (runFor_succ_of_running hd).trans hadv,
        halike.store, halike.ip, halike.steps⟩

end Config

/-! ## Whole runs -/

namespace Interpreter

open Config

/-- the same interpreter under another limit -/
def limitedTo (i : Interpreter) (limit : Option Nat) : Interpreter := { i with stepLimit := limit }

/-- two runs ended alike, on equal sinks and stores -/
structure SameEnd (f g : Finished σ) : Prop where
  outcome : f.outcome = g.outcome
  sink : f.sink = g.sink
  store : f.interpreter.store = g.interpreter.store

theorem SameEnd.symm {f g : Finished σ} (h : SameEnd f g) : SameEnd g f :=
  ⟨h.outcome.symm, h.sink.symm, h.store.symm⟩

theorem SameEnd.trans {f g g' : Finished σ} (h : SameEnd f g) (h' : SameEnd g g') : SameEnd f g' :=
  ⟨h.outcome.trans h'.outcome, h.sink.trans h'.sink, h.store.trans h'.store⟩

variable [Sink σ]

/-- a run that executes `n` instructions and then ends -/
structure EndsAfter (i : Interpreter) (n : Nat) (view : View) (sink : σ) (journal : Journal) (f : Finished σ) :
    Prop where
  reaches : ∃ c s, i.Reaches n view sink journal c s
  run : i.run (n + 1) view sink journal = some f

variable {i : Interpreter} {m : Matching} {sink : σ} {journal : Journal} {limit : Nat}

theorem launch_limitedTo (hm : Matching.ofProgram i.program = .ok m) (l : Option Nat) (n : Nat) :
    ((i.limitedTo l).launch .output sink journal).runFor n =
      ((i.limitedTo l).start journal).runFor ((i.job m .output).limitedTo l) n sink := by
  rw [launch_output (i := i.limitedTo l) hm]
  rfl

theorem alike_start (i : Interpreter) (l l' : Option Nat) (journal : Journal) :
    ((i.limitedTo l).start journal).Alike ((i.limitedTo l').start journal) := ⟨rfl, rfl, rfl⟩

theorem EndsAfter.last (hm : Matching.ofProgram i.program = .ok m) {l : Option Nat} {n : Nat} {f : Finished σ}
    (h : (i.limitedTo l).EndsAfter n .output sink journal f) :
    ∃ c s c', ((i.limitedTo l).start journal).runFor ((i.job m .output).limitedTo l) n sink = .running c s ∧
      c.advance ((i.job m .output).limitedTo l) s = .ended c' f.sink f.outcome ∧ f.interpreter.store = c'.store := by
  obtain ⟨c, s, hc⟩ := h.reaches
  obtain ⟨c', he⟩ := exists_endsIn h.run
  have hp := he.progress
  rw [Reaches, launch_limitedTo hm] at hc
  rw [launch_limitedTo hm, runFor_succ_of_running hc] at hp
  exact ⟨c, s, c', hc, hp, by rw [he.interpreter]⟩

theorem endsAfter_of_last (hm : Matching.ofProgram i.program = .ok m) {l : Option Nat} {n : Nat} {c c' : Config}
    {s s' : σ} {o : Outcome}
    (hc : ((i.limitedTo l).start journal).runFor ((i.job m .output).limitedTo l) n sink = .running c s)
    (ha : c.advance ((i.job m .output).limitedTo l) s = .ended c' s' o) :
    (i.limitedTo l).EndsAfter n .output sink journal ⟨{ i.limitedTo l with store := c'.store }, s', c'.journal, o⟩ := by
  refine ⟨⟨c, s, (launch_limitedTo hm l n).trans hc⟩, ?_⟩
  refine (endsIn_of_progress ?_).run
  rw [launch_limitedTo hm, runFor_succ_of_running hc, ha]

theorem exists_sameEnd (hm : Matching.ofProgram i.program = .ok m) {n : Nat} {g : Finished σ}
    (hg : (i.limitedTo none).EndsAfter n .output sink journal g) (hw : Within limit n g.outcome) :
    ∃ f, (i.limitedTo (some limit)).run (limit + 1) .output sink journal = some f ∧ SameEnd f g := by
  obtain ⟨c, s, c', hc, ha, hstore⟩ := hg.last hm
  obtain ⟨d', hd, halike⟩ := ended_limited (alike_start i none (some limit) journal) rfl hc ha hw
  exact ⟨_, (endsIn_of_progress ((launch_limitedTo hm _ _).trans hd)).run, rfl, rfl, by rw [hstore, halike.store]⟩

theorem exists_stopped (hm : Matching.ofProgram i.program = .ok m)
    (hno : ∀ n g, (i.limitedTo none).EndsAfter n .output sink journal g → ¬ Within limit n g.outcome) :
    ∃ f c, (i.limitedTo (some limit)).run (limit + 1) .output sink journal = some f ∧
      f.outcome = .error (.stepLimitReached limit) ∧ (i.limitedTo none).Reaches limit .output sink journal c f.sink ∧
      f.interpreter.store = c.store := by
  obtain ⟨c', s', d', hc, hd, halike⟩ := stopped_limited (alike_start i none (some limit) journal) rfl
    (fun n cn t c' s' o hrun hlast => hno n _ (endsAfter_of_last hm hrun hlast))
  exact ⟨_, c', (endsIn_of_progress ((launch_limitedTo hm _ _).trans hd)).run, rfl,
    (launch_limitedTo hm _ _).trans hc, halike.store.symm⟩

/-! ## Larger limits -/

/-- a limit of at least `limit`, or none -/
def NoLess (limit : Nat) (l : Option Nat) : Prop := ∀ k ∈ l, limit ≤ k

/-- an end that the limit allows is the end under every larger limit, and under none -/
theorem exists_sameEnd_of_noLess (hm : Matching.ofProgram i.program = .ok m) {n : Nat} {g : Finished σ}
    (hg : (i.limitedTo none).EndsAfter n .output sink journal g) (hw : Within limit n g.outcome) {l : Option Nat}
    (hl : NoLess limit l) : ∃ k f, (i.limitedTo l).run k .output sink journal = some f ∧ SameEnd f g := by
  cases l with
  | none => exact ⟨n + 1, g, hg.run, rfl, rfl, rfl⟩
  | some k =>
    obtain ⟨f, hf, hfg⟩ := exists_sameEnd hm hg (hw.mono (hl k rfl))
    exact ⟨k + 1, f, hf, hfg⟩

theorem exists_reaches_of_noLess (hm : Matching.ofProgram i.program = .ok m) {c : Config} {s : σ} {l : Option Nat}
    (h : (i.limitedTo none).Reaches limit .output sink journal c s) (hl : NoLess limit l) :
    ∃ d, (i.limitedTo l).Reaches limit .output sink journal d s := by
  cases l with
  | none => exact ⟨c, h⟩
  | some k =>
    have hle : ((i.limitedTo none).start journal).steps + limit ≤ k := (Nat.zero_add limit).trans_le (hl k rfl)
    rw [Reaches, launch_limitedTo hm] at h
    obtain ⟨d, hd, -⟩ := running_limited (alike_start i none (some k) journal) hle h
    exact ⟨d, (launch_limitedTo hm _ _).trans hd⟩

/-- what was reached on the way to an end is part of what the sink has taken at the end -/
theorem taken_prefix_of_reaches [Lawful σ] {i : Interpreter} {n k : Nat} {c : Config} {s : σ} {g : Finished σ}
    (h : i.Reaches n .output sink journal c s) (hg : i.run k .output sink journal = some g) :
    taken s <+: taken g.sink := by
  obtain ⟨d, hd⟩ := exists_endsIn hg
  have hp := (hd.mono (Nat.le_add_left k n)).progress
  unfold Reaches at h
  unfold Launch.runFor at h hp
  split at h
  · rename_i c0 s0 h0
    rw [h0] at hp
    have h1 := taken_prefix_runFor (i.launch .output sink journal).job k c s
    simp only at hp
    rw [runFor_of_running h] at hp
    rw [hp] at h1
    exact h1
  · cases h

/-! ## The cut -/

/-- what the limit makes of the run without one -/
structure CutAt [Lawful σ] (i : Interpreter) (limit : Nat) (sink : σ) (journal : Journal) (f : Finished σ) : Prop where
  /-- an end that the limit allows is kept -/
  kept : ∀ n g, (i.limitedTo none).EndsAfter n .output sink journal g → Within limit n g.outcome →
    SameEnd f g ∧ ∀ summary, g.outcome = .ok summary → summary = ⟨n, g.interpreter.store.pointer⟩
  /-- without one the limit ends the run, on the store and the sink reached by then -/
  stopped : (∀ n g, (i.limitedTo none).EndsAfter n .output sink journal g → ¬ Within limit n g.outcome) →
    f.outcome = .error (.stepLimitReached limit) ∧
      ∃ c, (i.limitedTo none).Reaches limit .output sink journal c f.sink ∧ f.interpreter.store = c.store
  /-- the output is the front of the output under a larger limit -/
  grows : ∀ l, NoLess limit l → ∀ n g, (i.limitedTo l).run n .output sink journal = some g →
    taken f.sink <+: taken g.sink
  /-- an end other than by the limit is the end under a larger limit -/
  final : f.outcome ≠ .error (.stepLimitReached limit) → ∀ l, NoLess limit l →
    ∃ n g, (i.limitedTo l).run n .output sink journal = some g ∧ SameEnd f g

theorem EndsAfter.summary_eq (hm : Matching.ofProgram i.program = .ok m) {n : Nat} {g : Finished σ}
    (hg : (i.limitedTo none).EndsAfter n .output sink journal g) {summary : Summary} (h : g.outcome = .ok summary) :
    summary = ⟨n, g.interpreter.store.pointer⟩ := by
  obtain ⟨c, s, c', hc, ha, hstore⟩ := hg.last hm
  have hsteps : c.steps = n := (steps_of_running hc).trans (Nat.zero_add n)
  rw [h] at ha
  have hend := at_end_of_ok ha
  rw [advance_of_finished (turn_of_end hend)] at ha
  injection ha with hc' _ ho
  injection ho with hsum
  rw [← hsum, hstore, ← hc', hsteps]
  rfl

variable [Lawful σ]

theorem cutAt_of_within (hm : Matching.ofProgram i.program = .ok m) {n : Nat} {f g : Finished σ}
    (hg : (i.limitedTo none).EndsAfter n .output sink journal g) (hw : Within limit n g.outcome) (hfg : SameEnd f g) :
    i.CutAt limit sink journal f where
  kept n' g' hg' _ := by
    obtain rfl := run_unique hg'.run hg.run
    exact ⟨hfg, fun summary => hg'.summary_eq hm⟩
  stopped hno := absurd hw (hno n g hg)
  grows l hl k g' hg' := by
    obtain ⟨k', f', hf', hfg'⟩ := exists_sameEnd_of_noLess hm hg hw hl
    obtain rfl := run_unique hg' hf'
    rw [hfg.sink, hfg'.sink]
  final _ l hl := by
    obtain ⟨k', f', hf', hfg'⟩ := exists_sameEnd_of_noLess hm hg hw hl
    exact ⟨k', f', hf', hfg.trans hfg'.symm⟩

theorem cutAt_of_stopped (hm : Matching.ofProgram i.program = .ok m) {c : Config} {f : Finished σ}
    (hno : ∀ n g, (i.limitedTo none).EndsAfter n .output sink journal g → ¬ Within limit n g.outcome)
    (ho : f.outcome = .error (.stepLimitReached limit))
    (hc : (i.limitedTo none).Reaches limit .output sink journal c f.sink) (hstore : f.interpreter.store = c.store) :
    i.CutAt limit sink journal f where
  kept n g hg hw := absurd hw (hno n g hg)
  stopped _ := ⟨ho, c, hc, hstore⟩
  grows l hl k g hg := by
    obtain ⟨d, hd⟩ := exists_reaches_of_noLess hm hc hl
    exact taken_prefix_of_reaches hd hg
  final hne := absurd ho hne

/-- **A limit cuts the run at exactly the limit**, on any sink. A balanced program run with a limit always ends, within
one advance more than the limit, and its end is the unlimited run cut there. An unbalanced one is refused under every
limit and under none, with the same bracket and before anything happens. -/
theorem limit_cuts_run (i : Interpreter) (sink : σ) (journal : Journal) (limit : Nat) :
    (Balanced i.program.toList →
      ∃ f, (i.limitedTo (some limit)).run (limit + 1) .output sink journal = some f ∧
        i.CutAt limit sink journal f) ∧
    (¬ Balanced i.program.toList →
      ∃ b ip, ∀ (l : Option Nat) (fuel : Nat), (i.limitedTo l).run fuel .output sink journal =
        some ⟨{ i.limitedTo l with store := i.freshStore }, sink, journal, .error (.unmatchedBracket b ip)⟩) := by
  constructor
  · intro hb
    obtain ⟨m, hm, -⟩ := Matching.exists_of_balanced hb
    by_cases h : ∃ n g, (i.limitedTo none).EndsAfter n .output sink journal g ∧ Within limit n g.outcome
    · obtain ⟨n, g, hg, hw⟩ := h
      obtain ⟨f, hf, hfg⟩ := exists_sameEnd hm hg hw
      exact ⟨f, hf, cutAt_of_within hm hg hw hfg⟩
    · have hno : ∀ n g, (i.limitedTo none).EndsAfter n .output sink journal g → ¬ Within limit n g.outcome :=
        fun n g hg hw => h ⟨n, g, hg, hw⟩
      obtain ⟨f, c, hf, ho, hc, hstore⟩ := exists_stopped hm hno
      exact ⟨f, hf, cutAt_of_stopped hm hno ho hc hstore⟩
  · intro hb
    obtain ⟨b, ip, he, -⟩ := Matching.exists_of_not_balanced hb
    exact ⟨b, ip, fun l fuel => run_of_mismatch (i := i.limitedTo l) he fuel .output sink journal⟩

/-- an endless program under a limit of 7: it is cut in its third round, with two bytes written -/
theorem limit_cuts_run_endless :
    ∃ f, ((⟨.ofText "+[.]".toList, #[], none, .blank 1⟩ : Interpreter).limitedTo (some 7)).run 8 .output
        Quota.unlimited .silent = some f ∧
      (⟨.ofText "+[.]".toList, #[], none, .blank 1⟩ : Interpreter).CutAt 7 Quota.unlimited .silent f ∧
      taken f.sink = [1, 1] := by
  obtain ⟨f, hf, hcut⟩ := (limit_cuts_run ⟨.ofText "+[.]".toList, #[], none, .blank 1⟩ Quota.unlimited .silent 7).1
    (by decide)
  have htaken : (((⟨.ofText "+[.]".toList, #[], none, .blank 1⟩ : Interpreter).limitedTo (some 7)).run 8 .output
      Quota.unlimited .silent).map (fun f => taken f.sink) = some [1, 1] := by decide
  rw [hf] at htaken
  exact ⟨f, hf, hcut, Option.some.inj htaken⟩

end Interpreter

end Brainfuck
