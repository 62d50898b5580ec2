/-
A request that writes to one sink, seen as another. Where one sink mirrors another, making a request and fulfilling it
commute with the view from the one to the other: the questions, the run, the line feed that is missing and the flush
are the same calls. So what a request does to any willing sink can be read off what it does to a recorder.

Main statements: `request_map` and `fulfil_map`. With them, and since a request flushes last
(`exists_calls_of_fulfil`), `exists_of_fulfil_buffered` says what a line buffered request comes to.
-/
import Mathlib.Tactic
import Brainfuck.Proofs.Limits.Sources
import Brainfuck.Proofs.Request.Buffering

namespace Brainfuck

open Sink

variable {σ τ : Type} [Sink σ] [Sink τ] {φ : σ → τ}

/-! ## Making a request -/

/-- **The questions of a request, put to a mirrored sink.** -/
theorem Options.request_map (h : Mirrors φ) (reader : Reader) (fallback : Limits) (o : Options) (answers : Answers)
    (questions : σ) :
    o.request reader fallback answers (φ questions) = (o.request reader fallback answers questions).map φ := by
  cases hprepare : o.prepare reader fallback with
  | error f =>
    rw [request, request, hprepare]
    rfl
  | ok r =>
    rw [request_eq hprepare, request_eq hprepare]
    split
    · rw [Dialogue.complete_map h]
      rfl
    · rfl

/-! ## Fulfilling it -/

namespace Tracked

/-- the same byte remembered, with the sink seen as another -/
def map (φ : σ → τ) (t : Tracked σ) : Tracked τ := ⟨φ t.inner, t.last⟩

theorem shows_map (h : Mirrors φ) : Shows (map φ) := by
  refine ⟨fun t bs => ?_, fun t bs => ?_⟩
  · change map φ (t.write bs).sink = ((t.map φ).write bs).sink
    simp only [write, map, h.write]
  · change (t.write bs).failure = ((t.map φ).write bs).failure
    simp only [write, map, h.write]

theorem finish_map (h : Mirrors φ) (t : Tracked σ) : (t.map φ).finish = (φ t.finish.1, t.finish.2) := by
  have hlacks : (t.map φ).lacksNewline = t.lacksNewline := rfl
  unfold finish
  rw [hlacks]
  cases t.lacksNewline with
  | false => exact h.flush t.inner
  | true =>
    simp only [if_true, map, h.write]
    rcases Sink.write t.inner [Text.lineFeed] with ⟨s, count, failure⟩
    cases failure with
    | some e => rfl
    | none => exact h.flush s

end Tracked

/-- the same, with the sink seen as another -/
def Fulfilled.map (φ : σ → τ) (x : Fulfilled σ) : Fulfilled τ := ⟨φ x.sink, x.journal, x.result⟩

namespace Request

theorem conclude_map (h : Mirrors φ) (c : Config) (t : Tracked σ) (o : Outcome) :
    conclude c (t.map φ) o = (conclude c t o).map φ := by
  unfold conclude
  rw [Tracked.finish_map h]
  rcases t.finish with ⟨s, failure⟩
  cases failure with
  | some e => rfl
  | none => cases o <;> rfl

theorem fulfil_of_no_tape {r : Request} {e : RunError} (h : r.interpreter = .error e) (fuel : Nat) (s : σ)
    (journal : Journal) : r.fulfil fuel s journal = some ⟨s, journal, .error (.run e)⟩ := by
  rw [fulfil, progress, h]
  rfl

/-- **A request fulfilled on a mirrored sink.** -/
theorem fulfil_map (h : Mirrors φ) (r : Request) (fuel : Nat) (s : σ) (journal : Journal) :
    r.fulfil fuel (φ s) journal = (r.fulfil fuel s journal).map (Fulfilled.map φ) := by
  cases hi : r.interpreter with
  | error e =>
    rw [fulfil_of_no_tape hi, fulfil_of_no_tape hi]
    rfl
  | ok i =>
    have hrun := Interpreter.runFor_launch_map (Tracked.shows_map h) i fuel r.view ⟨s, none⟩ journal
    have htracked : Tracked.map φ ⟨s, none⟩ = ⟨φ s, none⟩ := rfl
    rw [htracked] at hrun
    rw [fulfil_eq hi, fulfil_eq hi, hrun]
    cases (i.launch r.view (Tracked.mk s none) journal).runFor fuel with
    | running c t => rfl
    | ended c t o => exact congrArg some (conclude_map h c t o)

/-- **The last thing a request does to its sink is to flush it**, if it has a tape. -/
theorem exists_calls_of_fulfil {r : Request} {fuel : Nat} {journal : Journal} {z : Fulfilled Recorder}
    (h : r.fulfil fuel Recorder.blank journal = some z) :
    z.sink.calls = [] ∨ ∃ cs, z.sink.calls = cs ++ [.flush] := by
  cases hi : r.interpreter with
  | error e =>
    rw [fulfil_of_no_tape hi] at h
    cases h
    exact .inl rfl
  | ok i =>
    rw [fulfil_eq hi] at h
    cases hp : (i.launch r.view (Tracked.mk Recorder.blank none) journal).runFor fuel with
    | running c t =>
      rw [hp] at h
      cases h
    | ended c t o =>
      rw [hp] at h
      cases h
      obtain ⟨out, hends⟩ := exists_endsOutput (Interpreter.onlyWritten_run (Interpreter.endsIn_of_progress hp).run) c
      obtain ⟨bss, -, hcalls⟩ := hends.calls Recorder.calls Recorder.logs
      have hnone (s : Recorder) : (endLine s out).failure = none := by
        unfold endLine
        split <;> rfl
      rw [hnone, if_pos rfl] at hcalls
      exact .inr ⟨_, hcalls⟩

/-- **Over a willing device a line buffer keeps back nothing of a request that is fulfilled.** The device gets the bytes
that a recorder records, and nothing else is different. -/
theorem exists_of_fulfil_buffered [Lawful σ] [LawfulFlush σ] [Counts σ] {r : Request} {fuel : Nat} {device : σ}
    {journal : Journal} {y : Fulfilled (LineBuffered σ)} (h : Willing device)
    (hy : r.fulfil fuel (LineBuffered.mk device #[]) journal = some y) :
    ∃ z, r.fulfil fuel Recorder.blank journal = some z ∧ y.result = z.result ∧ y.journal = z.journal ∧
      taken y.sink.device = taken device ++ z.sink.bytes := by
  have hwilling : Willing (LineBuffered.mk device #[]) := LineBuffered.willing_of_device h
  have hmap := fulfil_map hwilling.mirrors_callAll r fuel Recorder.blank journal
  have hblank : callAll (LineBuffered.mk device #[]) Recorder.blank.calls = ⟨device, #[]⟩ := rfl
  rw [hblank, hy] at hmap
  obtain ⟨z, hz, rfl⟩ := Option.map_eq_some_iff.1 hmap.symm
  refine ⟨z, hz, rfl, rfl, ?_⟩
  change taken (callAll (LineBuffered.mk device #[]) z.sink.calls).device = _
  rcases exists_calls_of_fulfil hz with hnone | ⟨cs, hcs⟩
  · rw [Recorder.bytes, hnone]
    exact (List.append_nil _).symm
  · have hdevice := LineBuffered.taken_device_of_flushed (b := LineBuffered.mk device #[]) h cs
    rw [Recorder.bytes, hcs, hdevice, LineBuffered.held, List.append_nil, List.flatMap_append]
    exact congrArg _ (List.append_nil _).symm

end Request

end Brainfuck
