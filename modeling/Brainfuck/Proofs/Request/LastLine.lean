/-
How a request ends its output. The run writes through a sink that remembers the last byte let through; this changes
nothing of the run (`run_tracked`), and what is remembered is the last byte of all that the run had taken
(`exists_remembered`), be it remembered after whole writes or after each offer to a device (`Tracked.write_eq`). So a
line feed is offered exactly where one is missing, and then the sink is flushed.

Main statement: `fulfil_ends_output`, for every sink, view and number of advances. Of the three failures that compete
the line feed's comes first, then the flush's, then the run's own. A missing line feed that cannot be written leaves
the sink unflushed; in every other case it is flushed once. A request that does not fail on its sink leaves no unended
line.
-/
import Mathlib.Tactic
import Brainfuck.Proofs.Execution.Writes
import Brainfuck.Request
import Brainfuck.Sink.Piecemeal

namespace Brainfuck

open Sink

/-- something was written, and its last line is not ended -/
def Unended (out : List UInt8) : Prop := out ≠ [] ∧ out.getLast? ≠ some Text.lineFeed

instance (out : List UInt8) : Decidable (Unended out) := inferInstanceAs (Decidable (_ ∧ _))

theorem not_unended_snoc (out : List UInt8) : ¬ Unended (out ++ [Text.lineFeed]) := fun h => h.2 (by simp)

/-! ## The byte that is remembered -/

namespace Tracked

/-- a line feed is missing exactly where the output behind the remembered byte is unended -/
theorem lacksNewline_iff {σ : Type} {t : Tracked σ} {out : List UInt8} (h : t.last = out.getLast?) :
    t.lacksNewline = true ↔ Unended out := by
  rw [lacksNewline, h, Unended]
  cases hl : out.getLast? with
  | none => simp [List.getLast?_eq_none_iff.1 hl]
  | some b =>
    have hne : out ≠ [] := by rintro rfl; cases hl
    simp [hne]

variable {σ : Type} [Sink σ]

theorem shows_inner : Shows (Tracked.inner : Tracked σ → σ) := ⟨fun _ _ => rfl, fun _ _ => rfl⟩

variable [Lawful σ]

theorem last_write {t : Tracked σ} {before out : List UInt8} (htaken : taken t.inner = before ++ out)
    (hlast : t.last = out.getLast?) (bs : List UInt8) :
    ∃ out', taken (Sink.write t bs).sink.inner = before ++ out' ∧ (Sink.write t bs).sink.last = out'.getLast? := by
  refine ⟨out ++ bs.take (Sink.write t.inner bs).count, ?_, ?_⟩
  · change taken (Sink.write t.inner bs).sink = _
    rw [Lawful.taken_write, htaken, List.append_assoc]
  · change (bs.take (Sink.write t.inner bs).count).getLast?.or t.last = _
    rw [hlast, List.getLast?_append]

/-- behind all the writes of a run the last byte of what was taken is remembered -/
theorem exists_remembered {s : σ} {t : Tracked σ} (h : OnlyWritten ⟨s, none⟩ t) :
    ∃ out, taken t.inner = taken s ++ out ∧ t.last = out.getLast? := by
  obtain ⟨bss, rfl⟩ := h
  have hall : ∀ (bss : List (List UInt8)) (t : Tracked σ) (out : List UInt8), taken t.inner = taken s ++ out →
      t.last = out.getLast? → ∃ out', taken (writeAll t bss).inner = taken s ++ out' ∧
        (writeAll t bss).last = out'.getLast? := by
    intro bss
    induction bss with
    | nil => exact fun t out htaken hlast => ⟨out, htaken, hlast⟩
    | cons bs bss ih =>
      intro t out htaken hlast
      obtain ⟨out', htaken', hlast'⟩ := last_write htaken hlast bs
      exact ih _ out' htaken' hlast'
  exact hall bss ⟨s, none⟩ [] (List.append_nil _).symm rfl

end Tracked

/-! ## The end of the output -/

/-- a sink on which a flush takes no bytes -/
class Sink.LawfulFlush (σ : Type) [Sink σ] [Lawful σ] : Prop where
  taken_flush (s : σ) : taken (flush s).1 = taken s

instance : LawfulFlush Quota := ⟨fun _ => rfl⟩

instance {δ : Type} [Device δ] [Device.Lawful δ] : LawfulFlush (Piecemeal δ) :=
  ⟨fun p => Device.Lawful.taken_flush p.device⟩

section Ending

variable {σ : Type} [Sink σ]

/-- what a sink can be asked to do -/
inductive Call where
  | write (bs : List UInt8)
  | flush
  deriving DecidableEq, Repr

/-- `log` is a record that the sink keeps of its calls -/
structure Logs (log : σ → List Call) : Prop where
  write (s : σ) (bs : List UInt8) : log (Sink.write s bs).sink = log s ++ [.write bs]
  flush (s : σ) : log (Sink.flush s).1 = log s ++ [.flush]

/-- the line feed that ends `out`, where it is missing -/
def endLine (s : σ) (out : List UInt8) : Written σ :=
  if Unended out then write s [Text.lineFeed] else ⟨s, 0, none⟩

/-- the result of a request: its sink's failure, or else the outcome of its run -/
def resultOf (o : Outcome) : Option DeviceError → Except Failure Unit
  | some e => .error (.device e)
  | none =>
    match o with
    | .ok _ => .ok ()
    | .error e => .error (.run e)

/-- how a request ends the output `out` of its run `f` -/
structure EndsOutput [Lawful σ] (sink : σ) (f : Finished σ) (out : List UInt8) (x : Fulfilled σ) : Prop where
  /-- the run did nothing to the sink but write `out` -/
  wrote : OnlyWritten sink f.sink
  output : taken f.sink = taken sink ++ out
  /-- a line feed that cannot be written is the result, and nothing follows it -/
  unended : ∀ e, (endLine f.sink out).failure = some e →
    x.sink = (endLine f.sink out).sink ∧ x.result = .error (.device e)
  /-- otherwise a flush follows, and its failure comes before the run's outcome -/
  flushed : (endLine f.sink out).failure = none → x.sink = (flush (endLine f.sink out).sink).1 ∧
    x.result = resultOf f.outcome (flush (endLine f.sink out).sink).2
  /-- a sink that records its calls has after the run's writes a missing line feed, and one flush unless that failed -/
  calls : ∀ log : σ → List Call, Logs log → ∃ bss : List (List UInt8), log f.sink = log sink ++ bss.map .write ∧
    log x.sink = log f.sink ++ (if Unended out then [.write [Text.lineFeed]] else []) ++
      if (endLine f.sink out).failure = none then [.flush] else []
  /-- besides the output of the run no more than a missing line feed is taken -/
  accepted : taken x.sink = taken sink ++ out ∨
    Unended out ∧ taken x.sink = taken sink ++ (out ++ [Text.lineFeed])
  /-- a request that does not fail on its sink leaves no unended line -/
  ended : x.result = .ok () ∨ (∃ e, x.result = .error (.run e)) →
    ∃ all, taken x.sink = taken sink ++ all ∧ ¬ Unended all

theorem Logs.writeAll {log : σ → List Call} (h : Logs log) (s : σ) (bss : List (List UInt8)) :
    log (Sink.writeAll s bss) = log s ++ bss.map .write := by
  induction bss generalizing s with
  | nil => exact (List.append_nil _).symm
  | cons bs bss ih =>
    have hrest := ih (Sink.write s bs).sink
    rw [h.write, List.append_assoc] at hrest
    exact hrest

theorem Logs.endLine {log : σ → List Call} (h : Logs log) (s : σ) (out : List UInt8) :
    log (endLine s out).sink = log s ++ if Unended out then [.write [Text.lineFeed]] else [] := by
  unfold Brainfuck.endLine
  split
  · exact h.write s _
  · exact (List.append_nil _).symm

/-- of the line feed all or nothing is taken, and all unless it fails -/
theorem taken_endLine [Lawful σ] (s : σ) (out : List UInt8) :
    (taken (endLine s out).sink = taken s ∧ (Unended out → (endLine s out).failure ≠ none)) ∨
      (Unended out ∧ taken (endLine s out).sink = taken s ++ [Text.lineFeed]) := by
  unfold endLine
  by_cases h : Unended out
  · rw [if_pos h, Lawful.taken_write]
    -- a write that counts nothing has failed, since it was offered a byte
    cases hc : (write s [Text.lineFeed]).count with
    | zero =>
      refine Or.inl ⟨by simp, fun _ hnone => ?_⟩
      rw [Lawful.count_write s _ hnone] at hc
      cases hc
    | succ n => exact Or.inr ⟨h, by simp⟩
  · rw [if_neg h]
    exact Or.inl ⟨rfl, fun h' => absurd h' h⟩

/-- the sink's own end of the output, told by the output -/
theorem finish_eq {t : Tracked σ} {out : List UInt8} (h : t.last = out.getLast?) :
    t.finish = match (endLine t.inner out).failure with
      | some e => ((endLine t.inner out).sink, some e)
      | none => flush (endLine t.inner out).sink := by
  have hiff := Tracked.lacksNewline_iff h
  unfold Tracked.finish endLine
  by_cases hu : Unended out
  · rw [if_pos (hiff.2 hu), if_pos hu]
    rcases write t.inner [Text.lineFeed] with ⟨s, count, failure⟩
    cases failure <;> rfl
  · rw [if_neg (fun hl => hu (hiff.1 hl)), if_neg hu]

variable [Lawful σ] [LawfulFlush σ] {sink : σ} {f : Finished σ} {out : List UInt8} {x : Fulfilled σ}

/-- what the line feed and the flush do accounts for all the rest -/
theorem EndsOutput.of_end (wrote : OnlyWritten sink f.sink) (output : taken f.sink = taken sink ++ out)
    (unended : ∀ e, (endLine f.sink out).failure = some e →
      x.sink = (endLine f.sink out).sink ∧ x.result = .error (.device e))
    (flushed : (endLine f.sink out).failure = none → x.sink = (flush (endLine f.sink out).sink).1 ∧
      x.result = resultOf f.outcome (flush (endLine f.sink out).sink).2) : EndsOutput sink f out x := by
  have htaken : taken x.sink = taken (endLine f.sink out).sink := by
    cases hw : (endLine f.sink out).failure with
    | some e => rw [(unended e hw).1]
    | none => rw [(flushed hw).1, LawfulFlush.taken_flush]
  refine ⟨wrote, output, unended, flushed, fun log hlog => ?_, ?_, fun hresult => ?_⟩
  · obtain ⟨bss, hbss⟩ := wrote
    refine ⟨bss, by rw [hbss, hlog.writeAll], ?_⟩
    rw [← hlog.endLine]
    cases hw : (endLine f.sink out).failure with
    | some e => rw [(unended e hw).1]; simp
    | none => rw [(flushed hw).1, hlog.flush]; simp
  · rw [htaken]
    rcases taken_endLine f.sink out with ⟨h, -⟩ | ⟨hu, h⟩
    · exact Or.inl (h.trans output)
    · exact Or.inr ⟨hu, by rw [h, output, List.append_assoc]⟩
  · rw [htaken]
    have hnone : (endLine f.sink out).failure = none := by
      cases hw : (endLine f.sink out).failure with
      | none => rfl
      | some e =>
        rw [(unended e hw).2] at hresult
        rcases hresult with h | ⟨e', h⟩ <;> cases h
    rcases taken_endLine f.sink out with ⟨h, hu⟩ | ⟨hu, h⟩
    · exact ⟨out, h.trans output, fun h' => hu h' hnone⟩
    · exact ⟨out ++ [Text.lineFeed], by rw [h, output, List.append_assoc], not_unended_snoc out⟩

end Ending

namespace Request

variable {σ : Type} [Sink σ]

/-- **Remembering the last byte changes nothing of a run.** -/
theorem run_tracked (i : Interpreter) (fuel : Nat) (view : View) (s : σ) (journal : Journal) :
    i.run fuel view s journal = (i.run fuel view (Tracked.mk s none) journal).map (Finished.map Tracked.inner) :=
  Interpreter.run_map Tracked.shows_inner i fuel view ⟨s, none⟩ journal

theorem conclude_eq {c : Config} {t : Tracked σ} {o : Outcome} {s : σ} {failure : Option DeviceError}
    (h : t.finish = (s, failure)) : (conclude c t o).sink = s ∧ (conclude c t o).result = resultOf o failure := by
  unfold conclude
  rw [h]
  cases failure with
  | some e => exact ⟨rfl, rfl⟩
  | none => cases o <;> exact ⟨rfl, rfl⟩

theorem fulfil_eq {r : Request} {i : Interpreter} (hi : r.interpreter = .ok i) (fuel : Nat) (sink : σ)
    (journal : Journal) :
    r.fulfil fuel sink journal = match (i.launch r.view (Tracked.mk sink none) journal).runFor fuel with
      | .running .. => none
      | .ended c t o => some (conclude c t o) := by
  have hp : r.progress fuel sink journal = .ok ((i.launch r.view (Tracked.mk sink none) journal).runFor fuel) := by
    rw [progress, hi]
    rfl
  rw [fulfil, hp]
  cases (i.launch r.view (Tracked.mk sink none) journal).runFor fuel <;> rfl

variable [Lawful σ] [LawfulFlush σ]

theorem exists_endsOutput {sink : σ} {f : Finished (Tracked σ)} (h : OnlyWritten ⟨sink, none⟩ f.sink) (c : Config) :
    ∃ out, EndsOutput sink (f.map Tracked.inner) out (conclude c f.sink f.outcome) := by
  obtain ⟨out, htaken, hlast⟩ := Tracked.exists_remembered h
  have hfinish := finish_eq hlast
  refine ⟨out, .of_end (Tracked.shows_inner.onlyWritten h) htaken (fun e hw => ?_) (fun hw => ?_)⟩
  · have hw : (endLine f.sink.inner out).failure = some e := hw
    rw [hw] at hfinish
    exact conclude_eq hfinish
  · have hw : (endLine f.sink.inner out).failure = none := hw
    rw [hw] at hfinish
    exact conclude_eq hfinish

/-- **A request ends its output.** The run it makes is the run on the bare sink, and the request is fulfilled when that
run has ended. What the run wrote is then ended by a line feed where one is missing, and the sink is flushed. -/
theorem fulfil_ends_output {r : Request} {i : Interpreter} (hi : r.interpreter = .ok i) (fuel : Nat) (sink : σ)
    (journal : Journal) :
    i.run fuel r.view sink journal =
        (i.run fuel r.view (Tracked.mk sink none) journal).map (Finished.map Tracked.inner) ∧
      Option.Rel (fun f x => ∃ out, EndsOutput sink f out x) (i.run fuel r.view sink journal)
        (r.fulfil fuel sink journal) := by
  have htracked := run_tracked i fuel r.view sink journal
  refine ⟨htracked, ?_⟩
  rw [htracked, fulfil_eq hi]
  cases hp : (i.launch r.view (Tracked.mk sink none) journal).runFor fuel with
  | running c t =>
    rw [Interpreter.run, hp]
    exact .none
  | ended c t o =>
    have hrun := (Interpreter.endsIn_of_progress hp).run
    rw [hrun]
    exact .some (exists_endsOutput (Interpreter.onlyWritten_run hrun) c)

/-- two bytes are to be written, each followed by nothing -/
def twoBytes : Request := ⟨"+.+.".toList, [], Limits.unset.withCells ⟨1, by decide⟩, .output⟩

/-- a sink that takes one byte, refuses the next and takes all that come later -/
def pausing : Quota := { limit := some 1, patience := some 1 }

/-- the second byte is refused, but then the sink takes the line feed: the run's failure is the result, after a flush -/
theorem fulfil_ends_output_pausing :
    ∃ i f x, twoBytes.interpreter = .ok i ∧ i.run 5 .output pausing .silent = some f ∧
      twoBytes.fulfil 5 pausing .silent = some x ∧ (∃ out, EndsOutput pausing f out x) ∧
      x.result = .error (.run (.notWritten 3 pausing.refusal)) ∧ taken x.sink = [1, Text.lineFeed] ∧
      x.sink.flushes = 1 := by
  obtain ⟨i, hi⟩ : ∃ i, twoBytes.interpreter = .ok i := ⟨_, rfl⟩
  obtain ⟨x, hx⟩ : ∃ x, twoBytes.fulfil 5 pausing .silent = some x := ⟨_, rfl⟩
  have hall : (twoBytes.fulfil 5 pausing .silent).map (fun x => (x.result, taken x.sink, x.sink.flushes)) =
      some (.error (.run (.notWritten 3 pausing.refusal)), [1, Text.lineFeed], 1) := by rfl
  obtain ⟨-, hrel⟩ := fulfil_ends_output hi 5 pausing .silent
  rw [hx] at hrel hall
  simp only [Option.map_some, Option.some.injEq, Prod.mk.injEq] at hall
  obtain ⟨hresult, htaken, hflushes⟩ := hall
  generalize hf : i.run 5 twoBytes.view pausing .silent = o at hrel
  cases hrel with
  | some hends => exact ⟨i, _, x, hi, hf, hx, hends, hresult, htaken, hflushes⟩

end Request

end Brainfuck
