/-
A sink that becomes full cuts a run. Beside it stands the same run on a sink that never fails. As long as what was
written fits, both stand at the same configuration and have gained the same bytes (`Beside`). The first instruction
whose bytes do not fit ends the run on the full sink (`Overflow`): what fits of them is taken, and nothing is executed
after it.

Main statement: `full_sink_cuts_run`, for every program, in both views, and for both ways in which a full device can
answer. Where the cut lies is told by `CutAtByte`:
- in the header of the table: the error points at the first position, and nothing was executed;
- in the program's own output: at the command that writes the byte, on the store it stands at;
- in a row of the table: at the instruction the row tells of, on the store that instruction leaves.
-/
import Mathlib.Tactic
import Brainfuck.Proofs.Brackets.Matching
import Brainfuck.Proofs.Execution.Writes
import Brainfuck.Sink.Piecemeal

namespace Brainfuck

open Sink

variable {σ τ : Type} [Sink σ] [Lawful σ] [Sink τ] [Lawful τ]

theorem Job.Decides.write_of_emitted {j : Job} {s : Store} {ip : Nat} {command : Command} {a : Action} {b : UInt8}
    (h : j.Decides s ip command a) (hb : a.emitted = some b) : command = .write ∧ b = s.cell ∧ s.apply a = s := by
  cases h with
  | write => cases hb; exact ⟨rfl, rfl, rfl⟩
  | _ => cases hb

namespace Config

/-! ## One advance -/

theorem advance_of_hasRoom {j : Job} {c : Config} {s : σ} {e : DeviceError} {room : Nat} {command : Command}
    {a : Action} (hs : HasRoom e room s) (ht : c.turn j = .performed command a) :
    ∃ s', c.advance j s = (c.apply a).afterWrite c.ip s'
        (if (c.shown j.view command a).length ≤ room then none else some e) ∧
      HasRoom e (room - (c.shown j.view command a).length) s' ∧
      taken s' = taken s ++ (c.shown j.view command a).take room := by
  rw [advance_eq, ht]
  cases j.view with
  | output =>
    cases hb : a.emitted with
    | none =>
      have hshown : c.shown .output command a = [] := by simp only [shown, hb, Option.toList_none]
      rw [hshown]
      exact ⟨s, by simp only [perform, hb]; rfl, hs, by simp⟩
    | some b =>
      have hshown : c.shown .output command a = [b] := by simp only [shown, hb, Option.toList_some]
      rw [hshown]
      exact ⟨(Sink.write s [b]).sink, by simp only [perform, hb, hs.failure_write], hs.write [b], hs.taken_write [b]⟩
  | table =>
    exact ⟨(Sink.writeLine s (c.row command a).text).1, by simp only [perform, hs.failure_writeLine]; rfl,
      hs.writeLine _, hs.taken_writeLine _⟩

/-- a sink with room beside one that never fails; from `narrow` and `wide` on both have gained `out`, which fits -/
structure Beside (e : DeviceError) (room : Nat) (narrow wide out : List UInt8) (s : σ) (t : τ) : Prop where
  hasRoom : HasRoom e (room - out.length) s
  neverFails : NeverFails t
  fits : out.length ≤ room
  narrow_taken : taken s = narrow ++ out
  wide_taken : taken t = wide ++ out

variable {e : DeviceError} {room : Nat} {narrow wide out : List UInt8} {s : σ} {t : τ} {j : Job} {c : Config}
  {command : Command} {a : Action}

/-- an instruction whose bytes fit goes through on both sinks -/
theorem Beside.advance_of_fits (h : Beside e room narrow wide out s t) (ht : c.turn j = .performed command a)
    (hfits : (out ++ c.shown j.view command a).length ≤ room) :
    ∃ s' t', c.advance j s = .running (c.apply a) s' ∧ c.advance j t = .running (c.apply a) t' ∧
      Beside e room narrow wide (out ++ c.shown j.view command a) s' t' := by
  obtain ⟨s', hs, hroom, htaken⟩ := advance_of_hasRoom h.hasRoom ht
  obtain ⟨t', hadv, hnever, htaken'⟩ := advance_performed h.neverFails ht
  rw [List.length_append] at hfits
  rw [if_pos (by omega)] at hs
  refine ⟨s', t', hs, hadv, ?_, hnever, by rwa [List.length_append], ?_, ?_⟩
  · rwa [List.length_append, ← Nat.sub_sub]
  · rw [htaken, h.narrow_taken, List.take_of_length_le (by omega), List.append_assoc]
  · rw [htaken', h.wide_taken, List.append_assoc]

/-- one whose bytes do not fit ends the run on the sink with room -/
theorem Beside.advance_of_exceeds (h : Beside e room narrow wide out s t) (ht : c.turn j = .performed command a)
    (hexceeds : room < (out ++ c.shown j.view command a).length) :
    ∃ s' t', c.advance j s = .ended (c.apply a) s' (.error (.notWritten c.ip e)) ∧
      taken s' = narrow ++ (out ++ c.shown j.view command a).take room ∧
      c.advance j t = .running (c.apply a) t' ∧ taken t' = wide ++ (out ++ c.shown j.view command a) := by
  obtain ⟨s', hs, -, htaken⟩ := advance_of_hasRoom h.hasRoom ht
  obtain ⟨t', hadv, -, htaken'⟩ := advance_performed h.neverFails ht
  have hfits := h.fits
  rw [List.length_append] at hexceeds
  rw [if_neg (by omega)] at hs
  refine ⟨s', t', hs, ?_, hadv, ?_⟩
  · rw [htaken, h.narrow_taken, List.take_append, List.take_of_length_le hfits, List.append_assoc]
  · rw [htaken', h.wide_taken, List.append_assoc]

/-! ## Runs of any length -/

/-- instruction `n` of the run from `c`, at `d`, is the first whose bytes do not fit behind `out`; `all` is what the run
writes in the end -/
structure Overflow (j : Job) (e : DeviceError) (room : Nat) (narrow wide all : List UInt8) (c : Config) (s : σ) (t : τ)
    (n : Nat) (d : Config) (command : Command) (a : Action) (out : List UInt8) : Prop where
  turn : d.turn j = .performed command a
  before : ∃ u, c.runFor j n t = .running d u ∧ taken u = wide ++ out
  after : ∃ u, c.runFor j (n + 1) t = .running (d.apply a) u ∧ taken u = wide ++ (out ++ d.shown j.view command a)
  fits : out.length ≤ room
  exceeds : room < out.length + (d.shown j.view command a).length
  ended : ∃ s', c.runFor j (n + 1) s = .ended (d.apply a) s' (.error (.notWritten d.ip e)) ∧
    taken s' = narrow ++ all.take room

theorem Overflow.of_advance {all out : List UInt8} {c' d : Config} {s' : σ} {t' : τ} {n : Nat}
    (hs : c.advance j s = .running c' s') (ht : c.advance j t = .running c' t')
    (h : Overflow j e room narrow wide all c' s' t' n d command a out) :
    Overflow j e room narrow wide all c s t (n + 1) d command a out := by
  refine ⟨h.turn, ?_, ?_, h.fits, h.exceeds, ?_⟩
  · rw [runFor_of_advance ht]
    exact h.before
  · rw [runFor_of_advance ht]
    exact h.after
  · rw [runFor_of_advance hs]
    exact h.ended

/-- what both runs come to, when the one on the sink that never fails ends after writing `all` -/
structure Comparison (j : Job) (e : DeviceError) (room : Nat) (narrow wide all : List UInt8) (c : Config) (s : σ)
    (t : τ) (n : Nat) (c' : Config) (o : Outcome) : Prop where
  kept : all.length ≤ room → ∃ s', c.runFor j n s = .ended c' s' o ∧ taken s' = narrow ++ all
  cut : room < all.length → ∃ k d command a out, k < n ∧ Overflow j e room narrow wide all c s t k d command a out

theorem Comparison.of_advance {all : List UInt8} {c' d : Config} {s' : σ} {t' : τ} {n : Nat} {o : Outcome}
    (hs : c.advance j s = .running d s') (ht : c.advance j t = .running d t')
    (h : Comparison j e room narrow wide all d s' t' n c' o) :
    Comparison j e room narrow wide all c s t (n + 1) c' o := by
  refine ⟨fun hfits => ?_, fun hlt => ?_⟩
  · rw [runFor_of_advance hs]
    exact h.kept hfits
  · obtain ⟨k, d, command, a, out, hk, hover⟩ := h.cut hlt
    exact ⟨k + 1, d, command, a, out, Nat.succ_lt_succ hk, hover.of_advance hs ht⟩

/-- the first instruction whose bytes do not fit is the overflow, however the run on the other sink goes on -/
theorem Beside.comparison_of_exceeds (h : Beside e room narrow wide out s t) (ht : c.turn j = .performed command a)
    (hexceeds : room < (out ++ c.shown j.view command a).length) {n : Nat} {c' : Config} {t' : τ} {o : Outcome}
    (hrun : c.runFor j (n + 1) t = .ended c' t' o) :
    ∃ all, taken t' = wide ++ all ∧ Comparison j e room narrow wide all c s t (n + 1) c' o := by
  obtain ⟨s', u, hs, htaken, hu, htaken'⟩ := h.advance_of_exceeds ht hexceeds
  rw [runFor_of_advance hu] at hrun
  obtain ⟨rest, hrest⟩ := exists_added hrun
  have hall : taken t' = wide ++ (out ++ c.shown j.view command a ++ rest) := by
    rw [hrest, htaken', List.append_assoc]
  have htake : (out ++ c.shown j.view command a ++ rest).take room = (out ++ c.shown j.view command a).take room :=
    List.take_append_of_le_length hexceeds.le
  refine ⟨_, hall, fun hle => ?_, fun _ => ⟨0, c, command, a, out, n.succ_pos, ?_⟩⟩
  · rw [List.length_append] at hle
    omega
  · exact ⟨ht, ⟨t, rfl, h.wide_taken⟩, ⟨u, runFor_of_advance hu 0, htaken'⟩, h.fits,
      by rwa [← List.length_append], ⟨s', runFor_of_ended hs 0, by rw [htake]; exact htaken⟩⟩

/-- **The run on the sink that never fails is followed up to its end, or to the first instruction that does not fit.**
-/
theorem Beside.runFor (h : Beside e room narrow wide out s t) {n : Nat} {c' : Config} {t' : τ} {o : Outcome}
    (hrun : c.runFor j n t = .ended c' t' o) :
    ∃ all, taken t' = wide ++ all ∧ Comparison j e room narrow wide all c s t n c' o := by
  induction n generalizing c s t out with
  | zero => cases hrun
  | succ n ih =>
    rcases c.performs_or_ends j with ⟨command, a, hturn⟩ | ⟨d, o', -, hadv⟩
    · rcases Nat.lt_or_ge room (out ++ c.shown j.view command a).length with hlt | hle
      · exact h.comparison_of_exceeds hturn hlt hrun
      · obtain ⟨s', u, hs, hu, hbeside⟩ := h.advance_of_fits hturn hle
        rw [runFor_of_advance hu] at hrun
        obtain ⟨all, hall, hcomparison⟩ := ih hbeside hrun
        exact ⟨all, hall, hcomparison.of_advance hs hu⟩
    -- without an instruction both end at once, having written the same
    · rw [runFor_of_ended (hadv t)] at hrun
      cases hrun
      exact ⟨out, h.wide_taken, fun _ => ⟨s, runFor_of_ended (hadv s) n, h.narrow_taken⟩,
        fun hlt => absurd h.fits (Nat.not_le.2 hlt)⟩

end Config

/-! ## Whole runs -/

namespace Interpreter

open Config

theorem writeLines_of_hasRoom {e : DeviceError} {room : Nat} {s : σ} (hs : HasRoom e room s) (ls : List (List Char)) :
    ∃ s', writeLines s ls = (s', if (Text.encode (ls.flatMap (· ++ ['\n']))).length ≤ room then none else some e) ∧
      HasRoom e (room - (Text.encode (ls.flatMap (· ++ ['\n']))).length) s' ∧
      taken s' = taken s ++ (Text.encode (ls.flatMap (· ++ ['\n']))).take room := by
  induction ls generalizing s room with
  | nil => exact ⟨s, rfl, hs, by simp⟩
  | cons l ls ih =>
    have hfailure := hs.failure_writeLine l
    have htaken := hs.taken_writeLine l
    have hroom := hs.writeLine l
    rw [List.flatMap_cons, Text.encode_append, List.length_append, List.take_append, ← Nat.sub_sub, ← List.append_assoc,
      ← htaken, writeLines]
    generalize Text.encode (l ++ ['\n']) = bs at *
    rcases hw : Sink.writeLine s l with ⟨s', failure⟩
    rw [hw] at hfailure hroom
    simp only at hfailure hroom
    subst hfailure
    by_cases hfits : bs.length ≤ room
    · obtain ⟨s'', hrest, hroom', htaken'⟩ := ih hroom
      refine ⟨s'', ?_, hroom', htaken'⟩
      have hiff : bs.length + (Text.encode (ls.flatMap (· ++ ['\n']))).length ≤ room ↔
          (Text.encode (ls.flatMap (· ++ ['\n']))).length ≤ room - bs.length := by omega
      simp only [if_pos hfits, hrest, hiff]
    · have hnone : room - bs.length = 0 := by omega
      rw [hnone] at hroom ⊢
      rw [if_neg hfits, if_neg (by omega), List.take_zero, List.append_nil, Nat.zero_sub]
      exact ⟨s', rfl, hroom, rfl⟩

theorem launch_of_hasRoom {i : Interpreter} {m : Matching} (hm : Matching.ofProgram i.program = .ok m)
    {e : DeviceError} {room : Nat} {s : σ} (hs : HasRoom e room s) (view : View) (journal : Journal) :
    ∃ s', i.launch view s journal = ⟨i.job m view, (i.start journal).afterWrite 0 s'
        (if (preambleBytes view).length ≤ room then none else some e)⟩ ∧
      HasRoom e (room - (preambleBytes view).length) s' ∧ taken s' = taken s ++ (preambleBytes view).take room := by
  obtain ⟨s', hw, hroom, htaken⟩ := writeLines_of_hasRoom hs (preamble view)
  refine ⟨s', ?_, hroom, htaken⟩
  simp only [launch, hm, hw]
  rfl

/-- instruction `n` (from 0) of the run on `t` stands at `c`, writes `bs` behind `out`, and leaves the run at `c'` -/
structure WritesAt (i : Interpreter) (view : View) (t : τ) (journal : Journal) (n : Nat) (c : Config)
    (out bs : List UInt8) (c' : Config) : Prop where
  before : ∃ u, i.Reaches n view t journal c u ∧ taken u = taken t ++ out
  after : ∃ u, i.Reaches (n + 1) view t journal c' u ∧ taken u = taken t ++ (out ++ bs)

/-- how a run ends that is cut at byte `l` of what it writes on `t`: after how many advances, with which outcome and on
which store -/
inductive CutAtByte (i : Interpreter) (t : τ) (journal : Journal) (l : Nat) (e : DeviceError) :
    View → Nat → Outcome → Store → Prop
  /-- the byte belongs to the header -/
  | header (hl : l < (preambleBytes .table).length) :
      CutAtByte i t journal l e .table 0 (.error (.notWritten 0 e)) i.freshStore
  /-- the byte is written by the command at `c`, which has no effect of its own -/
  | byte {n : Nat} {c c' : Config} {out : List UInt8} (hw : i.WritesAt .output t journal n c out [c.store.cell] c')
      (hcommand : i.program[c.ip]? = some .write) (hl : out.length = l) :
      CutAtByte i t journal l e .output (n + 1) (.error (.notWritten c.ip e)) c.store
  /-- the byte belongs to the row of the instruction at `c`, which has taken effect -/
  | row {n : Nat} {c : Config} {out : List UInt8} {command : Command} {a : Action}
      (hw : i.WritesAt .table t journal n c out (Text.encode ((c.row command a).text ++ ['\n'])) (c.apply a))
      (hcommand : i.program[c.ip]? = some command) (hle : out.length ≤ l)
      (hlt : l < out.length + (Text.encode ((c.row command a).text ++ ['\n'])).length) :
      CutAtByte i t journal l e .table (n + 1) (.error (.notWritten c.ip e)) (c.apply a).store

omit [Lawful σ] in
theorem cutAtByte_of_header {i : Interpreter} {m : Matching} {view : View} {e : DeviceError} {l : Nat} {s s₀ : σ}
    (t : τ) {journal : Journal}
    (hs : i.launch view s journal = ⟨i.job m view, (i.start journal).afterWrite 0 s₀ (some e)⟩)
    (hl : l < (preambleBytes view).length) :
    ∃ f, (∀ n, i.run n view s journal = some f) ∧ f.sink = s₀ ∧
      i.CutAtByte t journal l e view 0 f.outcome f.interpreter.store := by
  have hend : ∀ n, (i.launch view s journal).runFor n = .ended (i.start journal) s₀ (.error (.notWritten 0 e)) :=
    fun n => by rw [hs]; rfl
  refine ⟨_, fun n => (endsIn_of_progress (hend n)).run, rfl, ?_⟩
  cases view with
  | output => exact absurd hl (Nat.not_lt_zero l)
  | table => exact .header hl

/-- an instruction that does not fit is where the run is cut -/
theorem cutAtByte_of_overflow {i : Interpreter} {m : Matching} {view : View} {e : DeviceError} {room n : Nat} {s s₀ : σ}
    {t t₀ : τ} {journal : Journal} {all out : List UInt8} {d : Config} {command : Command} {a : Action}
    (hs : i.launch view s journal = ⟨i.job m view, .running (i.start journal) s₀⟩)
    (ht : i.launch view t journal = ⟨i.job m view, .running (i.start journal) t₀⟩)
    (h : Overflow (i.job m view) e room (taken s) (taken t) all (i.start journal) s₀ t₀ n d command a out) :
    ∃ f, i.run (n + 1) view s journal = some f ∧ taken f.sink = taken s ++ all.take room ∧
      i.CutAtByte t journal room e view (n + 1) f.outcome f.interpreter.store := by
  obtain ⟨s', hended, htaken⟩ := h.ended
  obtain ⟨u, hu, hutaken⟩ := h.before
  obtain ⟨u', hu', hutaken'⟩ := h.after
  obtain ⟨hcommand, -, hdecide⟩ := turn_eq_performed h.turn
  have hsl : (i.launch view s journal).runFor (n + 1) = .ended (d.apply a) s' (.error (.notWritten d.ip e)) := by
    rw [hs]
    exact hended
  have hreaches : i.Reaches n view t journal d u := by
    rw [Reaches, ht]
    exact hu
  have hreaches' : i.Reaches (n + 1) view t journal (d.apply a) u' := by
    rw [Reaches, ht]
    exact hu'
  refine ⟨_, (endsIn_of_progress hsl).run, htaken, ?_⟩
  have hfits := h.fits
  have hexceeds := h.exceeds
  cases view with
  | output =>
    cases hb : a.emitted with
    | none => simp [shown, job, hb] at hexceeds; omega
    | some b =>
      obtain ⟨rfl, rfl, hstore⟩ := (Job.decides_of_decide hdecide).write_of_emitted hb
      have hshown : d.shown .output .write a = [d.store.cell] := by simp only [shown, hb, Option.toList_some]
      simp only [job, hshown, List.length_singleton] at hexceeds hutaken'
      simp only [apply, hstore]
      exact .byte ⟨⟨u, hreaches, hutaken⟩, u', hreaches', hutaken'⟩ hcommand (by omega)
  | table => exact .row ⟨⟨u, hreaches, hutaken⟩, u', hreaches', hutaken'⟩ hcommand hfits hexceeds

/-- what a run that writes `out` on `t`, and ends in `g`, comes to on `s`, which has room for `l` bytes -/
structure Truncates (i : Interpreter) (e : DeviceError) (l : Nat) (s : σ) (t : τ) (fuel : Nat) (view : View)
    (journal : Journal) (f : Finished σ) (g : Finished τ) (out : List UInt8) : Prop where
  /-- it ends too -/
  run : i.run fuel view s journal = some f
  output : taken g.sink = taken t ++ out
  /-- and the first `l` bytes are taken -/
  truncated : taken f.sink = taken s ++ out.take l
  /-- output that fits changes nothing -/
  kept : out.length ≤ l → f.outcome = g.outcome ∧ f.interpreter = g.interpreter
  /-- output that does not fit ends the run at the first byte for which there is no room -/
  cut : l < out.length → ∃ n, i.run n view s journal = some f ∧
    i.CutAtByte t journal l e view n f.outcome f.interpreter.store

section Truncation

variable {i : Interpreter} {m : Matching} {e : DeviceError} {l fuel : Nat} {view : View} {s : σ} {t : τ}
  {journal : Journal} {g : Finished τ}

theorem truncates_of_header (hm : Matching.ofProgram i.program = .ok m) (hs : HasRoom e l s) (ht : NeverFails t)
    (hg : i.run fuel view t journal = some g) (hlt : l < (preambleBytes view).length) :
    ∃ f out, i.Truncates e l s t fuel view journal f g out := by
  obtain ⟨t₀, htl, -, htaken⟩ := launch_of_neverFails hm ht view journal
  obtain ⟨s₀, hsl, -, hstaken⟩ := launch_of_hasRoom hm hs view journal
  rw [if_neg (Nat.not_le.2 hlt)] at hsl
  obtain ⟨f, hf, hsink, hcut⟩ := cutAtByte_of_header t hsl hlt
  obtain ⟨c, hc⟩ := exists_endsIn hg
  have hrun := hc.progress
  rw [htl] at hrun
  obtain ⟨rest, hrest⟩ := exists_added (j := i.job m view) (c := i.start journal) hrun
  refine ⟨f, preambleBytes view ++ rest, hf fuel, ?_, ?_, fun hle => ?_, fun _ => ⟨0, hf 0, hcut⟩⟩
  · rw [hrest, htaken, List.append_assoc]
  · rw [List.take_append_of_le_length hlt.le, hsink]
    exact hstaken
  · rw [List.length_append] at hle
    omega

theorem truncates_of_instructions (hm : Matching.ofProgram i.program = .ok m) (hs : HasRoom e l s) (ht : NeverFails t)
    (hg : i.run fuel view t journal = some g) (hle : (preambleBytes view).length ≤ l) :
    ∃ f out, i.Truncates e l s t fuel view journal f g out := by
  obtain ⟨t₀, htl, hnever, htaken⟩ := launch_of_neverFails hm ht view journal
  obtain ⟨s₀, hsl, hroom, hstaken⟩ := launch_of_hasRoom hm hs view journal
  rw [if_pos hle] at hsl
  rw [List.take_of_length_le hle] at hstaken
  obtain ⟨c, hc⟩ := exists_endsIn hg
  have hrun := hc.progress
  rw [htl] at hrun
  have hbeside : Beside e l (taken s) (taken t) (preambleBytes view) s₀ t₀ := ⟨hroom, hnever, hle, hstaken, htaken⟩
  obtain ⟨out, hout, hcomparison⟩ := hbeside.runFor hrun
  rcases Nat.lt_or_ge l out.length with hlt | hfits
  · obtain ⟨k, d, command, a, pre, hk, hover⟩ := hcomparison.cut hlt
    obtain ⟨f, hf, hftaken, hcut⟩ := cutAtByte_of_overflow hsl htl hover
    obtain ⟨c', hc'⟩ := exists_endsIn hf
    exact ⟨f, out, (hc'.mono hk).run, hout, hftaken, fun hle => absurd hlt (Nat.not_lt.2 hle),
      fun _ => ⟨k + 1, hf, hcut⟩⟩
  · obtain ⟨s', hended, hstaken'⟩ := hcomparison.kept hfits
    have hprogress : (i.launch view s journal).runFor fuel = .ended c s' g.outcome := by
      rw [hsl]
      exact hended
    refine ⟨_, out, (endsIn_of_progress hprogress).run, hout, ?_, fun _ => ⟨rfl, hc.interpreter.symm⟩,
      fun hlt => absurd hlt (Nat.not_lt.2 hfits)⟩
    rw [List.take_of_length_le hfits]
    exact hstaken'

end Truncation

/-- **A sink that becomes full cuts the run at the byte that does not fit**, in either view. Let the run on a sink that
never fails end, and write `out`. On a sink with room for `l` bytes it ends too, and the sink has taken the first `l`
bytes of `out`. If that is all of it, the outcome and the interpreter left behind are the same. If not, the outcome is
the full sink's failure, at the instruction that byte `l` comes from, and nothing is executed after it. -/
theorem full_sink_cuts_run (i : Interpreter) {r : Device.Refusal} {l : Nat} {s : σ} {t : τ} (hs : HasRoom r.cause l s)
    (ht : NeverFails t) {fuel : Nat} {view : View} {journal : Journal} {g : Finished τ}
    (hg : i.run fuel view t journal = some g) : ∃ f out, i.Truncates r.cause l s t fuel view journal f g out := by
  cases hm : Matching.ofProgram i.program with
  | error err =>
    rw [run_of_mismatch hm] at hg
    obtain rfl := Option.some.inj hg
    exact ⟨_, [], run_of_mismatch hm fuel view s journal, by simp, by simp, fun _ => ⟨rfl, rfl⟩,
      fun hl => absurd hl (Nat.not_lt_zero l)⟩
  | ok m =>
    rcases Nat.lt_or_ge l (preambleBytes view).length with hlt | hle
    · exact truncates_of_header hm hs ht hg hlt
    · exact truncates_of_instructions hm hs ht hg hle

/-- a program that writes two bytes -/
def twoBytes : Interpreter := ⟨.ofText "+.+.".toList, #[], none, .blank 1⟩

/-- a sink that takes one byte and then no more -/
def roomForOne : Quota := { limit := some 1, refusal := .tookNothing }

/-- two bytes for a sink that takes one and then nothing: the second command that writes is the one that fails -/
theorem full_sink_cuts_run_second_byte :
    HasRoom Device.Refusal.takesNothing.cause 1 roomForOne ∧ NeverFails Quota.unlimited ∧
      ∃ f, twoBytes.run 5 .output roomForOne .silent = some f ∧ taken f.sink = [1] ∧
        f.outcome = .error (.notWritten 3 .tookNothing) ∧
        ∃ n, twoBytes.CutAtByte Quota.unlimited .silent 1 .tookNothing .output n f.outcome f.interpreter.store := by
  have hroom : HasRoom Device.Refusal.takesNothing.cause 1 roomForOne := Quota.hasRoom (q := roomForOne) rfl rfl
  obtain ⟨g, hg⟩ : ∃ g, twoBytes.run 5 .output Quota.unlimited .silent = some g := ⟨_, rfl⟩
  obtain ⟨f, out, hf, hout, htaken, -, hcut⟩ := full_sink_cuts_run twoBytes hroom Quota.neverFails_unlimited hg
  have hgtaken : (twoBytes.run 5 .output Quota.unlimited .silent).map (fun g => taken g.sink) = some [1, 2] := by decide
  have houtcome : (twoBytes.run 5 .output roomForOne .silent).map Finished.outcome =
      some (.error (.notWritten 3 .tookNothing)) := by rfl
  rw [hg] at hgtaken
  rw [hf] at houtcome
  obtain rfl : out = [1, 2] := hout.symm.trans (Option.some.inj hgtaken)
  obtain ⟨n, -, hbyte⟩ := hcut (by decide)
  exact ⟨hroom, Quota.neverFails_unlimited, f, hf, htaken, Option.some.inj houtcome, n, hbyte⟩

end Interpreter

end Brainfuck
