/-
Sinks told by the calls made to them. `callAll s cs` is the sink `s` after the calls `cs`; a sink that keeps a log of
its calls has then logged `cs`. A willing sink is one on which no call ever fails. `Recorder` is the plainest of them:
it takes everything and keeps nothing but its log. Every willing sink is a recorder seen through its log
(`mirrors_callAll`), so what a willing sink takes is what the recorder recorded (`taken_callAll`).
-/
import Mathlib.Tactic
import Brainfuck.Proofs.Request.LastLine

namespace Brainfuck

/-- the bytes a call offers -/
def Call.bytes : Call → List UInt8
  | .write bs => bs
  | .flush => []

namespace Sink

variable {σ τ : Type} [Sink σ] [Sink τ]

/-- the sink after one call -/
def call (s : σ) : Call → σ
  | .write bs => (write s bs).sink
  | .flush => (flush s).1

/-- the sink after several calls -/
def callAll (s : σ) (cs : List Call) : σ := cs.foldl call s

theorem callAll_append (s : σ) (cs cs' : List Call) : callAll s (cs ++ cs') = callAll (callAll s cs) cs' :=
  List.foldl_append

/-! ## Sinks on which nothing fails -/

/-- no call fails, whatever was called before -/
structure Willing (s : σ) : Prop where
  failure_write : ∀ cs bs, (write (callAll s cs) bs).failure = none
  failure_flush : ∀ cs, (flush (callAll s cs)).2 = none

namespace Willing

variable {s : σ}

theorem after (h : Willing s) (cs : List Call) : Willing (callAll s cs) where
  failure_write cs' := by rw [← callAll_append]; exact h.failure_write _
  failure_flush cs' := by rw [← callAll_append]; exact h.failure_flush _

theorem after_call (h : Willing s) (c : Call) : Willing (call s c) := h.after [c]

theorem neverFails (h : Willing s) : NeverFails s := by
  intro bss bs
  have hall : writeAll s bss = callAll s (bss.map .write) := by
    rw [writeAll, callAll, List.foldl_map]
    rfl
  rw [hall]
  exact h.failure_write _ bs

theorem count_write [Lawful σ] (h : Willing s) (bs : List UInt8) : (write s bs).count = bs.length :=
  Lawful.count_write s bs (h.failure_write [] bs)

theorem taken_callAll [Lawful σ] [LawfulFlush σ] (h : Willing s) (cs : List Call) :
    taken (callAll s cs) = taken s ++ cs.flatMap Call.bytes := by
  induction cs generalizing s with
  | nil => exact (List.append_nil _).symm
  | cons c cs ih =>
    have hfirst : taken (call s c) = taken s ++ c.bytes := by
      cases c with
      | write bs => exact h.neverFails.taken_write bs
      | flush => exact (LawfulFlush.taken_flush s).trans (List.append_nil _).symm
    rw [List.flatMap_cons, ← List.append_assoc, ← hfirst]
    exact ih (h.after_call c)

end Willing

/-! ## One sink seen as another, flushes included -/

/-- seen through `φ`, every call is the other sink's call -/
structure Mirrors (φ : σ → τ) : Prop where
  write : ∀ s bs, Sink.write (φ s) bs =
    ⟨φ (Sink.write s bs).sink, (Sink.write s bs).count, (Sink.write s bs).failure⟩
  flush : ∀ s, Sink.flush (φ s) = (φ (Sink.flush s).1, (Sink.flush s).2)

theorem Mirrors.shows {φ : σ → τ} (h : Mirrors φ) : Shows φ :=
  ⟨fun s bs => by rw [h.write], fun s bs => by rw [h.write]⟩

end Sink

open Sink

theorem Logs.callAll {σ : Type} [Sink σ] {log : σ → List Call} (h : Logs log) (s : σ) (cs : List Call) :
    log (Sink.callAll s cs) = log s ++ cs := by
  induction cs generalizing s with
  | nil => exact (List.append_nil _).symm
  | cons c cs ih =>
    have hfirst : log (call s c) = log s ++ [c] := by
      cases c with
      | write bs => exact h.write s bs
      | flush => exact h.flush s
    have hrest := ih (call s c)
    rw [hfirst, List.append_assoc] at hrest
    exact hrest

/-- a sink that takes everything and keeps a log of its calls -/
structure Recorder where
  calls : List Call := []
  deriving DecidableEq, Repr

namespace Recorder

instance : Sink Recorder where
  write r bs := ⟨⟨r.calls ++ [.write bs]⟩, bs.length, none⟩
  flush r := (⟨r.calls ++ [.flush]⟩, none)

/-- nothing recorded yet -/
def blank : Recorder := {}

/-- all bytes that were written -/
def bytes (r : Recorder) : List UInt8 := r.calls.flatMap Call.bytes

instance : Lawful Recorder where
  taken := bytes
  taken_write r bs := by
    change (r.calls ++ [Call.write bs]).flatMap Call.bytes = bytes r ++ bs.take bs.length
    rw [List.flatMap_append, List.take_length, bytes, List.flatMap_singleton]
    rfl
  count_write _ _ _ := rfl

instance : LawfulFlush Recorder where
  taken_flush r := by
    change (r.calls ++ [Call.flush]).flatMap Call.bytes = bytes r
    rw [List.flatMap_append, List.flatMap_singleton]
    exact List.append_nil _

theorem logs : Logs calls := ⟨fun _ _ => rfl, fun _ => rfl⟩

theorem willing (r : Recorder) : Willing r := ⟨fun _ _ => rfl, fun _ => rfl⟩

end Recorder

/-- **A willing sink is a recorder seen through its log.** -/
theorem Sink.Willing.mirrors_callAll {σ : Type} [Sink σ] [Lawful σ] {s : σ} (h : Willing s) :
    Mirrors fun r : Recorder => callAll s r.calls where
  write r bs := by
    have hsink : callAll s (r.calls ++ [.write bs]) = (Sink.write (callAll s r.calls) bs).sink := callAll_append ..
    have hcount := (h.after r.calls).count_write bs
    have hfailure := h.failure_write r.calls bs
    rcases hw : Sink.write (callAll s r.calls) bs with ⟨s', count, failure⟩
    rw [hw] at hsink hcount hfailure
    simp only at hsink hcount hfailure
    subst hcount hfailure
    change _ = Written.mk (callAll s (r.calls ++ [.write bs])) bs.length none
    rw [hsink]
  flush r := by
    have hsink : callAll s (r.calls ++ [.flush]) = (Sink.flush (callAll s r.calls)).1 := callAll_append ..
    have hfailure := h.failure_flush r.calls
    change _ = (callAll s (r.calls ++ [.flush]), none)
    rw [hsink, ← hfailure]

end Brainfuck
