/-
A line buffer loses nothing of what it is given and keeps it in order. What it holds (`held`) is what its device has
taken and, behind that, what waits. Whatever fails, a write adds to this the bytes it counts and a flush adds nothing,
so the buffer is a lawful sink. To its device it makes calls only, and fails only where one of them fails
(`passes_write`, `passes_flush`).

Main statements: over a willing device the buffer is willing (`willing_of_device`), and when it was last flushed the
device has all of it (`taken_device_of_flushed`).
-/
import Mathlib.Tactic
import Brainfuck.Proofs.Request.Calls
import Brainfuck.Sink.LineBuffered

namespace Brainfuck

open Sink

/-- a sink that never counts more bytes than it was offered -/
class Sink.Counts (σ : Type) [Sink σ] : Prop where
  count_le (s : σ) (bs : List UInt8) : (write s bs).count ≤ bs.length

instance : Sink.Counts Quota where
  count_le q bs := by
    change (q.write bs).count ≤ bs.length
    unfold Quota.write
    split
    · exact le_rfl
    · split
      · exact le_rfl
      · exact Nat.le_of_not_le ‹_›

namespace LineBuffered

theorem splitLast_append (bs : List UInt8) : (splitLast bs).1 ++ (splitLast bs).2 = bs := by
  have hprefix := List.prefix_iff_eq_take.1 (List.takeWhile_prefix (l := bs.reverse) (· != Text.lineFeed))
  have hrest : (splitLast bs).2 = bs.drop (bs.length - (bs.reverse.takeWhile (· != Text.lineFeed)).length) := by
    refine (congrArg List.reverse hprefix).trans ?_
    rw [List.reverse_take, List.reverse_reverse, List.length_reverse]
  rw [hrest]
  exact List.take_append_drop ..

variable {σ : Type} [Sink σ] [Lawful σ]

/-- what the device has taken and, behind it, what waits -/
def held (b : LineBuffered σ) : List UInt8 := taken b.device ++ b.waiting.toList

/-- from `b` to `b'` the bytes `bs` were added, behind all others; the device was only called, and `e` is no failure
when none of the calls failed -/
structure Passes (b b' : LineBuffered σ) (bs : List UInt8) (e : Option DeviceError) : Prop where
  called : ∃ cs, b'.device = callAll b.device cs
  held : b'.held = b.held ++ bs
  failure : Willing b.device → e = none

theorem Passes.refl (b : LineBuffered σ) : Passes b b [] none :=
  ⟨⟨[], rfl⟩, (List.append_nil _).symm, fun _ => rfl⟩

theorem Passes.willing {b b' : LineBuffered σ} {bs : List UInt8} {e : Option DeviceError} (h : Passes b b' bs e)
    (hdevice : Willing b.device) : Willing b'.device := by
  obtain ⟨cs, hcs⟩ := h.called
  rw [hcs]
  exact hdevice.after cs

theorem Passes.trans {b b' b'' : LineBuffered σ} {bs bs' : List UInt8} {e e' : Option DeviceError}
    (h : Passes b b' bs e) (h' : Passes b' b'' bs' e') : Passes b b'' (bs ++ bs') e' := by
  obtain ⟨cs, hcs⟩ := h.called
  obtain ⟨cs', hcs'⟩ := h'.called
  refine ⟨⟨cs ++ cs', by rw [hcs', hcs, callAll_append]⟩, ?_, fun hdevice => h'.failure (h.willing hdevice)⟩
  rw [h'.held, h.held, List.append_assoc]

theorem passes_device (device : σ) (bs : List UInt8) : Passes ⟨device, #[]⟩ ⟨(Sink.write device bs).sink, #[]⟩
    (bs.take (Sink.write device bs).count) (Sink.write device bs).failure := by
  refine ⟨⟨[.write bs], rfl⟩, ?_, fun hdevice => hdevice.failure_write [] bs⟩
  simp only [LineBuffered.held, Lawful.taken_write, List.append_nil]

/-- emptying the buffer moves bytes to the device; without failure none is left -/
theorem passes_drain (b : LineBuffered σ) :
    Passes b b.drain.1 [] b.drain.2 ∧ (b.drain.2 = none → b.drain.1.waiting = #[]) := by
  obtain ⟨device, waiting⟩ := b
  simp only [drain]
  by_cases hempty : waiting.isEmpty = true
  · simp only [if_pos hempty]
    exact ⟨.refl _, fun _ => Array.isEmpty_iff.1 hempty⟩
  · simp only [if_neg hempty]
    refine ⟨⟨⟨[.write waiting.toList], rfl⟩, ?_, fun hdevice => hdevice.failure_write [] _⟩, fun hnone => ?_⟩
    · have hrest (n : Nat) : (waiting.extract n).toList = waiting.toList.drop n := by
        rw [Array.toList_extract, List.extract_eq_take_drop]
        exact List.take_of_length_le (by simp)
      simp only [LineBuffered.held, Lawful.taken_write, hrest, List.append_assoc, List.take_append_drop,
        List.append_nil]
    · have hcount := Lawful.count_write device waiting.toList hnone
      simp [hcount]

theorem passes_drainIf (p : Bool) (b : LineBuffered σ) :
    Passes b (b.drainIf p).1 [] (b.drainIf p).2 ∧
      ((b.drainIf p).2 = none → (b.drainIf p).1.waiting = if p then #[] else b.waiting) := by
  cases p with
  | false => exact ⟨.refl b, fun _ => rfl⟩
  | true => exact passes_drain b

/-- the bytes that a write counts are added, and without failure these are all -/
structure Accepts (b : LineBuffered σ) (bs : List UInt8) (w : Written (LineBuffered σ)) : Prop where
  passes : Passes b w.sink (bs.take w.count) w.failure
  count : w.failure = none → w.count = bs.length

theorem Accepts.after {b b' : LineBuffered σ} {e : Option DeviceError} {bs : List UInt8}
    {w : Written (LineBuffered σ)} (h : Passes b b' [] e) (h' : Accepts b' bs w) : Accepts b bs w :=
  ⟨h.trans h'.passes, h'.count⟩

theorem accepts_nothing {b b' : LineBuffered σ} {e : DeviceError} (h : Passes b b' [] (some e)) (bs : List UInt8) :
    Accepts b bs ⟨b', 0, some e⟩ := ⟨h, by rintro ⟨⟩⟩

theorem accepts_device (device : σ) (bs : List UInt8) :
    Accepts ⟨device, #[]⟩ bs
      ⟨⟨(Sink.write device bs).sink, #[]⟩, (Sink.write device bs).count, (Sink.write device bs).failure⟩ :=
  ⟨passes_device device bs, Lawful.count_write device bs⟩

theorem accepts_hold (b : LineBuffered σ) (bs : List UInt8) : Accepts b bs (b.hold bs) := by
  obtain ⟨hpasses, hwaiting⟩ := passes_drainIf (capacity < b.waiting.size + bs.length) b
  unfold hold
  rcases hd : b.drainIf (capacity < b.waiting.size + bs.length) with ⟨⟨device, waiting⟩, e⟩
  rw [hd] at hpasses hwaiting
  cases e with
  | some e => exact accepts_nothing hpasses bs
  | none =>
    refine .after hpasses ?_
    by_cases hshort : bs.length < capacity
    · simp only [if_pos hshort]
      refine ⟨⟨⟨[], rfl⟩, ?_, fun _ => rfl⟩, fun _ => rfl⟩
      simp [LineBuffered.held]
    · -- bytes that fill the buffer alone go past it, and then nothing was left waiting
      have hempty : waiting = #[] := by
        have hleft := hwaiting rfl
        split at hleft
        · exact hleft
        · rename_i hfits
          simp only [decide_eq_true_eq, not_lt] at hfits
          have hsize : b.waiting.size = 0 := by omega
          exact hleft.trans (Array.eq_empty_of_size_eq_zero hsize)
      simp only [if_neg hshort, hempty]
      exact accepts_device device bs

/-- of two parts written one after the other the second counts when the first went through -/
theorem Accepts.append {b b' : LineBuffered σ} {bs bs' : List UInt8} {w : Written (LineBuffered σ)}
    (h : Accepts b bs ⟨b', bs.length, none⟩) (h' : Accepts b' bs' w) :
    Accepts b (bs ++ bs') ⟨w.sink, bs.length + w.count, w.failure⟩ := by
  refine ⟨?_, fun hnone => by rw [h'.count hnone, List.length_append]⟩
  have hboth := h.passes.trans h'.passes
  rw [List.take_length] at hboth
  rwa [List.take_length_add_append]

section Writing

variable [Counts σ]

/-- **Whatever fails, a write adds the bytes it counts.** -/
theorem accepts_write (b : LineBuffered σ) (bs : List UInt8) : Accepts b bs (b.write bs) := by
  have hsplit := splitLast_append bs
  unfold write
  rcases hparts : splitLast bs with ⟨whole, rest⟩
  rw [hparts] at hsplit
  simp only at hsplit ⊢
  by_cases hwhole : whole.isEmpty = true
  · obtain ⟨hpasses, -⟩ := passes_drainIf (b.waiting.back? == some Text.lineFeed) b
    rw [if_pos hwhole, ← hsplit, List.isEmpty_iff.1 hwhole, List.nil_append]
    rcases hd : b.drainIf (b.waiting.back? == some Text.lineFeed) with ⟨b', e⟩
    rw [hd] at hpasses
    cases e with
    | some e => exact accepts_nothing hpasses rest
    | none => exact .after hpasses (accepts_hold b' rest)
  · obtain ⟨hpasses, hwaiting⟩ := passes_drain b
    rw [if_neg hwhole]
    rcases hd : b.drain with ⟨⟨device, waiting⟩, e⟩
    rw [hd] at hpasses hwaiting
    cases e with
    | some e => exact accepts_nothing hpasses bs
    | none =>
      have hwaiting : waiting = #[] := hwaiting rfl
      subst hwaiting
      refine .after hpasses ?_
      have hfirst := accepts_device device whole
      have hle := Counts.count_le device whole
      rcases hw : Sink.write device whole with ⟨device', n, failure⟩
      rw [hw] at hfirst hle
      rw [← hsplit]
      cases failure with
      | some e =>
        have htake : (whole ++ rest).take n = whole.take n := List.take_append_of_le_length hle
        have hpasses : Passes ⟨device, #[]⟩ ⟨device', #[]⟩ ((whole ++ rest).take n) (some e) :=
          htake.symm ▸ hfirst.passes
        simp only [hw]
        exact ⟨hpasses, by rintro ⟨⟩⟩
      | none =>
        obtain rfl : n = whole.length := hfirst.count rfl
        simp only [hw]
        exact hfirst.append (accepts_hold ⟨device', #[]⟩ rest)

instance : Lawful (LineBuffered σ) where
  taken := held
  taken_write b bs := (accepts_write b bs).passes.held
  count_write b bs := (accepts_write b bs).count

end Writing

variable [LawfulFlush σ]

theorem passes_flush (b : LineBuffered σ) :
    Passes b b.flush.1 [] b.flush.2 ∧ (b.flush.2 = none → b.flush.1.waiting = #[]) := by
  obtain ⟨hpasses, hwaiting⟩ := passes_drain b
  unfold flush
  rcases hd : b.drain with ⟨⟨device, waiting⟩, e⟩
  rw [hd] at hpasses hwaiting
  cases e with
  | some e => exact ⟨hpasses, by rintro ⟨⟩⟩
  | none =>
    have hflush : Passes ⟨device, waiting⟩ ⟨(Sink.flush device).1, waiting⟩ [] (Sink.flush device).2 := by
      refine ⟨⟨[.flush], rfl⟩, ?_, fun hdevice => hdevice.failure_flush []⟩
      simp only [LineBuffered.held, LawfulFlush.taken_flush, List.append_nil]
    exact ⟨hpasses.trans hflush, fun _ => hwaiting rfl⟩

variable [Counts σ]

instance : LawfulFlush (LineBuffered σ) :=
  ⟨fun b => (passes_flush b).1.held.trans (List.append_nil _)⟩

/-- calls to the buffer are calls to the device -/
theorem exists_calls (b : LineBuffered σ) (cs : List Call) :
    ∃ cs', (callAll b cs).device = callAll b.device cs' := by
  induction cs generalizing b with
  | nil => exact ⟨[], rfl⟩
  | cons c cs ih =>
    obtain ⟨first, hfirst⟩ : ∃ cs', (call b c).device = callAll b.device cs' := by
      cases c with
      | write bs => exact (accepts_write b bs).passes.called
      | flush => exact (passes_flush b).1.called
    obtain ⟨rest, hrest⟩ := ih (call b c)
    exact ⟨first ++ rest, by rw [callAll_append, ← hfirst]; exact hrest⟩

variable {b : LineBuffered σ}

theorem willing_device (h : Willing b.device) (cs : List Call) : Willing (callAll b cs).device := by
  obtain ⟨cs', hcs'⟩ := exists_calls b cs
  rw [hcs']
  exact h.after cs'

/-- **Over a willing device a line buffer is willing.** -/
theorem willing_of_device (h : Willing b.device) : Willing b where
  failure_write cs bs := (accepts_write (callAll b cs) bs).passes.failure (willing_device h cs)
  failure_flush cs := (passes_flush (callAll b cs)).1.failure (willing_device h cs)

/-- **When the last call was a flush a willing device has all of it.** -/
theorem taken_device_of_flushed (h : Willing b.device) (cs : List Call) :
    taken (callAll b (cs ++ [.flush])).device = held b ++ cs.flatMap Call.bytes := by
  have hwilling := willing_of_device h
  have hempty : (callAll b (cs ++ [.flush])).waiting = #[] := by
    rw [callAll_append]
    exact (passes_flush (callAll b cs)).2 (hwilling.failure_flush cs)
  have hheld : held (callAll b (cs ++ [.flush])) = held b ++ (cs ++ [Call.flush]).flatMap Call.bytes :=
    hwilling.taken_callAll (cs ++ [.flush])
  have hbytes : (cs ++ [Call.flush]).flatMap Call.bytes = cs.flatMap Call.bytes := by
    rw [List.flatMap_append]
    exact List.append_nil _
  rwa [held, hempty, List.append_nil, hbytes] at hheld

end LineBuffered

end Brainfuck
