/-
Sinks whose bytes can be looked at, and sinks that never fail. A lawful sink only ever appends: a write adds the bytes
it counts, which are all of them unless it fails. It stops short when a write that fails has left some of its bytes. A
sink never fails when no write does, whatever was written before.
-/
import Brainfuck.Sink

namespace Brainfuck.Sink

class Lawful (σ : Type) [Sink σ] where
  /-- the bytes taken so far -/
  taken : σ → List UInt8
  taken_write (s : σ) (bs : List UInt8) : taken (write s bs).sink = taken s ++ bs.take (write s bs).count
  count_write (s : σ) (bs : List UInt8) (h : (write s bs).failure = none) : (write s bs).count = bs.length

export Lawful (taken)

/-- a sink on which a write that fails has left some of its bytes -/
class StopsShort (σ : Type) [Sink σ] : Prop where
  count_lt (s : σ) (bs : List UInt8) {e : DeviceError} (h : (write s bs).failure = some e) :
    (write s bs).count < bs.length

variable {σ : Type} [Sink σ]

section StopsShort

variable [Lawful σ] [StopsShort σ] {s s' : σ} {e : DeviceError}

theorem exists_taken_of_failure {bs : List UInt8} (h : (write s bs).failure = some e) :
    ∃ k < bs.length, taken (write s bs).sink = taken s ++ bs.take k :=
  ⟨_, StopsShort.count_lt s bs h, Lawful.taken_write s bs⟩

/-- of a line that fails a proper part was taken, counted with its line feed -/
theorem exists_taken_of_writeLine {text : List Char} (h : writeLine s text = (s', some e)) :
    ∃ k < (Text.encode (text ++ ['\n'])).length,
      taken s' = taken s ++ (Text.encode (text ++ ['\n'])).take k := by
  have hline : Text.encode (text ++ ['\n']) = Text.encode text ++ [Text.lineFeed] := Text.encode_append text ['\n']
  rw [hline, List.length_append]
  unfold writeLine at h
  split at h
  · rename_i t n e' hw
    cases h
    have hfailed : (write s (Text.encode text)).failure = some e := by rw [hw]
    obtain ⟨k, hk, htaken⟩ := exists_taken_of_failure hfailed
    rw [hw] at htaken
    refine ⟨k, by omega, ?_⟩
    rw [htaken, List.take_append_of_le_length (Nat.le_of_lt hk)]
  · rename_i t n hw
    injection h with hsink hfailure
    subst hsink
    obtain ⟨k, hk, htaken⟩ := exists_taken_of_failure hfailure
    have hwhole := Lawful.taken_write s (Text.encode text)
    rw [Lawful.count_write s _ (by rw [hw]), List.take_length, hw] at hwhole
    -- the text was taken whole, and of the line feed nothing
    obtain rfl : k = 0 := Nat.lt_one_iff.1 hk
    refine ⟨(Text.encode text).length, by simp, ?_⟩
    rw [htaken, hwhole, List.take_zero, List.append_nil, List.take_left]

end StopsShort

/-- the sink after several writes -/
def writeAll (s : σ) (bss : List (List UInt8)) : σ := bss.foldl (fun s bs => (write s bs).sink) s

/-- no write ever fails -/
def NeverFails (s : σ) : Prop := ∀ bss bs, (write (writeAll s bss) bs).failure = none

namespace NeverFails

variable {s : σ}

theorem failure_write (h : NeverFails s) (bs : List UInt8) : (Sink.write s bs).failure = none := h [] bs

theorem write (h : NeverFails s) (bs : List UInt8) : NeverFails (Sink.write s bs).sink := fun bss => h (bs :: bss)

theorem taken_write [Lawful σ] (h : NeverFails s) (bs : List UInt8) :
    taken (Sink.write s bs).sink = taken s ++ bs := by
  rw [Lawful.taken_write, Lawful.count_write s bs (h.failure_write bs), List.take_length]

theorem writeLine_eq (h : NeverFails s) (text : List Char) :
    writeLine s text = ((Sink.write (Sink.write s (Text.encode text)).sink [Text.lineFeed]).sink, none) := by
  have h1 := h.failure_write (Text.encode text)
  have h2 := (h.write (Text.encode text)).failure_write [Text.lineFeed]
  unfold writeLine
  split
  · rename_i e hw
    rw [hw] at h1
    cases h1
  · rename_i hw
    rw [hw] at h2 ⊢
    rw [← h2]

theorem failure_writeLine (h : NeverFails s) (text : List Char) : (writeLine s text).2 = none := by
  rw [h.writeLine_eq]

theorem writeLine (h : NeverFails s) (text : List Char) : NeverFails (Sink.writeLine s text).1 := by
  rw [h.writeLine_eq]
  exact (h.write _).write _

theorem taken_writeLine [Lawful σ] (h : NeverFails s) (text : List Char) :
    taken (Sink.writeLine s text).1 = taken s ++ Text.encode (text ++ ['\n']) := by
  rw [h.writeLine_eq, (h.write _).taken_write, h.taken_write, Text.encode_append, List.append_assoc]
  rfl

end NeverFails

end Brainfuck.Sink
