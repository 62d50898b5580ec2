/-
A sink that remembers the last byte it let through, so that output which does not end in a line feed can be given one.
-/
import Brainfuck.Sink

namespace Brainfuck

structure Tracked (σ : Type) where
  inner : σ
  last : Option UInt8 := none

namespace Tracked

variable {σ : Type} [Sink σ]

/-- pass bytes on; of those that were taken the last is remembered -/
def write : Tracked σ → List UInt8 → Written (Tracked σ)
  | ⟨inner, last⟩, bs =>
    let w := Sink.write inner bs
    ⟨⟨w.sink, (bs.take w.count).getLast?.or last⟩, w.count, w.failure⟩

def flush (t : Tracked σ) : Tracked σ × Option DeviceError :=
  let (s, e) := Sink.flush t.inner
  (⟨s, t.last⟩, e)

instance : Sink (Tracked σ) := ⟨write, flush⟩

/-- output was let through and does not end in a line feed -/
def lacksNewline (t : Tracked σ) : Bool := t.last.any (· != Text.lineFeed)

/-- end the output: a missing line feed is added, then the sink is flushed; a failed line feed leaves it unflushed -/
def finish (t : Tracked σ) : σ × Option DeviceError :=
  if t.lacksNewline then
    match Sink.write t.inner [Text.lineFeed] with
    | ⟨s, _, some e⟩ => (s, some e)
    | ⟨s, _, none⟩ => Sink.flush s
  else Sink.flush t.inner

end Tracked

end Brainfuck
