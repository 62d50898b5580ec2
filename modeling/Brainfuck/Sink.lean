/-
Where output goes. A sink is offered bytes and takes them from the front until it has all of them or fails; what it
took stays taken. A write stands for all the attempts at its bytes: an attempt that is merely interrupted is no failure,
it is made again within the write and does not show. The first real failure ends the write.
-/
import Brainfuck.Device
import Brainfuck.Text.Line
import Brainfuck.Text.Utf8

namespace Brainfuck

/-- what came of a write: the sink afterwards, how many bytes it took, and the failure that stopped it -/
structure Written (σ : Type) where
  sink : σ
  count : Nat
  failure : Option DeviceError

class Sink (σ : Type) where
  /-- offer all bytes, in order -/
  write : σ → List UInt8 → Written σ
  /-- hand on whatever the sink still holds back -/
  flush : σ → σ × Option DeviceError

namespace Sink

variable {σ : Type} [Sink σ]

/-- write a text and then a line feed, which is not offered when the text fails -/
def writeLine (s : σ) (text : List Char) : σ × Option DeviceError :=
  match write s (Text.encode text) with
  | ⟨s, _, some e⟩ => (s, some e)
  | ⟨s, _, none⟩ => let w := write s [Text.lineFeed]; (w.sink, w.failure)

end Sink

end Brainfuck
