/-
A sink that hands bytes on line by line. Bytes after the last line feed wait in a buffer; a write that brings a line
feed first empties the buffer and then goes straight through up to its last line feed.
-/
import Brainfuck.Sink

namespace Brainfuck

structure LineBuffered (σ : Type) where
  device : σ
  waiting : Array UInt8 := #[]

namespace LineBuffered

variable {σ : Type} [Sink σ]

/-- how many bytes may wait -/
def capacity : Nat := 1024

/-- hand on the waiting bytes; those the device did not take go on waiting -/
def drain : LineBuffered σ → LineBuffered σ × Option DeviceError
  | ⟨device, waiting⟩ =>
    if waiting.isEmpty then (⟨device, waiting⟩, none)
    else
      let w := Sink.write device waiting.toList
      (⟨w.sink, waiting.extract w.count⟩, w.failure)

/-- hand on the waiting bytes if `p` -/
def drainIf (p : Bool) (b : LineBuffered σ) : LineBuffered σ × Option DeviceError :=
  if p then b.drain else (b, none)

/-- keep bytes without a line feed, making room first where they would not fit -/
def hold (b : LineBuffered σ) (bs : List UInt8) : Written (LineBuffered σ) :=
  match b.drainIf (capacity < b.waiting.size + bs.length) with
  | (b, some e) => ⟨b, 0, some e⟩
  | (⟨device, waiting⟩, none) =>
    if bs.length < capacity then ⟨⟨device, waiting ++ bs⟩, bs.length, none⟩
    else
      let w := Sink.write device bs
      ⟨⟨w.sink, waiting⟩, w.count, w.failure⟩

/-- the bytes up to the last line feed and those after it -/
def splitLast (bs : List UInt8) : List UInt8 × List UInt8 :=
  let tail := bs.reverse.takeWhile (· != Text.lineFeed)
  (bs.take (bs.length - tail.length), tail.reverse)

def write (b : LineBuffered σ) (bs : List UInt8) : Written (LineBuffered σ) :=
  let (whole, rest) := splitLast bs
  if whole.isEmpty then
    match b.drainIf (b.waiting.back? == some Text.lineFeed) with
    | (b, some e) => ⟨b, 0, some e⟩
    | (b, none) => b.hold rest
  else
    match b.drain with
    | (b, some e) => ⟨b, 0, some e⟩
    | (⟨device, waiting⟩, none) =>
      match Sink.write device whole with
      | ⟨device, n, some e⟩ => ⟨⟨device, waiting⟩, n, some e⟩
      | ⟨device, n, none⟩ => let w := hold ⟨device, waiting⟩ rest; ⟨w.sink, n + w.count, w.failure⟩

def flush (b : LineBuffered σ) : LineBuffered σ × Option DeviceError :=
  match b.drain with
  | (b, some e) => (b, some e)
  | (⟨device, waiting⟩, none) => let (device, e) := Sink.flush device; (⟨device, waiting⟩, e)

instance : Sink (LineBuffered σ) := ⟨write, flush⟩

end LineBuffered

end Brainfuck
