/-
Sinks with room for a number of bytes. What fits is taken whole; of a longer write as much is taken as there is room
for, and then it fails, as does every later write that is not empty. Such a sink takes a line as if it were one write.

Main statement: `HasRoom.of_steps`, a sink has room as long as each single write keeps to it.
-/
import Brainfuck.Sink.Quota

namespace Brainfuck

namespace Sink

variable {σ : Type} [Sink σ]

/-- how many bytes several writes are taken in all -/
def countAll (s : σ) : List (List UInt8) → Nat
  | [] => 0
  | bs :: bss => (write s bs).count + countAll (write s bs).sink bss

/-- takes `room` bytes more, whatever the writes they come in, and then fails with `e` -/
structure HasRoom (e : DeviceError) (room : Nat) (s : σ) : Prop where
  count : ∀ bss bs, (write (writeAll s bss) bs).count = min bs.length (room - countAll s bss)
  failure : ∀ bss bs, (write (writeAll s bss) bs).failure = if bs.length ≤ room - countAll s bss then none else some e

/-- what a single write should do, when there is room for `room` bytes -/
def Fills (e : DeviceError) (room : Nat) (bs : List UInt8) (w : Written σ) : Prop :=
  w.count = min bs.length room ∧ w.failure = if bs.length ≤ room then none else some e

/-- a relation that single writes keep, each filling the room told by it, makes the room real -/
theorem HasRoom.of_steps {e : DeviceError} (P : Nat → σ → Prop)
    (hstep : ∀ room s, P room s → ∀ bs, Fills e room bs (Sink.write s bs) ∧ P (room - bs.length) (Sink.write s bs).sink)
    {room : Nat} {s : σ} (h : P room s) : HasRoom e room s := by
  have hall : ∀ bss bs, Fills e (room - countAll s bss) bs (Sink.write (writeAll s bss) bs) := by
    intro bss
    induction bss generalizing room s with
    | nil => intro bs; exact (hstep room s h bs).1
    | cons b bss ih =>
      obtain ⟨⟨hcount, -⟩, hnext⟩ := hstep room s h b
      have hroom : room - countAll s (b :: bss) = room - b.length - countAll (Sink.write s b).sink bss := by
        simp only [countAll, hcount]
        omega
      intro bs
      rw [hroom]
      exact ih hnext bs
  exact ⟨fun bss bs => (hall bss bs).1, fun bss bs => (hall bss bs).2⟩

namespace HasRoom

variable {e : DeviceError} {room : Nat} {s : σ}

theorem count_write (h : HasRoom e room s) (bs : List UInt8) : (Sink.write s bs).count = min bs.length room :=
  h.count [] bs

theorem failure_write (h : HasRoom e room s) (bs : List UInt8) :
    (Sink.write s bs).failure = if bs.length ≤ room then none else some e := h.failure [] bs

theorem write (h : HasRoom e room s) (bs : List UInt8) : HasRoom e (room - bs.length) (Sink.write s bs).sink := by
  have hroom : ∀ bss, room - countAll s (bs :: bss) = room - bs.length - countAll (Sink.write s bs).sink bss := by
    intro bss
    simp only [countAll, h.count_write]
    omega
  constructor
  · intro bss bs'
    rw [← hroom]
    exact h.count (bs :: bss) bs'
  · intro bss bs'
    rw [← hroom]
    exact h.failure (bs :: bss) bs'

theorem taken_write [Lawful σ] (h : HasRoom e room s) (bs : List UInt8) :
    taken (Sink.write s bs).sink = taken s ++ bs.take room := by
  rw [Lawful.taken_write, h.count_write]
  congr 1
  rw [List.take_eq_take_iff]
  omega

/-! ## Lines -/

theorem length_encode_line (text : List Char) :
    (Text.encode (text ++ ['\n'])).length = (Text.encode text).length + 1 := by
  rw [Text.encode_append, List.length_append]
  rfl

theorem writeLine_of_le (h : HasRoom e room s) {text : List Char} (hle : (Text.encode text).length ≤ room) :
    writeLine s text =
      let w := Sink.write (Sink.write s (Text.encode text)).sink [Text.lineFeed]; (w.sink, w.failure) := by
  have hnone : (Sink.write s (Text.encode text)).failure = none := by rw [h.failure_write, if_pos hle]
  unfold writeLine
  split
  · rename_i hw
    rw [hw] at hnone
    cases hnone
  · rename_i hw
    rw [hw]

/-- a line whose text does not fit: the line feed is not offered -/
theorem writeLine_of_lt (h : HasRoom e room s) {text : List Char} (hlt : room < (Text.encode text).length) :
    writeLine s text = ((Sink.write s (Text.encode text)).sink, some e) := by
  have hsome : (Sink.write s (Text.encode text)).failure = some e := by
    rw [h.failure_write, if_neg (Nat.not_le.2 hlt)]
  unfold writeLine
  split
  · rename_i hw
    rw [hw] at hsome ⊢
    rw [← hsome]
  · rename_i hw
    rw [hw] at hsome
    cases hsome

theorem failure_writeLine (h : HasRoom e room s) (text : List Char) :
    (Sink.writeLine s text).2 = if (Text.encode (text ++ ['\n'])).length ≤ room then none else some e := by
  rw [length_encode_line]
  rcases Nat.lt_or_ge room (Text.encode text).length with hlt | hle
  · rw [h.writeLine_of_lt hlt, if_neg (by omega)]
  · rw [h.writeLine_of_le hle]
    simp only [(h.write _).failure_write, List.length_singleton]
    congr 1
    rw [eq_iff_iff]
    omega

theorem writeLine (h : HasRoom e room s) (text : List Char) :
    HasRoom e (room - (Text.encode (text ++ ['\n'])).length) (Sink.writeLine s text).1 := by
  rw [length_encode_line]
  rcases Nat.lt_or_ge room (Text.encode text).length with hlt | hle
  · have hroom : room - ((Text.encode text).length + 1) = room - (Text.encode text).length := by omega
    rw [h.writeLine_of_lt hlt, hroom]
    exact h.write _
  · rw [h.writeLine_of_le hle, ← Nat.sub_sub]
    exact (h.write (Text.encode text)).write [Text.lineFeed]

theorem taken_writeLine [Lawful σ] (h : HasRoom e room s) (text : List Char) :
    taken (Sink.writeLine s text).1 = taken s ++ (Text.encode (text ++ ['\n'])).take room := by
  rw [Text.encode_append, List.take_append]
  rcases Nat.lt_or_ge room (Text.encode text).length with hlt | hle
  · have hnone : room - (Text.encode text).length = 0 := by omega
    rw [h.writeLine_of_lt hlt, h.taken_write, hnone, List.take_zero, List.append_nil]
  · rw [h.writeLine_of_le hle, (h.write _).taken_write, h.taken_write, List.append_assoc]
    rfl

end HasRoom

end Sink

theorem Quota.hasRoom {q : Quota} {limit : Nat} (hl : q.limit = some limit) (hp : q.patience = none) :
    Sink.HasRoom q.refusal (limit - q.taken.size) q := by
  refine Sink.HasRoom.of_steps (fun room q' => q'.refusal = q.refusal ∧ q'.limit = some limit ∧ q'.patience = none ∧
    room = limit - q'.taken.size) ?_ ⟨rfl, hl, hp, rfl⟩
  rintro room q' ⟨hr', hl', hp', rfl⟩ bs
  have hroom : q'.room = some (limit - q'.taken.size) := by simp [room, hl', hp']
  have hw : Sink.write q' bs = q'.write bs := rfl
  by_cases hfits : bs.length ≤ limit - q'.taken.size
  · have hwrite : q'.write bs = ⟨q'.take bs, bs.length, none⟩ := by simp only [write, hroom, if_pos hfits]
    rw [hw, hwrite]
    refine ⟨⟨(Nat.min_eq_left hfits).symm, (if_pos hfits).symm⟩, hr', hl', hp', ?_⟩
    simp only [size_taken_take]
    omega
  · have hwrite : q'.write bs =
        ⟨(q'.take (bs.take (limit - q'.taken.size))).refuse, limit - q'.taken.size, some q'.refusal⟩ := by
      simp only [write, hroom, if_neg hfits]
    rw [hw, hwrite]
    refine ⟨⟨by simp only; omega, by rw [if_neg hfits, hr']⟩, hr', hl', by simp [refuse, take, hp'], ?_⟩
    simp only [taken_refuse, size_taken_take, List.length_take]
    omega

end Brainfuck
