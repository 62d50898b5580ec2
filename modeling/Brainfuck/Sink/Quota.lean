/-
A sink in memory with room for a limited number of bytes. A write longer than the room left is taken in part and then
fails. After a set number of failures the limit is lifted.
-/
import Brainfuck.Sink.Lawful

namespace Brainfuck

structure Quota where
  /-- the bytes taken so far -/
  taken : Array UInt8 := #[]
  /-- how many bytes it takes in total; any number when unset -/
  limit : Option Nat := none
  /-- how it fails when there is no room -/
  refusal : DeviceError := .reported "sink closed"
  /-- failures left until the limit is lifted; it stays when unset -/
  patience : Option Nat := none
  /-- how every flush fails -/
  flushRefusal : Option DeviceError := none
  /-- how often it was flushed -/
  flushes : Nat := 0
  deriving DecidableEq, Repr

namespace Quota

/-- room left; any number of bytes when unset -/
def room (q : Quota) : Option Nat :=
  if q.patience = some 0 then none else q.limit.map (· - q.taken.size)

/-- take bytes without asking for room -/
def take (q : Quota) (bs : List UInt8) : Quota := { q with taken := q.taken ++ bs }

/-- one failure more -/
def refuse (q : Quota) : Quota := { q with patience := q.patience.map (· - 1) }

def write (q : Quota) (bs : List UInt8) : Written Quota :=
  match q.room with
  | none => ⟨q.take bs, bs.length, none⟩
  | some r =>
    if bs.length ≤ r then ⟨q.take bs, bs.length, none⟩
    else ⟨(q.take (bs.take r)).refuse, r, some q.refusal⟩

def flush (q : Quota) : Quota × Option DeviceError :=
  ({ q with flushes := q.flushes + 1 }, q.flushRefusal)

instance : Sink Quota := ⟨write, flush⟩

/-- a sink that takes everything -/
def unlimited : Quota := {}

/-- a device on which nothing can be written -/
def full : Quota := { limit := some 0, refusal := .noSpace }

@[simp] theorem taken_take (q : Quota) (bs : List UInt8) : (q.take bs).taken = q.taken ++ bs := rfl

@[simp] theorem size_taken_take (q : Quota) (bs : List UInt8) :
    (q.take bs).taken.size = q.taken.size + bs.length := by
  rw [← Array.length_toList]
  simp

@[simp] theorem taken_refuse (q : Quota) : q.refuse.taken = q.taken := rfl

@[simp] theorem taken_flush (q : Quota) : q.flush.1.taken = q.taken := rfl

/-- what was taken is never touched again: a write appends the bytes it took -/
theorem taken_write (q : Quota) (bs : List UInt8) :
    (q.write bs).sink.taken = q.taken ++ bs.take (q.write bs).count := by
  unfold write
  split
  · simp
  · split <;> simp

theorem count_write_of_none {q : Quota} {bs : List UInt8} (h : (q.write bs).failure = none) :
    (q.write bs).count = bs.length := by
  unfold write at h ⊢
  split
  · rfl
  · split <;> simp_all

instance : Sink.Lawful Quota where
  taken q := q.taken.toList
  taken_write q bs := by
    change (q.write bs).sink.taken.toList = _
    rw [taken_write]
    simp
    rfl
  count_write _ _ h := count_write_of_none h

instance : Sink.StopsShort Quota where
  count_lt q bs e h := by
    change (q.write bs).failure = some e at h
    change (q.write bs).count < bs.length
    unfold write at h ⊢
    split
    · simp_all
    · split
      · simp_all
      · exact Nat.lt_of_not_le ‹_›

/-- where there is no limit, or none any more, all is taken -/
theorem write_of_room {q : Quota} (h : q.room = none) (bs : List UInt8) :
    q.write bs = ⟨q.take bs, bs.length, none⟩ := by
  simp only [write, h]

theorem room_eq_none_iff (q : Quota) : q.room = none ↔ q.patience = some 0 ∨ q.limit = none := by
  unfold room
  split <;> simp_all

theorem room_take {q : Quota} (h : q.room = none) (bs : List UInt8) : (q.take bs).room = none :=
  (room_eq_none_iff (q.take bs)).2 ((room_eq_none_iff q).1 h)

theorem neverFails_of_room {q : Quota} (h : q.room = none) : Sink.NeverFails q := by
  intro bss
  induction bss generalizing q with
  | nil => intro bs; exact congrArg Written.failure (write_of_room h bs)
  | cons b bss ih =>
    have h1 : (Sink.write q b).sink = q.take b := congrArg Written.sink (write_of_room h b)
    have h2 := ih (room_take h b)
    rw [← h1] at h2
    exact h2

theorem neverFails_unlimited : Sink.NeverFails unlimited := neverFails_of_room rfl

end Quota

end Brainfuck
