/-
Sinks over devices that take bytes piece by piece. A device is offered bytes and answers how many it took from the
front, or why it took none. An offer that is interrupted has no answer yet: it is made again until it has one, so that
no answer says so. A write goes on offering what is left; the first offer that fails ends it, and an offer of which
nothing was taken is a failure of its own.

Main statements:
- `Holds.hasRoom`: a device that holds a number of bytes makes a sink with room for them, and both ways in which the
  full device can answer are failures of the write;
- `Quota.write_eq`: a quota takes a write as it would take the offers the write consists of;
- `Tracked.write_eq`: the last byte let through is the same, whether offers are watched or whole writes.
-/
import Brainfuck.Sink.Room
import Brainfuck.Sink.Tracked

namespace Brainfuck

class Device (δ : Type) where
  /-- offer some bytes, again after each interruption: how many of them were taken, or why none were -/
  offer : δ → List UInt8 → δ × Except DeviceError Nat
  flush : δ → δ × Option DeviceError

namespace Device

/-- how many bytes an answer says were taken -/
def tookOf : Except DeviceError Nat → Nat
  | .ok n => n
  | .error _ => 0

variable {δ : Type} [Device δ]

/-- offer all bytes, in order -/
def write (d : δ) : List UInt8 → Written δ
  | [] => ⟨d, 0, none⟩
  | b :: bs =>
    match offer d (b :: bs) with
    | (d, .error e) => ⟨d, 0, some e⟩
    | (d, .ok 0) => ⟨d, 0, some .tookNothing⟩
    | (d, .ok (n + 1)) => let w := write d (bs.drop n); ⟨w.sink, n + 1 + w.count, w.failure⟩
termination_by bs => bs.length
decreasing_by
  simp only [List.length_drop, List.length_cons]
  omega

@[simp] theorem write_nil (d : δ) : write d [] = ⟨d, 0, none⟩ := by rw [write]

theorem write_of_error {d d' : δ} {bs : List UInt8} {e : DeviceError} (hne : bs ≠ [])
    (h : offer d bs = (d', .error e)) : write d bs = ⟨d', 0, some e⟩ := by
  obtain ⟨b, bs, rfl⟩ := List.exists_cons_of_ne_nil hne
  rw [write, h]

theorem write_of_zero {d d' : δ} {bs : List UInt8} (hne : bs ≠ []) (h : offer d bs = (d', .ok 0)) :
    write d bs = ⟨d', 0, some .tookNothing⟩ := by
  obtain ⟨b, bs, rfl⟩ := List.exists_cons_of_ne_nil hne
  rw [write, h]

theorem write_of_pos {d d' : δ} {bs : List UInt8} {n : Nat} (hne : bs ≠ []) (hn : 0 < n)
    (h : offer d bs = (d', .ok n)) : write d bs =
      ⟨(write d' (bs.drop n)).sink, n + (write d' (bs.drop n)).count, (write d' (bs.drop n)).failure⟩ := by
  obtain ⟨b, bs, rfl⟩ := List.exists_cons_of_ne_nil hne
  obtain ⟨n, rfl⟩ := Nat.exists_eq_succ_of_ne_zero (Nat.pos_iff_ne_zero.1 hn)
  rw [write, h]
  rfl

end Device

/-- a sink that writes by offers -/
structure Piecemeal (δ : Type) where
  device : δ
  deriving DecidableEq, Repr

namespace Piecemeal

variable {δ : Type} [Device δ]

def write (p : Piecemeal δ) (bs : List UInt8) : Written (Piecemeal δ) :=
  let w := Device.write p.device bs
  ⟨⟨w.sink⟩, w.count, w.failure⟩

def flush (p : Piecemeal δ) : Piecemeal δ × Option DeviceError :=
  let (d, e) := Device.flush p.device
  (⟨d⟩, e)

instance : Sink (Piecemeal δ) := ⟨write, flush⟩

end Piecemeal

namespace Device

/-- a device that only ever appends, and takes no more than it is offered -/
class Lawful (δ : Type) [Device δ] where
  /-- the bytes taken so far -/
  taken : δ → List UInt8
  taken_offer (d : δ) (bs : List UInt8) : taken (offer d bs).1 = taken d ++ bs.take (tookOf (offer d bs).2)
  offer_le (d : δ) (bs : List UInt8) : tookOf (offer d bs).2 ≤ bs.length
  taken_flush (d : δ) : taken (flush d).1 = taken d

variable {δ : Type} [Device δ]

/-- a write appends what its offers took, which is all of it unless one fails -/
theorem write_spec [Lawful δ] (d : δ) (bs : List UInt8) :
    Lawful.taken (write d bs).sink = Lawful.taken d ++ bs.take (write d bs).count ∧
      ((write d bs).failure = none → (write d bs).count = bs.length) := by
  fun_induction write d bs with
  | case1 d => simp
  | case2 d b bs d' e ho =>
    have htaken := Lawful.taken_offer d (b :: bs)
    rw [ho] at htaken
    exact ⟨htaken, fun h => nomatch h⟩
  | case3 d b bs d' ho =>
    have htaken := Lawful.taken_offer d (b :: bs)
    rw [ho] at htaken
    exact ⟨htaken, fun h => nomatch h⟩
  | case4 d b bs d' n ho w ih =>
    have htaken := Lawful.taken_offer d (b :: bs)
    have hle := Lawful.offer_le d (b :: bs)
    obtain ⟨htaken', hcount⟩ := ih
    rw [ho] at htaken hle
    simp only [tookOf, List.length_cons, List.length_drop] at htaken hle hcount
    refine ⟨?_, fun h => ?_⟩
    · rw [htaken', htaken, List.append_assoc, List.take_add]
      rfl
    · have hrest : w.count = bs.length - n := hcount h
      simp only [hrest, List.length_cons]
      omega

theorem count_write_lt {d : δ} {bs : List UInt8} {e : DeviceError} (h : (write d bs).failure = some e) :
    (write d bs).count < bs.length := by
  fun_induction write d bs with
  | case1 d => cases h
  | case2 d b bs d' e' ho => exact Nat.succ_pos _
  | case3 d b bs d' ho => exact Nat.succ_pos _
  | case4 d b bs d' n ho w ih =>
    have hrest : w.count < bs.length - n := by simpa only [List.length_drop] using ih h
    simp only [List.length_cons]
    omega

instance : Sink.StopsShort (Piecemeal δ) where
  count_lt p _ _ h := count_write_lt (d := p.device) h

instance [Lawful δ] : Sink.Lawful (Piecemeal δ) where
  taken p := Lawful.taken p.device
  taken_write p bs := (write_spec p.device bs).1
  count_write p bs := (write_spec p.device bs).2

/-! ## Devices that become full -/

/-- how a full device answers -/
inductive Refusal where
  | fails (e : DeviceError)
  | takesNothing
  deriving DecidableEq, Repr

namespace Refusal

def answer : Refusal → Except DeviceError Nat
  | fails e => .error e
  | takesNothing => .ok 0

/-- what a write reports of it -/
def cause : Refusal → DeviceError
  | fails e => e
  | takesNothing => .tookNothing

end Refusal

/-- the device after several offers -/
def offerAll (d : δ) (bss : List (List UInt8)) : δ := bss.foldl (fun d bs => (offer d bs).1) d

/-- how many bytes were taken of several offers -/
def tookAll (d : δ) : List (List UInt8) → Nat
  | [] => 0
  | bs :: bss => tookOf (offer d bs).2 + tookAll (offer d bs).1 bss

/-- `d` holds `room` bytes more; when it is full, it answers `r` to every offer -/
def Holds (r : Refusal) (room : Nat) (d : δ) : Prop :=
  ∀ bss bs, bs ≠ [] → (offer (offerAll d bss) bs).2 =
    if room - tookAll d bss = 0 then r.answer else .ok (min bs.length (room - tookAll d bss))

namespace Holds

variable {r : Refusal} {room : Nat} {d : δ}

theorem offer_eq (h : Holds r room d) {bs : List UInt8} (hne : bs ≠ []) :
    (offer d bs).2 = if room = 0 then r.answer else .ok (min bs.length room) := h [] bs hne

theorem offer (h : Holds r room d) (bs : List UInt8) :
    Holds r (room - tookOf (Device.offer d bs).2) (Device.offer d bs).1 := by
  intro bss bs' hne
  have hroom : room - tookAll d (bs :: bss) =
      room - tookOf (Device.offer d bs).2 - tookAll (Device.offer d bs).1 bss := by
    simp only [tookAll]
    omega
  rw [← hroom]
  exact h (bs :: bss) bs' hne

/-- a full device refuses a write and stays full -/
theorem write_of_full (h : Holds r 0 d) {bs : List UInt8} (hne : bs ≠ []) :
    ∃ d', Device.write d bs = ⟨d', 0, some r.cause⟩ ∧ Holds r 0 d' := by
  have hnext := h.offer bs
  have ho : Device.offer d bs = ((Device.offer d bs).1, r.answer) := Prod.ext rfl (h.offer_eq hne)
  rw [Nat.zero_sub] at hnext
  refine ⟨_, ?_, hnext⟩
  cases r with
  | fails e => exact write_of_error hne ho
  | takesNothing => exact write_of_zero hne ho

/-- one write fills the room, and the rest of it is refused -/
theorem write (h : Holds r room d) (bs : List UInt8) :
    Sink.Fills r.cause room bs (Device.write d bs) ∧ Holds r (room - bs.length) (Device.write d bs).sink := by
  by_cases hne : bs = []
  · subst hne
    rw [write_nil]
    exact ⟨⟨(Nat.zero_min room).symm, rfl⟩, h⟩
  have hlen : 0 < bs.length := List.length_pos_iff.2 hne
  rcases Nat.eq_zero_or_pos room with rfl | hroom
  · obtain ⟨d', hw, hfull⟩ := h.write_of_full hne
    rw [hw, Nat.zero_sub]
    exact ⟨⟨(Nat.min_zero _).symm, (if_neg (by omega)).symm⟩, hfull⟩
  have ho : Device.offer d bs = ((Device.offer d bs).1, .ok (min bs.length room)) :=
    Prod.ext rfl ((h.offer_eq hne).trans (if_neg (by omega)))
  have hnext : Holds r (room - min bs.length room) (Device.offer d bs).1 := by
    have hnext := h.offer bs
    rwa [ho] at hnext
  rw [write_of_pos hne (by omega) ho]
  by_cases hfits : bs.length ≤ room
  · rw [Nat.min_eq_left hfits] at hnext ⊢
    rw [List.drop_length, write_nil]
    exact ⟨⟨(Nat.min_eq_left hfits).symm, (if_pos hfits).symm⟩, hnext⟩
  · have hmin : min bs.length room = room := by omega
    have hrest : bs.drop room ≠ [] := List.length_pos_iff.1 (by rw [List.length_drop]; omega)
    rw [hmin, Nat.sub_self] at hnext
    obtain ⟨d', hw, hfull⟩ := hnext.write_of_full hrest
    have hnone : room - bs.length = 0 := by omega
    rw [hmin, hw, hnone]
    exact ⟨⟨hmin.symm, (if_neg hfits).symm⟩, hfull⟩

/-- **A device that holds a number of bytes is a sink with room for them.** When it is full, writes fail with its own
error, or with the error that stands for an offer of which nothing was taken. -/
theorem hasRoom (h : Holds r room d) : Sink.HasRoom r.cause room (Piecemeal.mk d) :=
  Sink.HasRoom.of_steps (fun room p => Holds r room p.device) (fun _ _ hp bs => hp.write bs) h

end Holds

end Device

/-! ## Quotas by offers -/

namespace Quota

/-- one offer: as much is taken as there is room for, and only where there is none it is refused -/
def offer (q : Quota) (bs : List UInt8) : Quota × Except DeviceError Nat :=
  match q.room with
  | none => (q.take bs, .ok bs.length)
  | some room =>
    if 0 < room ∨ bs = [] then (q.take (bs.take room), .ok (min bs.length room))
    else (q.refuse, if q.refusal = .tookNothing then .ok 0 else .error q.refusal)

instance : Device Quota := ⟨offer, flush⟩

@[simp] theorem take_nil (q : Quota) : q.take [] = q := by simp [take]

theorem taken_offer (q : Quota) (bs : List UInt8) :
    (q.offer bs).1.taken = q.taken ++ bs.take (Device.tookOf (q.offer bs).2) := by
  unfold offer
  split
  · simp [Device.tookOf]
  · split
    · simp [Device.tookOf, List.take_eq_take_min, Nat.min_comm]
    · split <;> simp [Device.tookOf]

theorem offer_le (q : Quota) (bs : List UInt8) : Device.tookOf (q.offer bs).2 ≤ bs.length := by
  unfold offer
  split
  · exact Nat.le_refl _
  · split
    · exact Nat.min_le_left _ _
    · split <;> exact Nat.zero_le _

instance : Device.Lawful Quota where
  taken q := q.taken.toList
  taken_offer q bs := by
    change (q.offer bs).1.taken.toList = _
    rw [taken_offer]
    simp
    rfl
  offer_le := offer_le
  taken_flush _ := rfl

theorem room_take_of_some {q : Quota} {room : Nat} (h : q.room = some room) (bs : List UInt8) :
    (q.take bs).room = some (room - bs.length) := by
  unfold Quota.room at h ⊢
  split at h
  · cases h
  · rename_i hp
    obtain ⟨limit, hl, rfl⟩ := Option.map_eq_some_iff.1 h
    have hpatience : (q.take bs).patience ≠ some 0 := hp
    have hlimit : (q.take bs).limit = some limit := hl
    rw [if_neg hpatience, hlimit, size_taken_take, Option.map_some, Nat.sub_add_eq]

theorem write_offers_of_full {q : Quota} (h : q.room = some 0) {bs : List UInt8} (hne : bs ≠ []) :
    Device.write q bs = ⟨q.refuse, 0, some q.refusal⟩ := by
  have ho : Device.offer q bs = (q.refuse, if q.refusal = .tookNothing then .ok 0 else .error q.refusal) := by
    simp only [Device.offer, offer, h]
    rw [if_neg (by simpa using hne)]
  by_cases hr : q.refusal = .tookNothing
  · rw [if_pos hr] at ho
    rw [Device.write_of_zero hne ho, hr]
  · rw [if_neg hr] at ho
    rw [Device.write_of_error hne ho]

/-- **A quota takes a write as it takes the offers it consists of.** -/
theorem write_eq (q : Quota) (bs : List UInt8) : q.write bs = Device.write q bs := by
  by_cases hne : bs = []
  · subst hne
    rw [Device.write_nil, write]
    split <;> simp
  have hlen : 0 < bs.length := List.length_pos_iff.2 hne
  cases hroom : q.room with
  | none =>
    have ho : Device.offer q bs = (q.take bs, .ok bs.length) := by simp only [Device.offer, offer, hroom]
    rw [Device.write_of_pos hne hlen ho, List.drop_length, Device.write_nil, write_of_room hroom]
    rfl
  | some room =>
    simp only [write, hroom]
    rcases Nat.eq_zero_or_pos room with rfl | hpos
    · rw [write_offers_of_full hroom hne, if_neg (by omega), List.take_zero, take_nil]
    have ho : Device.offer q bs = (q.take (bs.take room), .ok (min bs.length room)) := by
      simp only [Device.offer, offer, hroom]
      rw [if_pos (Or.inl hpos)]
    rw [Device.write_of_pos hne (by omega) ho]
    by_cases hfits : bs.length ≤ room
    · rw [if_pos hfits, Nat.min_eq_left hfits, List.drop_length, List.take_of_length_le hfits, Device.write_nil]
      rfl
    · have hmin : min bs.length room = room := by omega
      have hrest : bs.drop room ≠ [] := List.length_pos_iff.1 (by rw [List.length_drop]; omega)
      have hfull : (q.take (bs.take room)).room = some 0 := by
        rw [room_take_of_some hroom, List.length_take, Nat.min_eq_left (by omega), Nat.sub_self]
      rw [if_neg hfits, hmin, write_offers_of_full hfull hrest]
      rfl

end Quota

/-! ## The last byte let through -/

namespace Tracked

variable {δ : Type} [Device δ]

/-- one offer passed on; of what was taken the last byte is remembered -/
def offer (t : Tracked δ) (bs : List UInt8) : Tracked δ × Except DeviceError Nat :=
  let (d, answer) := Device.offer t.inner bs
  (⟨d, (bs.take (Device.tookOf answer)).getLast?.or t.last⟩, answer)

instance : Device (Tracked δ) := ⟨offer, fun t => let (d, e) := Device.flush t.inner; (⟨d, t.last⟩, e)⟩

theorem offer_of_offer {d d' : δ} {bs : List UInt8} {answer : Except DeviceError Nat} (last : Option UInt8)
    (h : Device.offer d bs = (d', answer)) : Device.offer (Tracked.mk d last) bs =
      (⟨d', (bs.take (Device.tookOf answer)).getLast?.or last⟩, answer) := by
  simp only [Device.offer] at h ⊢
  simp only [offer, h]

/-- **Watching offers comes to the same as watching whole writes.** -/
theorem write_eq (d : δ) (last : Option UInt8) (bs : List UInt8) :
    Device.write (Tracked.mk d last) bs =
      let w := write ⟨Piecemeal.mk d, last⟩ bs; ⟨⟨w.sink.inner.device, w.sink.last⟩, w.count, w.failure⟩ := by
  have hwrite : ∀ last, write ⟨Piecemeal.mk d, last⟩ bs =
      ⟨⟨⟨(Device.write d bs).sink⟩, (bs.take (Device.write d bs).count).getLast?.or last⟩, (Device.write d bs).count,
        (Device.write d bs).failure⟩ := fun _ => rfl
  simp only [hwrite]
  clear hwrite
  fun_induction Device.write d bs generalizing last with
  | case1 d => simp
  | case2 d b bs d' e ho =>
    rw [Device.write_of_error (List.cons_ne_nil b bs) (offer_of_offer last ho)]
    rfl
  | case3 d b bs d' ho =>
    rw [Device.write_of_zero (List.cons_ne_nil b bs) (offer_of_offer last ho)]
    rfl
  | case4 d b bs d' n ho w ih =>
    have hlast : ((b :: bs).take (n + 1 + w.count)).getLast?.or last =
        ((bs.drop n).take w.count).getLast?.or (((b :: bs).take (n + 1)).getLast?.or last) := by
      rw [List.take_add (i := n + 1), List.getLast?_append, Option.or_assoc, List.drop_succ_cons]
    rw [Device.write_of_pos (List.cons_ne_nil b bs) n.succ_pos (offer_of_offer last ho), hlast, List.drop_succ_cons, ih]
    rfl

end Tracked

end Brainfuck
