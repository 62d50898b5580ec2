/-
Balanced programs and nested ones are the same: a program reads as a block exactly when its brackets are balanced. A
block read from a program is proper, that is, no bracket is left as a single command. Where a loop of a block stands in
a program, the table leads from each of its brackets to the other.

Main statements:
- `exists_ofCommands?_iff`: a program has a nested form if and only if it is balanced;
- `StandsAt.partner_start`, `StandsAt.partner_end`: the table at a loop's two brackets.
-/
import Mathlib.Tactic
import Brainfuck.Block
import Brainfuck.Proofs.Brackets.Matching

namespace Brainfuck

namespace Block

/-- no bracket stands as a single command -/
def Proper : Block → Prop
  | done => True
  | leaf c rest => c.isBracket = false ∧ rest.Proper
  | loop body rest => body.Proper ∧ rest.Proper

theorem balanced_commands {b : Block} (h : b.Proper) : Balanced b.commands := by
  induction b with
  | done => exact balanced_nil
  | leaf c rest ih => exact (balanced_single h.1).append (ih h.2)
  | loop body rest ihb ihr =>
    have h1 := (ihb h.1).loop.append (ihr h.2)
    simpa [commands] using h1

/-! ## Reading a program -/

theorem read_plain {c : Command} (hc : c.isBracket = false) {cs : List Command} {b : Block} {behind : List Block}
    (h : read cs = some (b, behind)) : read (c :: cs) = some (leaf c b, behind) := by
  cases c with
  | loopStart => cases hc
  | loopEnd => cases hc
  | _ => simp only [read, h]

/-- blocks that were read are proper -/
theorem proper_of_read {cs : List Command} {b : Block} {behind : List Block} (h : read cs = some (b, behind)) :
    b.Proper ∧ ∀ r ∈ behind, r.Proper := by
  induction cs generalizing b behind with
  | nil => cases h; exact ⟨trivial, by simp⟩
  | cons c cs ih =>
    cases hr : read cs with
    | none => simp [read, hr] at h
    | some p =>
      obtain ⟨b', behind'⟩ := p
      obtain ⟨hb, hbehind⟩ := ih hr
      cases c with
      | loopEnd =>
        simp only [read, hr] at h
        cases h
        refine ⟨trivial, fun r hr => ?_⟩
        rcases List.mem_cons.1 hr with rfl | hr
        · exact hb
        · exact hbehind r hr
      | loopStart =>
        cases behind' with
        | nil => simp [read, hr] at h
        | cons rest behind' =>
          simp only [read, hr] at h
          cases h
          exact ⟨⟨hb, hbehind rest List.mem_cons_self⟩, fun r hr => hbehind r (List.mem_cons_of_mem _ hr)⟩
      | _ =>
        rw [read_plain rfl hr] at h
        cases h
        exact ⟨⟨rfl, hb⟩, hbehind⟩

/-- where every loop of a text is closed, reading succeeds; blocks are left for the brackets closed but not opened -/
theorem exists_read (cs : List Command) (h : ∀ n, opened (cs.drop n) ≤ closed (cs.drop n)) :
    ∃ b behind, read cs = some (b, behind) ∧ behind.length + opened cs = closed cs := by
  induction cs with
  | nil => exact ⟨done, [], rfl, rfl⟩
  | cons c cs ih =>
    obtain ⟨b, behind, hr, hlen⟩ := ih fun n => h (n + 1)
    have h0 := h 0
    rw [List.drop_zero] at h0
    cases c with
    | loopEnd => exact ⟨done, b :: behind, by simp only [read, hr], by simp; omega⟩
    | loopStart =>
      rw [opened_cons_start, closed_cons_start] at h0
      cases behind with
      | nil => simp at hlen; omega
      | cons rest behind =>
        refine ⟨loop b rest, behind, by simp only [read, hr], ?_⟩
        rw [opened_cons_start, closed_cons_start, ← hlen, List.length_cons]
        omega
    | _ =>
      refine ⟨leaf _ b, behind, read_plain rfl hr, ?_⟩
      rw [opened_cons_plain rfl, closed_cons_plain rfl]
      exact hlen

theorem proper_of_ofCommands? {cs : List Command} {b : Block} (h : ofCommands? cs = some b) : b.Proper := by
  unfold ofCommands? at h
  split at h
  · rename_i hr
    cases h
    exact (proper_of_read hr).1
  · cases h

/-- **A program has a nested form if and only if it is balanced.** -/
theorem exists_ofCommands?_iff (cs : List Command) : (∃ b, ofCommands? cs = some b) ↔ Balanced cs := by
  refine ⟨fun ⟨b, hb⟩ => ?_, fun h => ?_⟩
  · rw [← commands_of_ofCommands? hb]
    exact balanced_commands (proper_of_ofCommands? hb)
  · obtain ⟨b, behind, hr, hlen⟩ := exists_read cs h.drop_le
    have h2 := h.2
    have hnil : behind = [] := List.length_eq_zero_iff.1 (by omega)
    exact ⟨b, by simp only [ofCommands?, hr, hnil]⟩

end Block

/-! ## A text inside a program -/

/-- the commands `ds` stand in the program `cs` from position `pos` on -/
def StandsAt (cs ds : List Command) (pos : Nat) : Prop := ∃ front rest, cs = front ++ (ds ++ rest) ∧ front.length = pos

namespace StandsAt

variable {cs ds es : List Command} {c : Command} {pos : Nat}

theorem self (cs : List Command) : StandsAt cs cs 0 := ⟨[], [], by simp, rfl⟩

theorem head (h : StandsAt cs (c :: ds) pos) : cs[pos]? = some c := by
  obtain ⟨front, rest, rfl, rfl⟩ := h
  simp

theorem tail (h : StandsAt cs (c :: ds) pos) : StandsAt cs ds (pos + 1) := by
  obtain ⟨front, rest, rfl, rfl⟩ := h
  exact ⟨front ++ [c], rest, by simp, by simp⟩

theorem left (h : StandsAt cs (ds ++ es) pos) : StandsAt cs ds pos := by
  obtain ⟨front, rest, rfl, rfl⟩ := h
  exact ⟨front, es ++ rest, by simp, rfl⟩

theorem right (h : StandsAt cs (ds ++ es) pos) : StandsAt cs es (pos + ds.length) := by
  obtain ⟨front, rest, rfl, rfl⟩ := h
  exact ⟨front ++ ds, rest, by simp, by simp⟩

theorem partner_start {m : Matching} (hm : m.Correct cs) (hb : Balanced ds)
    (h : StandsAt cs (.loopStart :: (ds ++ .loopEnd :: es)) pos) : m.partner pos = pos + ds.length + 1 := by
  have hs := hm.starts pos h.head
  obtain ⟨front, rest, rfl, rfl⟩ := h
  have hc := closes_loop hb front (es ++ rest)
  simp only [List.cons_append, List.append_assoc] at hs
  exact hs.unique hc

theorem partner_end {m : Matching} (hm : m.Correct cs) (hb : Balanced ds)
    (h : StandsAt cs (.loopStart :: (ds ++ .loopEnd :: es)) pos) : m.partner (pos + ds.length + 1) = pos := by
  rw [← h.partner_start hm hb]
  exact hm.involutive pos

end StandsAt

end Brainfuck
