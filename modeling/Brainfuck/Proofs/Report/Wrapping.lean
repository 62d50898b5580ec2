/-
Windows near the top of the word range. The end of a window is a sum of words, and for the highest positions it wraps,
while the start does not. The window would then end before it starts, and there is none, unless the program is so short
that it ends before the wrapped sum: then both ends are clipped to the end of the program. `EndHolds` tells the
positions that have a window, and each window there frames its position.

Main statement: `reported_where_end_holds`, for every position of the word range. At the lowest position whose end
wraps a program of one character has no window (`no_window_where_end_wraps`).
-/
import Mathlib.Tactic
import Brainfuck.Proofs.Report.Layout

namespace Brainfuck

namespace Window

/-- the end of the window does not wrap, or wraps to behind the last character of the program -/
def EndHolds (code : List Char) (pos : Nat) : Prop :=
  pos + reach + 1 < Count.bound ∨ Count.bound + code.length ≤ pos + reach + 1

instance (code : List Char) (pos : Nat) : Decidable (EndHolds code pos) := inferInstanceAs (Decidable (_ ∨ _))

variable {code : List Char} {pos : Nat} {w : Window}

theorem reach_lt_bound : 4 * (reach + 1) < Count.bound := by decide

theorem stop_of_wraps (h : pos < Count.bound) (hwraps : Count.bound ≤ pos + reach + 1) (total : Nat) :
    stop total pos = min (pos + reach + 1 - Count.bound) total := by
  have hsize := reach_lt_bound
  rw [stop, Nat.mod_eq_sub_mod hwraps, Nat.mod_eq_of_lt (by omega)]

/-- **A window starts before it ends where its end holds**, for every position of the word range. -/
theorem start_le_stop_iff (h : pos < Count.bound) :
    min (start pos) code.length ≤ stop code.length pos ↔ EndHolds code pos := by
  have hsize := reach_lt_bound
  by_cases hwraps : Count.bound ≤ pos + reach + 1
  · -- the wrapped end is at most `reach`, which the start lies far behind
    rw [stop_of_wraps h hwraps, start, EndHolds]
    omega
  · rw [stop, Nat.mod_eq_of_lt (by omega), start, EndHolds]
    omega

theorem isSome_around?_iff (h : pos < Count.bound) : (around? code pos).isSome ↔ EndHolds code pos := by
  rw [← start_le_stop_iff h, around?]
  split_ifs with hle <;> simp [hle]

/-- where the end wraps, a window shows nothing -/
theorem eq_of_wraps (h : pos < Count.bound) (hwraps : Count.bound ≤ pos + reach + 1) (hw : around? code pos = some w) :
    code.length ≤ reach ∧ w = ⟨[], reach⟩ := by
  have hsize := reach_lt_bound
  have hshort : code.length ≤ reach := by
    have hholds := (isSome_around?_iff h).1 (Option.isSome_iff_exists.2 ⟨w, hw⟩)
    rw [EndHolds] at hholds
    omega
  have hnone : code.length ≤ start pos := by
    rw [start]
    omega
  have hcaret : pos - start pos = reach := by
    rw [start]
    omega
  rw [around?] at hw
  simp only [Nat.min_eq_right hnone, hcaret] at hw
  split_ifs at hw
  rw [List.drop_eq_nil_of_le (by simp)] at hw
  exact ⟨hshort, (Option.some.inj hw).symm⟩

/-- **Every window frames its position.** -/
theorem frames_of_around? (h : pos < Count.bound) (hw : around? code pos = some w) : w.Frames code pos := by
  by_cases hwraps : Count.bound ≤ pos + reach + 1
  · have hsize := reach_lt_bound
    have hcut := exists_cutAt hw
    have hcount := count_text hw
    obtain ⟨hshort, rfl⟩ := eq_of_wraps h hwraps hw
    have hcaret : min pos reach = reach := Nat.min_eq_right (by omega)
    exact {
      text_eq := by
        rw [hcaret, Nat.add_comm 2, List.replicate_succ, List.replicate_succ]
        simp [text]
      count_text := hcount
      length_shown := by
        rw [List.length_nil]
        omega
      getElem?_shown := fun k hk => absurd hk (Nat.not_lt_zero k)
      length_shown_le := Nat.zero_le _
      column := by
        rw [hcaret, List.getElem?_eq_none (by simp), List.getElem?_eq_none (by omega)]
        rfl
      cut := hcut }
  · obtain ⟨w', hw', hframes⟩ := exists_frames code (by omega : pos + reach + 1 < Count.bound)
    rw [hw] at hw'
    exact Option.some.inj hw' ▸ hframes

end Window

namespace Report

open Window

theorem isSome_runError?_iff {code : List Char} {pos : Nat} {e : RunError} (he : e.position = some pos)
    (terminal : Bool) (name : Option String) :
    (runError? terminal name code e).isSome ↔ (around? code pos).isSome := by
  simp only [runError?, he, Option.isSome_map]

/-- **An error is reported where the end of its window holds.** Of the positions of the word range just these have a
window: just there the first byte of the stretch is not behind the last, and an error can be told that points there.
Every window there frames its position in two lines, whether it is cut out by characters or by bytes. -/
theorem reported_where_end_holds (code : List Char) {pos : Nat} (h : pos < Count.bound) :
    ((around? code pos).isSome ↔ EndHolds code pos) ∧
      (Text.byteOffset code (start pos) ≤ Text.byteOffset code (stop code.length pos) ↔ EndHolds code pos) ∧
      (∀ w, around? code pos = some w → aroundBytes? code pos = some w ∧ w.Frames code pos) ∧
      ∀ terminal name e, e.position = some pos →
        ((runError? terminal name code e).isSome ↔ EndHolds code pos) := by
  have hsome : (around? code pos).isSome ↔ EndHolds code pos := isSome_around?_iff h
  refine ⟨hsome, ?_, ?_, ?_⟩
  · rw [Text.byteOffset_le_iff]
    exact start_le_stop_iff h
  · intro w hw
    exact ⟨(aroundBytes?_eq code pos).trans hw, frames_of_around? h hw⟩
  · intro terminal name e he
    exact (isSome_runError?_iff he terminal name).trans hsome

/-- at the highest position the end wraps to 32: a program that is no longer has a window with nothing in it, a longer
one has none, and no error can be told there -/
theorem reported_where_end_holds_highest :
    let pos := Count.bound - 1
    pos < Count.bound ∧ (around? (List.replicate 32 '+') pos).isSome ∧ around? (List.replicate 33 '+') pos = none ∧
      (RunError.noInput pos).position = some pos ∧
      ¬ (runError? true none (List.replicate 33 '+') (.noInput pos)).isSome := by
  intro pos
  have hpos : pos < Count.bound := by decide
  obtain ⟨hshort, -⟩ := reported_where_end_holds (List.replicate 32 '+') hpos
  obtain ⟨hlong, -, -, hreport⟩ := reported_where_end_holds (List.replicate 33 '+') hpos
  have hlost : ¬ EndHolds (List.replicate 33 '+') pos := by decide
  refine ⟨hpos, hshort.2 (by decide), ?_, rfl, fun h => hlost ((hreport true none (.noInput pos) rfl).1 h)⟩
  exact Option.not_isSome_iff_eq_none.1 (mt hlong.1 hlost)

/-- **Not every position of the word range has a window.** At the lowest one whose end wraps, the window of a program of
one character would start behind the character and end before it, so that there is none. -/
theorem no_window_where_end_wraps :
    let pos := 18446744073709551583
    pos < Count.bound ∧ pos + reach + 1 = Count.bound ∧
      Text.byteOffset ['+'] (stop 1 pos) < Text.byteOffset ['+'] (start pos) ∧ around? ['+'] pos = none ∧
      runError? false (some "bf") ['+'] (.noInput pos) = none := by
  decide

end Report

end Brainfuck
