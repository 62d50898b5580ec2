/-
What a config file sets. `values key text` are the values that the lines of the section give a key, in line order; the
limit is the last of them that is valid (`limits_eq`), whatever stands before, after and between them.
-/
import Mathlib.Tactic
import Brainfuck.ConfigFile

namespace Brainfuck.ConfigFile

/-- the settings inside the section, in line order -/
def settings (inSection : Bool) : List Line → List (List Char × List Char)
  | [] => []
  | .idle :: ls => settings inSection ls
  | .header name :: ls => settings (name = sectionName) ls
  | .setting key value :: ls => if inSection then (key, value) :: settings inSection ls else settings inSection ls

/-- the values among some settings that are for one key -/
def valuesFor (key : List Char) (ss : List (List Char × List Char)) : List (List Char) :=
  ss.filterMap fun s => if s.1 = key then some s.2 else none

/-- the values that a config file gives a key -/
def values (key : List Char) (text : List Char) : List (List Char) :=
  valuesFor key (settings false ((Text.lines text).map Line.ofText))

/-- the last value that reads as one -/
def lastValid {α : Type} (read? : List Char → Option α) (vs : List (List Char)) : Option α := vs.reverse.findSome? read?

/-- the key of the step limit -/
def stepsKey : List Char := "max_steps".toList

/-- the key of the number of cells -/
def cellsKey : List Char := "memory_size".toList

theorem stepsKey_ne_cellsKey : stepsKey ≠ cellsKey := by decide

section LastValid

variable {α : Type} (read? : List Char → Option α)

theorem lastValid_cons (v : List Char) (vs : List (List Char)) :
    lastValid read? (v :: vs) = (lastValid read? vs).or (read? v) := by
  rw [lastValid, lastValid, List.reverse_cons, List.findSome?_append, List.findSome?_cons]
  cases read? v <;> rfl

/-- values that are invalid or all the same set that one, or nothing where none is valid -/
theorem lastValid_eq {vs : List (List Char)} {common : Option α} (h : ∀ v ∈ vs, read? v = none ∨ read? v = common)
    (hone : ∀ a, common = some a → ∃ v ∈ vs, read? v = some a) : lastValid read? vs = common := by
  cases common with
  | none =>
    rw [lastValid, List.findSome?_eq_none_iff]
    exact fun v hv => (h v (List.mem_reverse.1 hv)).elim id id
  | some a =>
    obtain ⟨v, hv, ha⟩ := hone a rfl
    cases hlast : lastValid read? vs with
    | none =>
      have hnone := List.findSome?_eq_none_iff.1 hlast v (List.mem_reverse.2 hv)
      rw [ha] at hnone
      cases hnone
    | some b =>
      obtain ⟨w, hw, hb⟩ := List.exists_of_findSome?_eq_some hlast
      rcases h w (List.mem_reverse.1 hw) with hnone | hsome
      · rw [hnone] at hb
        cases hb
      · rw [← hb, hsome]

end LastValid

/-- one setting inside the section, field by field -/
theorem Reading.limits_set (r : Reading) (key value : List Char) :
    (r.set key value).limits =
      ⟨(if key = stepsKey then Count.parse? value else none).or r.limits.steps,
        (if key = cellsKey then cellCount? value else none).or r.limits.cells⟩ := by
  by_cases hs : key = stepsKey
  · have hc : key ≠ cellsKey := hs ▸ stepsKey_ne_cellsKey
    have hset : key = "max_steps".toList := hs
    rw [if_pos hs, if_neg hc]
    simp only [Reading.set, if_pos hset]
    cases Count.parse? value <;> rfl
  · have hskip : key ≠ "max_steps".toList := hs
    by_cases hc : key = cellsKey
    · have hset : key = "memory_size".toList := hc
      rw [if_neg hs, if_pos hc]
      simp only [Reading.set, if_neg hskip, if_pos hset]
      cases cellCount? value <;> rfl
    · have hskip' : key ≠ "memory_size".toList := hc
      rw [if_neg hs, if_neg hc]
      simp only [Reading.set, if_neg hskip, if_neg hskip']
      rfl

@[simp] theorem Reading.inSection_set (r : Reading) (key value : List Char) :
    (r.set key value).inSection = r.inSection := by
  unfold Reading.set
  split_ifs
  · cases Count.parse? value <;> rfl
  · cases cellCount? value <;> rfl
  · rfl

theorem lastValid_valuesFor_cons {α : Type} (read? : List Char → Option α) (key : List Char)
    (s : List Char × List Char) (ss : List (List Char × List Char)) :
    lastValid read? (valuesFor key (s :: ss)) =
      (lastValid read? (valuesFor key ss)).or (if s.1 = key then read? s.2 else none) := by
  by_cases h : s.1 = key
  · have hcons : valuesFor key (s :: ss) = s.2 :: valuesFor key ss := List.filterMap_cons_some (if_pos h)
    rw [hcons, if_pos h, lastValid_cons]
  · have hcons : valuesFor key (s :: ss) = valuesFor key ss := List.filterMap_cons_none (if_neg h)
    rw [hcons, if_neg h, Option.or_none]

/-- what lines add to the limits read before them -/
theorem limits_foldl (ls : List Line) (r : Reading) :
    (ls.foldl Reading.next r).limits =
      ⟨(lastValid Count.parse? (valuesFor stepsKey (settings r.inSection ls))).or r.limits.steps,
        (lastValid cellCount? (valuesFor cellsKey (settings r.inSection ls))).or r.limits.cells⟩ := by
  induction ls generalizing r with
  | nil => rfl
  | cons l ls ih =>
    rw [List.foldl_cons, ih]
    cases l with
    | idle => rfl
    | header name => rfl
    | setting key value =>
      cases hin : r.inSection with
      | false =>
        have hnext : r.next (.setting key value) = r := by rw [Reading.next, hin]; rfl
        rw [hnext, hin]
        rfl
      | true =>
        have hnext : r.next (.setting key value) = r.set key value := by rw [Reading.next, hin]; rfl
        have hsettings : settings true (.setting key value :: ls) = (key, value) :: settings true ls := rfl
        rw [hnext, Reading.inSection_set, Reading.limits_set, hin, hsettings, lastValid_valuesFor_cons,
          lastValid_valuesFor_cons, Option.or_assoc, Option.or_assoc]

/-- **Each limit of a config file is the last valid value of its key inside the section.** -/
theorem limits_eq (text : List Char) :
    limits text =
      ⟨lastValid Count.parse? (values stepsKey text), lastValid cellCount? (values cellsKey text)⟩ := by
  have h := limits_foldl ((Text.lines text).map Line.ofText) {}
  simp only [Limits.unset, Option.or_none] at h
  exact h

end Brainfuck.ConfigFile
