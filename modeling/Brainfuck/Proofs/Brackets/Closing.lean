/-
Which bracket closes which, said without a stack: the bracket at `j` closes the loop opened at `i` when the text
strictly between them is balanced. Main statements:
- `Closes.unique`: a loop is closed at one place only;
- `Closes.nested`: of two closed loops the one opened inside the other is closed inside it, so pairs never cross;
- `Balanced.unique_start`: at most one opening bracket has a balanced text behind it.
-/
import Mathlib.Tactic
import Brainfuck.Balance

namespace Brainfuck

/-! ## Counting brackets along a text -/

theorem opened_take_add_drop (cs : List Command) (n : Nat) : opened (cs.take n) + opened (cs.drop n) = opened cs := by
  rw [← opened_append, List.take_append_drop]

theorem closed_take_add_drop (cs : List Command) (n : Nat) : closed (cs.take n) + closed (cs.drop n) = closed cs := by
  rw [← closed_append, List.take_append_drop]

theorem NeverOverclosed.le {cs : List Command} (h : NeverOverclosed cs) : closed cs ≤ opened cs := by
  simpa using h cs.length

theorem NeverOverclosed.take {cs : List Command} (h : NeverOverclosed cs) (m : Nat) : NeverOverclosed (cs.take m) := by
  intro n
  rw [List.take_take]
  exact h _

theorem NeverOverclosed.of_append {a b : List Command} (h : NeverOverclosed (a ++ b)) : NeverOverclosed a := by
  simpa using h.take a.length

/-- a text that closes a loop it has not opened is overclosed, whatever follows -/
theorem not_neverOverclosed_of_end {w rest : List Command} (h : closed w = opened w) :
    ¬ NeverOverclosed (w ++ .loopEnd :: rest) := by
  intro hn
  have htext : w ++ .loopEnd :: rest = (w ++ [.loopEnd]) ++ rest := by simp
  rw [htext] at hn
  have hle := hn.of_append.le
  simp [h] at hle

theorem balanced_single {c : Command} (hc : c.isBracket = false) : Balanced [c] := by
  refine ⟨fun n => ?_, ?_⟩
  · cases n with
    | zero => simp
    | succ n => rw [List.take_succ_cons, closed_cons_plain hc, opened_cons_plain hc]; simp
  · rw [closed_cons_plain hc, opened_cons_plain hc]; rfl

/-- behind a front that is not overclosed a balanced text closes at least what it opens, wherever it is cut -/
theorem Balanced.drop_le {cs : List Command} (h : Balanced cs) (n : Nat) : opened (cs.drop n) ≤ closed (cs.drop n) := by
  have h1 := h.1 n
  have h2 := opened_take_add_drop cs n
  have h3 := closed_take_add_drop cs n
  have h4 := h.2
  omega

/-! ## Closing brackets -/

/-- the bracket at `j` closes the loop opened at `i` -/
structure Closes (cs : List Command) (i j : Nat) : Prop where
  lt : i < j
  start : cs[i]? = some .loopStart
  stop : cs[j]? = some .loopEnd
  between : Balanced ((cs.take j).drop (i + 1))

theorem Closes.stop_lt {cs : List Command} {i j : Nat} (h : Closes cs i j) : j < cs.length :=
  (List.getElem?_eq_some_iff.1 h.stop).1

theorem closes_loop {body : List Command} (h : Balanced body) (front rest : List Command) :
    Closes (front ++ .loopStart :: (body ++ .loopEnd :: rest)) front.length (front.length + body.length + 1) := by
  have htext : front ++ .loopStart :: (body ++ .loopEnd :: rest) =
      ((front ++ [.loopStart]) ++ body) ++ .loopEnd :: rest := by simp
  have hstart : (front ++ [Command.loopStart]).length = front.length + 1 := by simp
  have hstop : ((front ++ [Command.loopStart]) ++ body).length = front.length + body.length + 1 := by simp; omega
  refine ⟨by omega, by simp, ?_, ?_⟩
  · rw [htext, ← hstop]
    simp
  · rw [htext, ← hstop, List.take_left, ← hstart, List.drop_left]
    exact h

theorem Closes.append {cs : List Command} {i j : Nat} (h : Closes cs i j) (ds : List Command) :
    Closes (cs ++ ds) i j := by
  have hj := h.stop_lt
  have hi := h.lt
  refine ⟨h.lt, ?_, ?_, ?_⟩
  · rw [List.getElem?_append_left (by omega)]; exact h.start
  · rw [List.getElem?_append_left hj]; exact h.stop
  · rw [List.take_append_of_le_length (by omega)]; exact h.between

theorem Closes.shift {cs : List Command} {n i j : Nat} (h : Closes (cs.drop n) i j) : Closes cs (n + i) (n + j) := by
  refine ⟨by have := h.lt; omega, ?_, ?_, ?_⟩
  · rw [← List.getElem?_drop]; exact h.start
  · rw [← List.getElem?_drop]; exact h.stop
  · have h1 := h.between
    rw [List.take_drop, List.drop_drop] at h1
    exact h1

/-- the text behind the opening bracket, cut at the closing one -/
theorem Closes.drop_start {cs : List Command} {i j : Nat} (h : Closes cs i j) :
    cs.drop (i + 1) = (cs.take j).drop (i + 1) ++ .loopEnd :: cs.drop (j + 1) := by
  obtain ⟨hj, ej⟩ := List.getElem?_eq_some_iff.1 h.stop
  have hij : i + 1 + (j - (i + 1)) = j := by have := h.lt; omega
  have hcut : (cs.drop (i + 1)).take (j - (i + 1)) = (cs.take j).drop (i + 1) := by rw [List.take_drop, hij]
  have hrest : (cs.drop (i + 1)).drop (j - (i + 1)) = .loopEnd :: cs.drop (j + 1) := by
    rw [List.drop_drop, hij, List.drop_eq_getElem_cons hj, ej]
  calc cs.drop (i + 1)
      = (cs.drop (i + 1)).take (j - (i + 1)) ++ (cs.drop (i + 1)).drop (j - (i + 1)) :=
        (List.take_append_drop _ _).symm
    _ = (cs.take j).drop (i + 1) ++ .loopEnd :: cs.drop (j + 1) := by rw [hcut, hrest]

theorem Closes.overclosed {cs : List Command} {i j : Nat} (h : Closes cs i j) :
    ¬ NeverOverclosed (cs.drop (i + 1)) := by
  rw [h.drop_start]
  exact not_neverOverclosed_of_end h.between.2

theorem Closes.take {cs : List Command} {i j m : Nat} (h : Closes cs i j) (hm : j < m) : Closes (cs.take m) i j := by
  have hi := h.lt
  refine ⟨hi, ?_, ?_, ?_⟩
  · rw [List.getElem?_take_of_lt (by omega)]; exact h.start
  · rw [List.getElem?_take_of_lt hm]; exact h.stop
  · rw [List.take_take, Nat.min_eq_left (by omega)]; exact h.between

/-- **A loop is closed at one place only.** -/
theorem Closes.unique {cs : List Command} {i j k : Nat} (hj : Closes cs i j) (hk : Closes cs i k) : j = k := by
  rcases Nat.lt_trichotomy j k with h | h | h
  · exact absurd hk.between.1 (hj.take h).overclosed
  · exact h
  · exact absurd hj.between.1 (hk.take h).overclosed

/-- behind an opening bracket inside a balanced text more is closed than opened -/
theorem Balanced.lt_of_start {cs : List Command} (h : Balanced cs) {k : Nat} (hk : cs[k]? = some .loopStart) :
    opened (cs.drop (k + 1)) < closed (cs.drop (k + 1)) := by
  obtain ⟨hlt, e⟩ := List.getElem?_eq_some_iff.1 hk
  have h1 := h.drop_le k
  rw [List.drop_eq_getElem_cons hlt, e, opened_cons_start, closed_cons_start] at h1
  exact h1

/-- the first place at which a text is overclosed has a closing bracket and a balanced text before it -/
theorem exists_first_overclosed {cs : List Command} (h : ¬ NeverOverclosed cs) :
    ∃ n, cs[n]? = some .loopEnd ∧ Balanced (cs.take n) := by
  have hex : ∃ n, opened (cs.take n) < closed (cs.take n) := by
    simpa [NeverOverclosed] using h
  obtain ⟨n, hn, hleast⟩ : ∃ n, opened (cs.take n) < closed (cs.take n) ∧
      ∀ m < n, closed (cs.take m) ≤ opened (cs.take m) :=
    ⟨Nat.find hex, Nat.find_spec hex, fun m hm => Nat.le_of_not_lt (Nat.find_min hex hm)⟩
  cases n with
  | zero => simp at hn
  | succ n =>
    have hbefore : NeverOverclosed (cs.take n) := by
      intro m
      rw [List.take_take]
      exact hleast _ (by omega)
    have hle := hbefore.le
    rw [List.take_add_one, opened_append, closed_append] at hn
    cases hc : cs[n]? with
    | none => simp [hc] at hn; omega
    | some c =>
      cases c with
      | loopEnd =>
        simp [hc] at hn
        exact ⟨n, hc, hbefore, by omega⟩
      | loopStart => simp [hc] at hn; omega
      | _ =>
        rw [hc, Option.toList_some, opened_cons_plain rfl, closed_cons_plain rfl] at hn
        simp at hn; omega

/-- **A loop is closed exactly when the text behind its opening bracket is overclosed.** -/
theorem exists_closes_iff {cs : List Command} {i : Nat} (hi : cs[i]? = some .loopStart) :
    (∃ j, Closes cs i j) ↔ ¬ NeverOverclosed (cs.drop (i + 1)) := by
  refine ⟨fun ⟨j, hj⟩ => hj.overclosed, fun h => ?_⟩
  obtain ⟨n, hn, hb⟩ := exists_first_overclosed h
  refine ⟨i + 1 + n, by omega, hi, by rw [← List.getElem?_drop]; exact hn, ?_⟩
  rw [List.take_drop] at hb
  exact hb

/-- in a balanced text every loop is closed -/
theorem Balanced.exists_closes {cs : List Command} (h : Balanced cs) {i : Nat} (hi : cs[i]? = some .loopStart) :
    ∃ j, Closes cs i j := by
  refine (exists_closes_iff hi).2 fun hn => ?_
  have h1 := h.lt_of_start hi
  have h2 := hn.le
  omega

/-- **Pairs never cross**: a loop opened inside another one is closed inside it. -/
theorem Closes.nested {cs : List Command} {i j i' j' : Nat} (h : Closes cs i j) (h' : Closes cs i' j') (hi : i < i')
    (hj : i' < j) : j' < j := by
  by_contra hle
  have hpos : i + 1 + (i' - (i + 1)) = i' := by omega
  have hnext : i + 1 + (i' - (i + 1) + 1) = i' + 1 := by omega
  have hstop : i' + 1 + (j - (i' + 1)) = j := by omega
  have hk : ((cs.take j).drop (i + 1))[i' - (i + 1)]? = some .loopStart := by
    rw [List.getElem?_drop, hpos, List.getElem?_take_of_lt hj]
    exact h'.start
  -- between the inner loop's start and the outer one's end more is closed than opened, which the inner loop forbids
  have hmore := h.between.lt_of_start hk
  have hless := h'.between.1 (j - (i' + 1))
  rw [List.drop_drop, hnext] at hmore
  rw [List.take_drop, List.take_take, hstop, Nat.min_eq_left (by omega)] at hless
  omega

/-- **At most one opening bracket has a balanced text behind it.** -/
theorem Balanced.unique_start {cs : List Command} {i k : Nat} (hi : cs[i]? = some .loopStart)
    (hk : cs[k]? = some .loopStart) (bi : Balanced (cs.drop (i + 1))) (bk : Balanced (cs.drop (k + 1))) : i = k := by
  -- of two such brackets the later one would stand in the balanced text behind the earlier one
  have later : ∀ {i k : Nat}, cs[k]? = some .loopStart → Balanced (cs.drop (i + 1)) → Balanced (cs.drop (k + 1)) →
      ¬ i < k := by
    intro i k hk bi bk hlt
    have hpos : i + 1 + (k - (i + 1)) = k := by omega
    have hnext : i + 1 + (k - (i + 1) + 1) = k + 1 := by omega
    have hinside : (cs.drop (i + 1))[k - (i + 1)]? = some .loopStart := by
      rw [List.getElem?_drop, hpos]
      exact hk
    have hmore := bi.lt_of_start hinside
    rw [List.drop_drop, hnext] at hmore
    have heq := bk.2
    omega
  have h1 := later hk bi bk
  have h2 := later hi bk bi
  omega

end Brainfuck
