/-
The input is read from left to right, one character for each read, and only what was read can matter. How many
characters a configuration has consumed is how many reads the run has executed (`consumed_eq_reads`). So a longer input
shows only where the shorter one is exhausted, and of a character only its low byte ever reaches the tape.

Main statement: `input_read_in_order`, for every loaded interpreter and any sink:
- the reads of a run store the characters in their order, by low byte, and a run ends for want of input exactly at a
  read that comes after as many reads as there are characters;
- a run that does not end for want of input is the same with any text behind its input;
- inputs that agree character by character in their low bytes make the same run.
-/
import Mathlib.Tactic
import Brainfuck.Proofs.Execution.Trace
import Brainfuck.Proofs.Safety.Bounds

namespace Brainfuck

/-! ## Inputs seen by one command -/

/-- two characters that are the same byte to the machine -/
def SameLowByte (x y : Char) : Prop := x.toNat % 256 = y.toNat % 256

theorem SameLowByte.lowByte_eq {x y : Char} (h : SameLowByte x y) : lowByte x = lowByte y := by
  apply UInt8.toNat_inj.1
  rw [toNat_lowByte, toNat_lowByte]
  exact h

namespace Job

/-- the same job on another input -/
def given (j : Job) (input : List Char) : Job := { j with input := input.toArray }

variable {j : Job} {input : List Char}

/-- more input shows only to a read for which there was none -/
theorem decide_append (hj : j.input = input.toArray) (more : List Char) (s : Store) (ip : Nat) (command : Command) :
    (j.given (input ++ more)).decide s ip command = j.decide s ip command ∨
      j.decide s ip command = .error (.noInput ip) := by
  cases command with
  | read =>
    simp only [decide, given, hj, List.getElem?_toArray]
    cases h : input[s.consumed]? with
    | none => exact Or.inr rfl
    | some x =>
      left
      have hlt : s.consumed < input.length := (List.getElem?_eq_some_iff.1 h).1
      rw [List.getElem?_append_left hlt, h]
  | _ => exact Or.inl rfl

/-- two inputs of the same low bytes differ only in the character that a read takes -/
theorem decide_forall₂ {input' : List Char} (h : List.Forall₂ SameLowByte input input') (hj : j.input = input.toArray)
    (s : Store) (ip : Nat) (command : Command) :
    (j.given input').decide s ip command = j.decide s ip command ∨
      ∃ x y, SameLowByte x y ∧ j.decide s ip command = .ok (.read x) ∧
        (j.given input').decide s ip command = .ok (.read y) := by
  cases command with
  | read =>
    obtain ⟨hlength, hget⟩ := List.forall₂_iff_get.1 h
    simp only [decide, given, hj, List.getElem?_toArray]
    rcases Nat.lt_or_ge s.consumed input.length with hlt | hge
    · have hlt' : s.consumed < input'.length := hlength ▸ hlt
      right
      refine ⟨input[s.consumed], input'[s.consumed], hget s.consumed hlt hlt', ?_, ?_⟩
      · simp [hlt]
      · simp [hlt']
    · left
      rw [List.getElem?_eq_none hge, List.getElem?_eq_none (hlength ▸ hge)]
  | _ => exact Or.inl rfl

end Job

namespace Config

variable {σ : Type} [Sink σ] {j : Job} {c : Config} {input : List Char}

theorem apply_read {x y : Char} (h : SameLowByte x y) : c.apply (.read x) = c.apply (.read y) := by
  simp only [Config.apply, Store.apply, h.lowByte_eq]
  rfl

/-- with more input the turn is the same, unless the input is exhausted -/
theorem turn_append (hj : j.input = input.toArray) (more : List Char)
    (hno : c.turn j ≠ .refused (.noInput c.ip)) : c.turn j = c.turn (j.given (input ++ more)) := by
  refine turn_congr rfl rfl ?_
  intro command hcommand hlimit
  rcases Job.decide_append hj more c.store c.ip command with h | h
  · exact h.symm
  · rw [turn_of_command hcommand hlimit, h] at hno
    exact absurd rfl hno

/-- an advance does not tell inputs of the same low bytes apart, where the output is looked at -/
theorem advance_forall₂ {input' : List Char} (h : List.Forall₂ SameLowByte input input') (hj : j.input = input.toArray)
    (hview : j.view = .output) (s : σ) : c.advance j s = c.advance (j.given input') s := by
  by_cases hsame : c.turn j = c.turn (j.given input')
  · exact advance_congr hsame rfl s
  · -- the turns differ only in what a read takes, and of that only the byte is kept
    cases hp : j.program[c.ip]? with
    | none => exact absurd ((turn_of_end hp).trans (turn_of_end (j := j.given input') hp).symm) hsame
    | some command =>
      cases hl : j.limitReached? c.steps with
      | some l => exact absurd ((turn_of_limit hp hl).trans (turn_of_limit (j := j.given input') hp hl).symm) hsame
      | none =>
        have ht := turn_of_command hp hl
        have ht' := turn_of_command (j := j.given input') hp hl
        rcases Job.decide_forall₂ h hj c.store c.ip command with heq | ⟨x, y, hxy, hx, hy⟩
        · rw [heq] at ht'
          exact absurd (ht.trans ht'.symm) hsame
        · rw [hx] at ht
          rw [hy] at ht'
          have hview' : (j.given input').view = .output := hview
          rw [advance_eq, advance_eq, ht, ht', hview, hview']
          simp only [perform, Action.emitted, apply_read hxy]

end Config

/-! ## The reads of a run -/

namespace Interpreter

open Config Sink

variable {σ : Type} [Sink σ]

/-- the same interpreter with another input -/
def given (i : Interpreter) (input : List Char) : Interpreter := { i with input := input.toArray }

/-- the command at which a run stands after `n` instructions, while it goes on -/
def commandAt? (i : Interpreter) (view : View) (sink : σ) (journal : Journal) (n : Nat) : Option Command :=
  match (i.launch view sink journal).runFor n with
  | .running c _ => i.program[c.ip]?
  | .ended .. => none

/-- how many of the first `n` instructions of a run are reads -/
def reads (i : Interpreter) (view : View) (sink : σ) (journal : Journal) (n : Nat) : Nat :=
  Nat.count (fun k => i.commandAt? view sink journal k = some .read) n

/-- what the reads of a run do -/
structure ReadsInOrder (i : Interpreter) (input : List Char) (view : View) (sink : σ) (journal : Journal) : Prop where
  /-- a read that is executed as number `k` stores the low byte of character `k` in the cell under the pointer -/
  stored : ∀ n c s c' s', i.Dispatches n view sink journal .read c s → i.Reaches (n + 1) view sink journal c' s' →
    ∃ x, input[i.reads view sink journal n]? = some x ∧ c'.store.cell.toNat = x.toNat % 256 ∧
      c'.store.pointer = c.store.pointer
  /-- a run ends for want of input exactly at a read that is dispatched after as many reads as there are characters -/
  exhausted : ∀ ip, (∃ fuel f, i.run fuel view sink journal = some f ∧ f.outcome = .error (.noInput ip)) ↔
    ∃ n c s, i.Dispatches n view sink journal .read c s ∧ c.ip = ip ∧ i.reads view sink journal n = input.length

variable {i : Interpreter} {view : View} {sink : σ} {journal : Journal} {n : Nat} {c : Config} {s : σ}

theorem commandAt?_of_reaches (h : i.Reaches n view sink journal c s) :
    i.commandAt? view sink journal n = i.program[c.ip]? := by
  rw [Reaches] at h
  rw [commandAt?, h]

/-- **A run has consumed as many characters as it has executed reads.** -/
theorem consumed_eq_reads (h : i.Reaches n view sink journal c s) :
    c.store.consumed = i.reads view sink journal n := by
  obtain ⟨m, s₀, hl⟩ := h.exists_launched
  induction n generalizing c s with
  | zero =>
    obtain ⟨rfl, -⟩ := hl.reaches_zero.unique h
    rw [reads, Nat.count_zero]
    rfl
  | succ n ih =>
    obtain ⟨c₀, s₀, command, a, hd, ht, -, rfl⟩ := hl.exists_performed h
    have hdecides := Job.decides_of_decide (turn_eq_performed ht).2.2
    have hcommand : i.commandAt? view sink journal n = some command :=
      (commandAt?_of_reaches hd.reaches).trans hd.command
    calc (c₀.apply a).store.consumed
        = c₀.store.consumed + if command = .read then 1 else 0 := hdecides.consumed_eq
      _ = i.reads view sink journal n + if i.commandAt? view sink journal n = some .read then 1 else 0 := by
          rw [ih hd.reaches, hcommand]
          simp only [Option.some.injEq]
      _ = i.reads view sink journal (n + 1) := (Nat.count_succ _ n).symm

variable {program input : List Char} {limits : Limits}

theorem load_given (hi : load program input limits = .ok i) (input' : List Char) :
    load program input' limits = .ok (i.given input') := by
  have hle := tapeLength_le_of_load hi
  rw [load_eq_ok hi]
  simp only [load, if_pos hle]
  rfl

theorem startsAlike_given (i : Interpreter) (input' : List Char) : i.StartsAlike (i.given input') :=
  ⟨rfl, rfl, rfl, rfl⟩

theorem readsInOrder (hi : load program input limits = .ok i) (view : View) (sink : σ) (journal : Journal) :
    i.ReadsInOrder input view sink journal := by
  have hinput := input_of_load hi
  constructor
  · intro n c s c' s' hd hr
    obtain ⟨m, s₀, hl⟩ := hr.exists_launched
    obtain ⟨c₀, t₀, command, a, hd', ht, -, rfl⟩ := hl.exists_performed hr
    obtain ⟨rfl, rfl⟩ := hd.reaches.unique hd'.reaches
    obtain rfl : command = .read := Option.some.inj (hd'.command.symm.trans hd.command)
    have hpointer := (inBounds_of_reaches (cells_pos_of_load hi) hd.reaches).onTape
    cases Job.decides_of_decide (turn_eq_performed ht).2.2 with
    | read hx =>
      rename_i x
      rw [show (i.job m view).input = input.toArray from hinput, List.getElem?_toArray,
        consumed_eq_reads hd.reaches] at hx
      refine ⟨x, hx, ?_, rfl⟩
      calc ((c₀.apply (.read x)).store.cell).toNat
          = ((c₀.store.setCell (lowByte x)).cell).toNat := rfl
        _ = (lowByte x).toNat := by rw [Store.cell_setCell hpointer]
        _ = x.toNat % 256 := toNat_lowByte x
  · intro ip
    constructor
    · rintro ⟨fuel, f, hf, ho⟩
      obtain ⟨n, command, c, m, -, hd, hrefuses, -⟩ := exists_refused hf ho trivial
      cases hrefuses with
      | read hnone =>
        have hle := (inBounds_of_reaches (cells_pos_of_load hi) hd.reaches).consumed
        refine ⟨n, c, f.sink, hd, rfl, ?_⟩
        rw [show (i.job m view).input = input.toArray from hinput, List.getElem?_toArray,
          List.getElem?_eq_none_iff] at hnone
        rw [hinput, List.size_toArray] at hle
        rw [← consumed_eq_reads hd.reaches]
        omega
    · rintro ⟨n, c, s, hd, rfl, hall⟩
      refine ⟨n + 1, _, run_of_refused hd fun m => ?_, rfl⟩
      have hnone : (i.job m view).input[c.store.consumed]? = none := by
        rw [show (i.job m view).input = input.toArray from hinput, List.getElem?_toArray, consumed_eq_reads hd.reaches,
          hall, List.getElem?_length]
      simp only [Job.decide, hnone]

/-- a run that never wants for input does not see what stands behind it -/
theorem run_append (hi : load program input limits = .ok i) {fuel : Nat} {f : Finished σ}
    (hf : i.run fuel view sink journal = some f) (hno : ∀ ip, f.outcome ≠ .error (.noInput ip)) (more : List Char) :
    ∃ g, (i.given (input ++ more)).run fuel view sink journal = some g ∧ SameEnd g f := by
  refine exists_sameEnd_of_rel hf ((startsAlike_given i _).run_rel ?_)
  intro n hn m s₀ c s hl hr
  have hinput : (i.job m view).input = input.toArray := input_of_load hi
  refine advance_congr (turn_append hinput more ?_) rfl s
  intro ht
  have hend := (hl.endsAfter hr (advance_of_refused ht s)).run
  obtain rfl := run_unique hend hf
  exact hno c.ip rfl

theorem run_forall₂ (hi : load program input limits = .ok i) {input' : List Char}
    (h : List.Forall₂ SameLowByte input input') (fuel : Nat) (sink : σ) (journal : Journal) :
    Option.Rel SameEnd (i.run fuel .output sink journal) ((i.given input').run fuel .output sink journal) := by
  refine (startsAlike_given i input').run_rel ?_
  intro n hn m s₀ c s hl hr
  exact advance_forall₂ h (input_of_load hi) rfl s

/-- **The input is read in order, by low byte, and nothing behind what was read matters.** Let an interpreter be loaded
and run on any sink. Its reads take the characters of the input one by one, and it wants for input exactly at the read
for which there is none left. If it ends without that, any longer input gives the same end. And an input with the same
low bytes gives the same output, outcome, tape and pointer, or no end either. -/
theorem input_read_in_order (hi : load program input limits = .ok i) (sink : σ) (journal : Journal) :
    (∀ view, i.ReadsInOrder input view sink journal) ∧
    (∀ view fuel f, i.run fuel view sink journal = some f → (∀ ip, f.outcome ≠ .error (.noInput ip)) →
      ∀ more, ∃ i' g, load program (input ++ more) limits = .ok i' ∧ i'.run fuel view sink journal = some g ∧
        SameEnd g f) ∧
    ∀ input', List.Forall₂ SameLowByte input input' → ∃ i', load program input' limits = .ok i' ∧
      ∀ fuel, Option.Rel SameEnd (i.run fuel .output sink journal) (i'.run fuel .output sink journal) := by
  refine ⟨?_, ?_, ?_⟩
  · intro view
    exact readsInOrder hi view sink journal
  · intro view fuel f hf hno more
    obtain ⟨g, hg, hgf⟩ := run_append hi hf hno more
    exact ⟨i.given (input ++ more), g, load_given hi _, hg, hgf⟩
  · intro input' h
    exact ⟨i.given input', load_given hi input', fun fuel => run_forall₂ hi h fuel sink journal⟩

/-- a program that copies its input up to a zero: it does not see what stands behind the zero, and `š` (code 0x161) is
to it what `a` is -/
theorem input_read_in_order_copy :
    ∃ i i' i'' g h, load ",[.,]".toList "a\x00".toList (Limits.unset.withCells ⟨1, by decide⟩) = .ok i ∧
      i.ReadsInOrder "a\x00".toList .output Quota.unlimited .silent ∧
      load ",[.,]".toList "a\x00b".toList (Limits.unset.withCells ⟨1, by decide⟩) = .ok i' ∧
      i'.run 6 .output Quota.unlimited .silent = some g ∧ g.outcome = .ok ⟨5, 0⟩ ∧ taken g.sink = [97] ∧
      load ",[.,]".toList "š\x00".toList (Limits.unset.withCells ⟨1, by decide⟩) = .ok i'' ∧
      i''.run 6 .output Quota.unlimited .silent = some h ∧ h.outcome = .ok ⟨5, 0⟩ ∧ taken h.sink = [97] := by
  obtain ⟨i, hi⟩ :
      ∃ i, load ",[.,]".toList "a\x00".toList (Limits.unset.withCells ⟨1, by decide⟩) = .ok i := ⟨_, rfl⟩
  obtain ⟨f, hf, ho, htaken⟩ : ∃ f, i.run 6 .output Quota.unlimited .silent = some f ∧ f.outcome = .ok ⟨5, 0⟩ ∧
      taken f.sink = [97] := by
    rw [load_eq_ok hi]
    exact ⟨_, rfl, rfl, rfl⟩
  obtain ⟨hreads, hmore, hbytes⟩ := input_read_in_order hi Quota.unlimited .silent
  obtain ⟨i', g, hi', hg, hgf⟩ := hmore .output 6 f hf (by simp [ho]) "b".toList
  obtain ⟨i'', hi'', hrel⟩ := hbytes "š\x00".toList (.cons rfl (.cons rfl .nil))
  obtain ⟨h, hh, hhf⟩ := exists_sameEnd_of_rel hf (hrel 6)
  exact ⟨i, i', i'', g, h, hi, hreads .output, hi', hg, hgf.outcome.trans ho, by rw [hgf.sink, htaken], hi'', hh,
    hhf.outcome.trans ho, by rw [hhf.sink, htaken]⟩

end Interpreter

end Brainfuck
