/-
The bounds of the machine, and that nothing in it can go wrong. `InBounds` is the invariant of the loop: an
instruction that is performed keeps to it (`InBounds.apply`), because the right end of the tape is compared before the
pointer moves and because partners are right and so lie in the program. Within the bounds the machine that checks its
words and its indexes (`Checked`) never faults, and does what the machine does.

Main statement: `machine_keeps_its_bounds`, for every loaded interpreter whatever ran on it before, in either view and
on any sink.
-/
import Mathlib.Tactic
import Brainfuck.Proofs.Execution.Reuse
import Brainfuck.Proofs.Safety.Checked

namespace Brainfuck

/-! ## What is to be shown -/

namespace Config

/-- the bounds of a machine with `cells` cells that executes `length` commands and reads an input of `chars`
characters -/
structure InBounds (length chars cells : Nat) (limit : Option Nat) (c : Config) : Prop where
  nonempty : 1 ≤ cells
  size : c.store.cells.size = cells
  pointer : c.store.pointer < cells
  consumed : c.store.consumed ≤ chars
  ip : c.ip ≤ length
  steps : ∀ l ∈ limit, c.steps ≤ l

variable {σ : Type} [Sink σ]

/-- what an executed command may change -/
structure Executes (c : Config) (s : σ) (command : Command) (p : Progress σ) : Prop where
  cells : ∀ k, k ≠ c.store.pointer → p.config.store.cells[k]? = c.store.cells[k]?
  pointer : p.config.store.pointer ≤ c.store.pointer + 1 ∧ c.store.pointer ≤ p.config.store.pointer + 1
  consumed : p.config.store.consumed = c.store.consumed + if command = .read then 1 else 0
  written : Sink.OnlyWritten s p.sink
  taken : ∀ [Sink.Lawful σ], Sink.taken s <+: Sink.taken p.sink

/-- an advance executes the command it stands at, or leaves store and sink as they are -/
structure Advances (j : Job) (c : Config) (s : σ) : Prop where
  executed : ∀ command a, c.turn j = .performed command a →
    j.program[c.ip]? = some command ∧ c.Executes s command (c.advance j s)
  stopped : (∀ command a, c.turn j ≠ .performed command a) →
    (c.advance j s).config.store = c.store ∧ (c.advance j s).sink = s

end Config

/-! ## Partners -/

namespace Matching.Correct

variable {cs : List Command} {m : Matching}

theorem partner_lt (h : m.Correct cs) {k : Nat} {c : Command} (hk : cs[k]? = some c) (hc : c.isBracket = true) :
    m.partner k < cs.length := by
  cases c with
  | loopStart => exact (h.starts k hk).stop_lt
  | loopEnd => exact (h.ends k hk).lt.trans (h.ends k hk).stop_lt
  | _ => cases hc

theorem getElem?_partners (h : m.Correct cs) {k : Nat} {c : Command} (hk : cs[k]? = some c) :
    m.partners[k]? = some (m.partner k) := by
  have hlt : k < m.partners.size := by
    rw [h.size]
    exact (List.getElem?_eq_some_iff.1 hk).1
  simp [partner, hlt]

end Matching.Correct

/-! ## What a command can do to the store -/

namespace Job.Decides

variable {j : Job} {s : Store} {ip : Nat} {command : Command} {a : Action}

theorem pointer_lt (h : j.Decides s ip command a) (hp : s.pointer < s.cells.size) :
    (s.apply a).pointer < s.cells.size := by
  cases h with
  | moveRight h => exact h
  | moveLeft h => exact (Nat.sub_le _ 1).trans_lt hp
  | _ => exact hp

theorem pointer_near (h : j.Decides s ip command a) :
    (s.apply a).pointer ≤ s.pointer + 1 ∧ s.pointer ≤ (s.apply a).pointer + 1 := by
  cases h <;> simp only [Store.apply, Store.setCell] <;> omega

theorem consumed_eq (h : j.Decides s ip command a) :
    (s.apply a).consumed = s.consumed + if command = .read then 1 else 0 := by
  cases h <;> rfl

theorem consumed_le (h : j.Decides s ip command a) (hc : s.consumed ≤ j.input.size) :
    (s.apply a).consumed ≤ j.input.size := by
  cases h with
  | read h => exact (Array.getElem?_eq_some_iff.1 h).1
  | _ => exact hc

/-- the next position is in the program, or just behind it -/
theorem next_le (h : j.Decides s ip command a) (hm : j.matching.Correct j.program.toList)
    (hip : j.program[ip]? = some command) : a.next ip ≤ j.program.size := by
  have hlt : ip < j.program.size := (Array.getElem?_eq_some_iff.1 hip).1
  have hcs : j.program.toList[ip]? = some command := by rwa [Array.getElem?_toList]
  cases h with
  | skipLoop h => exact hm.partner_lt hcs rfl
  | repeatLoop h => exact (hm.partner_lt hcs rfl).le
  | _ => exact hlt

end Job.Decides

theorem Store.getElem?_apply (s : Store) (a : Action) {k : Nat} (hk : k ≠ s.pointer) :
    (s.apply a).cells[k]? = s.cells[k]? := by
  have hset : ∀ b, (s.setCell b).cells[k]? = s.cells[k]? := fun b => by
    rw [setCell, Array.getElem?_setIfInBounds, if_neg hk.symm]
  cases a with
  | increment | decrement | read => exact hset _
  | _ => rfl

namespace Config

variable {σ : Type} [Sink σ]

theorem executes_perform {j : Job} {c : Config} {command : Command} {a : Action}
    (h : j.Decides c.store c.ip command a) (s : σ) : c.Executes s command (c.perform j.view command s a) := by
  have hwritten := onlyWritten_perform j.view command c s a
  have hstore : (c.perform j.view command s a).config.store = c.store.apply a := by rw [config_perform]; rfl
  exact ⟨fun k hk => by rw [hstore]; exact c.store.getElem?_apply a hk, by rw [hstore]; exact h.pointer_near,
    by rw [hstore]; exact h.consumed_eq, hwritten, hwritten.prefix_taken⟩

/-- **What an advance may change.** -/
theorem advances (j : Job) (c : Config) (s : σ) : c.Advances j s := by
  constructor
  · intro command a ht
    obtain ⟨hcommand, -, hdecide⟩ := turn_eq_performed ht
    rw [advance_eq, ht]
    exact ⟨hcommand, executes_perform (Job.decides_of_decide hdecide) s⟩
  · intro hnot
    rcases c.performs_or_ends j with ⟨command, a, ht⟩ | ⟨d, o, hstore, hadv⟩
    · exact absurd ht (hnot command a)
    · rw [hadv s]
      exact ⟨hstore, rfl⟩

/-! ## The invariant -/

variable {j : Job} {c : Config} {cells : Nat}

/-- the invariant for a job -/
abbrev Safe (j : Job) (cells : Nat) (c : Config) : Prop := c.InBounds j.program.size j.input.size cells j.stepLimit

theorem InBounds.onTape {length chars : Nat} {limit : Option Nat} (h : c.InBounds length chars cells limit) :
    c.store.pointer < c.store.cells.size := by
  rw [h.size]
  exact h.pointer

/-- a performed instruction keeps to the bounds -/
theorem InBounds.apply (h : c.Safe j cells) (hm : j.matching.Correct j.program.toList) {command : Command} {a : Action}
    (ht : c.turn j = .performed command a) : (c.apply a).Safe j cells := by
  obtain ⟨hcommand, hlimit, hdecide⟩ := turn_eq_performed ht
  have hd := Job.decides_of_decide hdecide
  refine ⟨h.nonempty, (Store.size_apply c.store a).trans h.size, ?_, hd.consumed_le h.consumed, hd.next_le hm hcommand,
    fun l hl => ?_⟩
  · rw [← h.size]
    exact hd.pointer_lt h.onTape
  -- the limit was looked at before the instruction, so one step more does not pass it
  · rw [Job.limitReached?, hl, Option.filter_some] at hlimit
    have hlt : ¬ l ≤ c.steps := by simpa using hlimit
    exact Nat.lt_of_not_le hlt

/-- and so do all that are performed one after the other -/
theorem InBounds.runFor (h : c.Safe j cells) (hm : j.matching.Correct j.program.toList) {s s' : σ} {n : Nat}
    {c' : Config} (hrun : c.runFor j n s = .running c' s') : c'.Safe j cells := by
  induction n generalizing c s with
  | zero =>
    cases hrun
    exact h
  | succ n ih =>
    rw [runFor_succ] at hrun
    cases ha : c.advance j s with
    | ended d t o =>
      rw [ha] at hrun
      cases hrun
    | running d t =>
      rw [ha] at hrun
      obtain ⟨command, a, ht, rfl⟩ := advance_running ha
      exact ih (h.apply hm ht) hrun

end Config

/-! ## No faults -/

namespace Checked

variable {σ : Type} [Sink σ] {word : Nat} {j : Job} {s : Store} {ip : Nat} {command : Command} {a : Action}

theorem decide?_eq (hm : j.matching.Correct j.program.toList) (hip : j.program[ip]? = some command)
    (hp : s.pointer < s.cells.size) (hcells : s.cells.size < word) :
    decide? word j s ip s.cell command = some (j.decide s ip command) := by
  have hcs : j.program.toList[ip]? = some command := by rwa [Array.getElem?_toList]
  have hpartner := hm.getElem?_partners hcs
  cases command with
  | moveRight => simp only [decide?, add?_eq (show s.pointer + 1 < word by omega), Job.decide]; rfl
  | moveLeft =>
    simp only [decide?, Job.decide]
    rcases Nat.eq_zero_or_pos s.pointer with hzero | hpos
    · rw [if_pos hzero, if_neg (by omega)]
    · rw [if_neg (by omega), if_pos hpos, sub?_eq hpos]
      rfl
  | read =>
    simp only [decide?, Job.decide]
    cases j.input[s.consumed]? <;> rfl
  | loopStart =>
    simp only [decide?, Job.decide, hpartner]
    split <;> rfl
  | loopEnd =>
    simp only [decide?, Job.decide, hpartner]
    split <;> rfl
  | _ => rfl

theorem effect?_eq (h : j.Decides s ip command a) (hp : s.pointer < s.cells.size) (hinput : j.input.size < word) :
    effect? word s s.cell a = some (s.apply a) := by
  cases h with
  | increment => exact setCell?_eq hp _
  | decrement => exact setCell?_eq hp _
  | read h =>
    have hlt : s.consumed < j.input.size := (Array.getElem?_eq_some_iff.1 h).1
    simp only [effect?, setCell?_eq hp, add?_eq (show s.consumed + 1 < word by omega)]
    rfl
  | _ => rfl

theorem next?_eq (h : j.Decides s ip command a) (hm : j.matching.Correct j.program.toList)
    (hip : j.program[ip]? = some command) (hword : j.program.size < word) :
    next? word (ip + 1) a = some (a.next ip) := by
  have hnext := h.next_le hm hip
  cases h with
  -- behind the partner there is the program's end at the latest
  | skipLoop h => exact add?_eq (hnext.trans_lt hword)
  | _ => rfl

theorem perform?_eq {c : Config} (hstore : effect? word c.store c.store.cell a = some (c.store.apply a))
    (hnext : next? word (c.ip + 1) a = some (a.next c.ip)) (view : View) (command : Command) (sink : σ) :
    perform? word view command c c.store.cell (c.ip + 1) sink a = some (c.perform view command sink a) := by
  simp only [perform?, hstore, hnext, Config.perform]
  cases view with
  | output => cases a.emitted <;> rfl
  | table => rfl

variable {c : Config} {cells : Nat}

/-- the lengths that a machine computes with fit into its words -/
structure Fits (word : Nat) (j : Job) (cells : Nat) : Prop where
  program : j.program.size < word
  input : j.input.size < word
  cells : cells < word

/-- **Within the bounds an advance has no fault.** -/
theorem advance?_eq (hfits : Fits word j cells) (hm : j.matching.Correct j.program.toList) (h : c.Safe j cells)
    (sink : σ) : advance? word j c sink = some (c.advance j sink) := by
  unfold advance? Config.advance
  by_cases hip : c.ip < j.program.size
  · have hcommand : j.program[c.ip]? = some j.program[c.ip] := Array.getElem?_eq_getElem hip
    have hcells : c.store.cells.size < word := by
      rw [h.size]
      exact hfits.cells
    have hbehind : add? word c.ip 1 = some (c.ip + 1) := add?_eq (Nat.lt_of_le_of_lt hip hfits.program)
    rw [if_pos hip, hcommand]
    cases j.limitReached? c.steps with
    | some limit => rfl
    | none =>
      simp only [cell?_eq h.onTape, hbehind, Option.bind_eq_bind, Option.bind_some,
        decide?_eq hm hcommand h.onTape hcells]
      cases hdecide : j.decide c.store c.ip j.program[c.ip] with
      | error e => rfl
      | ok a =>
        have hd := Job.decides_of_decide hdecide
        exact perform?_eq (effect?_eq hd h.onTape hfits.input) (next?_eq hd hm hcommand hfits.program) _ _ sink
  · have hend : j.program[c.ip]? = none := Array.getElem?_eq_none (Nat.le_of_not_lt hip)
    rw [if_neg hip, hend]

theorem runFor?_eq (hfits : Fits word j cells) (hm : j.matching.Correct j.program.toList) (h : c.Safe j cells)
    (n : Nat) (sink : σ) : runFor? word j n c sink = some (c.runFor j n sink) := by
  induction n generalizing c sink with
  | zero => rfl
  | succ n ih =>
    rw [runFor?, advance?_eq hfits hm h, Config.runFor_succ]
    cases ha : c.advance j sink with
    | ended d t o => rfl
    | running d t =>
      obtain ⟨command, a, ht, rfl⟩ := Config.advance_running ha
      exact ih (h.apply hm ht) t

end Checked

/-! ## Loaded interpreters -/

namespace Interpreter

variable {σ : Type} [Sink σ]

theorem exists_of_launch_running {i : Interpreter} {view : View} {sink s : σ} {journal : Journal} {c : Config}
    (h : (i.launch view sink journal).progress = .running c s) :
    ∃ m, m.Correct i.program.toList ∧ (i.launch view sink journal).job = i.job m view ∧ c = i.start journal := by
  have hspec := Matching.ofProgram_spec i.program
  unfold launch at h ⊢
  cases hm : Matching.ofProgram i.program with
  | error e =>
    rw [hm] at h
    cases h
  | ok m =>
    rw [hm] at h hspec
    exact ⟨m, hspec.2, rfl, (Config.afterWrite_running h).1⟩

theorem inBounds_start {i : Interpreter} (hpos : 1 ≤ i.store.cells.size) (m : Matching) (view : View)
    (journal : Journal) : (i.start journal).Safe (i.job m view) i.store.cells.size := by
  refine ⟨hpos, ?_, hpos, Nat.zero_le _, Nat.zero_le _, fun _ _ => Nat.zero_le _⟩
  exact Store.size_blank i.store.cells.size

/-- **Every configuration that a run reaches keeps to the bounds.** -/
theorem inBounds_of_reaches {i : Interpreter} (hpos : 1 ≤ i.store.cells.size) {n : Nat} {view : View} {sink s : σ}
    {journal : Journal} {c : Config} (hr : i.Reaches n view sink journal c s) :
    c.InBounds i.program.size i.input.size i.store.cells.size i.stepLimit := by
  unfold Reaches Launch.runFor at hr
  split at hr
  · rename_i d t hp
    obtain ⟨m, hm, hjob, rfl⟩ := exists_of_launch_running hp
    rw [hjob] at hr
    exact (inBounds_start hpos m view journal).runFor hm hr
  · cases hr

theorem tapeLength_le_of_load {program input : List Char} {limits : Limits} {i : Interpreter}
    (h : load program input limits = .ok i) : limits.tapeLength ≤ largestTape := by
  simp only [load] at h
  split at h
  · assumption
  · cases h

theorem size_of_load {program input : List Char} {limits : Limits} {i : Interpreter}
    (h : load program input limits = .ok i) : i.store.cells.size = limits.tapeLength := by
  rw [load_eq_ok h]
  exact Store.size_blank _

theorem cells_pos_of_load {program input : List Char} {limits : Limits} {i : Interpreter}
    (h : load program input limits = .ok i) : 1 ≤ i.store.cells.size := by
  rw [size_of_load h]
  exact limits.tapeLength_pos

/-- **A run on a tape has no fault.** -/
theorem run?_eq {word : Nat} {i : Interpreter} (hpos : 1 ≤ i.store.cells.size) (hcells : i.store.cells.size < word)
    (hprogram : i.program.size < word) (hinput : i.input.size < word) (fuel : Nat) (view : View) (sink : σ)
    (journal : Journal) : Checked.run? word fuel view i sink journal = some (i.run fuel view sink journal) := by
  simp only [Checked.run?, Checked.launch?_eq, Interpreter.run, Launch.runFor, Option.bind_eq_bind, Option.bind_some]
  cases hp : (i.launch view sink journal).progress with
  | ended c s o => rfl
  | running c s =>
    obtain ⟨m, hm, hjob, rfl⟩ := exists_of_launch_running hp
    simp only [hjob]
    rw [Checked.runFor?_eq ⟨hprogram, hinput, hcells⟩ hm (inBounds_start hpos m view journal)]
    rfl

/-- **The machine keeps to its bounds, and nothing in it can go wrong.** Let an interpreter be loaded, and used before
or not. At every instruction that a run of it reaches, the tape has the length that was asked for, the pointer is on
it, and neither the input, the program nor the limit is overrun; and what the instruction may change is bounded too.
In words that hold the lengths of program and input, and of the largest tape, the run is the one that checks every
index and every word. -/
theorem machine_keeps_its_bounds {program input : List Char} {limits : Limits} {i i' : Interpreter}
    (hi : load program input limits = .ok i) (hb : i.Becomes i') (view : View) (sink : σ) (journal : Journal) :
    (∀ n c s, i'.Reaches n view sink journal c s →
      c.InBounds program.length input.length limits.tapeLength limits.steps ∧
        c.Advances (i'.launch view sink journal).job s) ∧
    ∀ word, largestTape < word → program.length < word → input.length < word →
      ∀ fuel, Checked.run? word fuel view i' sink journal = some (i'.run fuel view sink journal) := by
  have hsame := hb.loaded hi
  have hcells : i'.store.cells.size = limits.tapeLength := hsame.cells.trans (Store.size_blank _)
  have hprogram : i'.program.size = program.length := by rw [hsame.program, Program.size_ofText]
  have hinput : i'.input.size = input.length := by rw [hsame.input, List.size_toArray]
  have hpos : 1 ≤ i'.store.cells.size := by
    rw [hcells]
    exact limits.tapeLength_pos
  refine ⟨fun n c s hr => ⟨?_, Config.advances _ c s⟩, fun word hlargest hpw hiw fuel => ?_⟩
  · have hbounds := inBounds_of_reaches hpos hr
    rwa [hprogram, hinput, hcells, hsame.stepLimit] at hbounds
  · have htape := tapeLength_le_of_load hi
    exact run?_eq hpos (by omega) (by omega) (by omega) fuel view sink journal

/-- a second run that skips a loop, stands in the last cell, and has no input to read: it ends in that error, not in a
fault -/
theorem machine_keeps_its_bounds_last_cell :
    ∃ i i' c s, load "[+]+>,".toList [] (Limits.unset.withCells ⟨2, by decide⟩) = .ok i ∧ i.Becomes i' ∧
      i'.store = ⟨#[1, 0], 1, 0⟩ ∧ i'.Reaches 3 .output Quota.unlimited .silent c s ∧ c.store.pointer = 1 ∧
      c.InBounds 6 0 2 none ∧
      (Checked.run? Count.bound 4 .output i' Quota.unlimited .silent).map (Option.map Finished.outcome) =
        some (some (.error (.noInput 5))) := by
  obtain ⟨i, hi⟩ : ∃ i, load "[+]+>,".toList [] (Limits.unset.withCells ⟨2, by decide⟩) = .ok i := ⟨_, rfl⟩
  have hloaded := load_eq_ok hi
  obtain ⟨f, hf, hstore⟩ : ∃ f, i.run 4 .output Quota.unlimited .silent = some f ∧
      f.interpreter.store = ⟨#[1, 0], 1, 0⟩ := by
    rw [hloaded]
    exact ⟨_, rfl, rfl⟩
  have hsame := sameSetup_of_run hf
  obtain ⟨c, s, hreached, hpointer⟩ :
      ∃ c s, f.interpreter.Reaches 3 .output Quota.unlimited .silent c s ∧ c.store.pointer = 1 := by
    simp only [Reaches, hsame.launch, hloaded]
    exact ⟨_, _, rfl, rfl⟩
  have hbecomes : i.Becomes f.interpreter := .run .unused hf
  obtain ⟨hbounds, hfaultless⟩ := machine_keeps_its_bounds hi hbecomes .output Quota.unlimited .silent
  have hrun : (f.interpreter.run 4 .output Quota.unlimited .silent).map Finished.outcome =
      some (.error (.noInput 5)) := by
    rw [hsame.run, hloaded]
    rfl
  refine ⟨i, f.interpreter, c, s, hi, hbecomes, hstore, hreached, hpointer, (hbounds 3 c s hreached).1, ?_⟩
  rw [hfaultless Count.bound (by decide) (by decide) (by decide), Option.map_some, hrun]

end Interpreter

end Brainfuck
