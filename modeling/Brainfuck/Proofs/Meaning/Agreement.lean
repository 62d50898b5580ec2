/-
The machine with its table of jumps does what programs mean. An evaluation walks down the nested form of a program and
knows no jumps; the machine walks along the text and knows no nesting. `Tracks` says that the two stand at the same
tape, pointer, input, output and step count; `Follows` says that the machine, from the first command of a block, does
what the evaluation of the block comes to. `eval_followed` carries this through every block by induction on the fuel:
- an evaluation that ends without an error has the machine behind the block, in a finite number of advances;
- one that ends with an error has the machine end with that error;
- one that runs out of fuel has the machine still running after as many advances, for every level of an evaluation
  costs the machine at least one.

Main statement: `run_agrees_with_eval`, for every balanced program, input, tape length and step limit.
-/
import Mathlib.Tactic
import Brainfuck.Meaning
import Brainfuck.Proofs.Execution.Turn
import Brainfuck.Proofs.Meaning.Nesting

namespace Brainfuck.Meaning

open Sink

/-! ## One command -/

/-- a store and a state of an evaluation show the same tape, pointer and unread input -/
structure Mirrors (input : List Char) (store : Store) (s : State) : Prop where
  tape : store.cells.toList = s.tape
  pointer : store.pointer = s.pointer
  inside : s.pointer < s.tape.length
  unread : input.drop store.consumed = s.unread

namespace Mirrors

variable {input : List Char} {store : Store} {s : State}

theorem size (h : Mirrors input store s) : store.cells.size = s.tape.length := by
  rw [← h.tape, Array.length_toList]

theorem cell (h : Mirrors input store s) : store.cell = s.cell := by
  simp only [Store.cell, State.cell, ← h.tape, h.pointer, Array.getD_eq_getD_getElem?, List.getD_eq_getElem?_getD,
    Array.getElem?_toList]

theorem setCell (h : Mirrors input store s) (b : UInt8) : Mirrors input (store.setCell b) (s.setCell b) where
  tape := by simp only [Store.setCell, State.setCell, ← h.tape, h.pointer, Array.toList_setIfInBounds]
  pointer := h.pointer
  inside := by simpa [State.setCell] using h.inside
  unread := h.unread

end Mirrors

/-- a command that is no bracket has the same effect on both, or the same error -/
theorem effect_mirrored {j : Job} {store : Store} {s : State} (h : Mirrors j.input.toList store s) (pos : Nat)
    {command : Command} (hc : command.isBracket = false) :
    match effect pos s command with
    | .error e => j.decide store pos command = .error e
    | .ok s' => ∃ a, j.decide store pos command = .ok a ∧ a.next pos = pos + 1 ∧
        Mirrors j.input.toList (store.apply a) s' ∧ s'.written = s.written ++ a.emitted.toList ∧
        s'.steps = s.steps := by
  cases command with
  | moveRight =>
    by_cases hp : s.pointer + 1 = s.tape.length
    · simp only [effect, if_pos hp, Job.decide, h.pointer, h.size]
      rw [if_neg (by omega)]
    · have hlt := h.inside
      simp only [effect, if_neg hp, Job.decide, h.pointer, h.size]
      rw [if_pos (by omega)]
      exact ⟨_, rfl, rfl, ⟨h.tape, rfl, by simp only; omega, h.unread⟩, by simp [Action.emitted], trivial⟩
  | moveLeft =>
    cases hp : s.pointer with
    | zero => simp [effect, hp, Job.decide, h.pointer]
    | succ p =>
      have hlt := h.inside
      simp only [effect, hp, Job.decide, h.pointer]
      exact ⟨_, rfl, rfl, ⟨h.tape, rfl, by simp only; omega, h.unread⟩, by simp [Action.emitted], trivial⟩
  | increment =>
    refine ⟨.increment, rfl, rfl, ?_, by simp [State.setCell, Action.emitted], rfl⟩
    simp only [Store.apply, h.cell]
    exact h.setCell _
  | decrement =>
    refine ⟨.decrement, rfl, rfl, ?_, by simp [State.setCell, Action.emitted], rfl⟩
    simp only [Store.apply, h.cell]
    exact h.setCell _
  | write =>
    refine ⟨.write store.cell, rfl, rfl, ⟨h.tape, h.pointer, h.inside, h.unread⟩, ?_, rfl⟩
    simp [Action.emitted, h.cell]
  | read =>
    have hget : j.input[store.consumed]? = s.unread.head? := by
      rw [← h.unread, List.head?_drop, Array.getElem?_toList]
    cases hu : s.unread with
    | nil => simp [effect, hu, Job.decide, hget]
    | cons c cs =>
      have hset := h.setCell (UInt8.ofNat c.toNat)
      have hrest : j.input.toList.drop (store.consumed + 1) = cs := by
        rw [← List.tail_drop, h.unread, hu, List.tail_cons]
      simp only [effect, hu, Job.decide, hget, List.head?_cons]
      exact ⟨.read c, rfl, rfl, ⟨hset.tape, hset.pointer, hset.inside, hrest⟩,
        by simp [State.setCell, Action.emitted], rfl⟩
  | loopStart => cases hc
  | loopEnd => cases hc
  | other c => rfl

/-! ## Machine and evaluation -/

variable {σ : Type} [Sink σ] [Lawful σ]

/-- the machine stands where the evaluation stands; `before` is what the sink held at first -/
structure Tracks (j : Job) (before : List UInt8) (c : Config) (sink : σ) (s : State) : Prop where
  store : Mirrors j.input.toList c.store s
  steps : c.steps = s.steps
  neverFails : NeverFails sink
  taken : taken sink = before ++ s.written

variable {j : Job} {before : List UInt8} {c : Config} {sink : σ} {s : State}

theorem Tracks.limitReached? (h : Tracks j before c sink s) :
    j.limitReached? c.steps = Meaning.limitReached? j.stepLimit s := by
  rw [h.steps]
  unfold Job.limitReached? Meaning.limitReached?
  cases j.stepLimit with
  | none => rfl
  | some l => by_cases hl : l ≤ s.steps <;> simp [Option.filter, hl]

theorem Tracks.perform (h : Tracks j before c sink s) (hv : j.view = .output) {command : Command} {a : Action}
    (ht : c.turn j = .performed command a) {s' : State} (hm : Mirrors j.input.toList (c.store.apply a) s')
    (hw : s'.written = s.written ++ a.emitted.toList) (hs : s'.steps = s.steps) :
    ∃ sink', c.advance j sink = .running (c.apply a) sink' ∧ Tracks j before (c.apply a) sink' s'.tick := by
  obtain ⟨sink', hadv, hnever, htaken⟩ := Config.advance_performed h.neverFails ht
  refine ⟨sink', hadv, ⟨hm.tape, hm.pointer, hm.inside, hm.unread⟩, ?_, hnever, ?_⟩
  · simp only [Config.apply, State.tick, hs, h.steps]
  · rw [htaken, h.taken, hv]
    simp only [Config.shown, State.tick, hw, List.append_assoc]

/-- the machine does from `c` what an evaluation comes to; `stop` is the position behind the block -/
def Follows (j : Job) (before : List UInt8) (fuel stop : Nat) (c : Config) (sink : σ) : Option Result → Prop
  | none => ∃ c' sink', c.runFor j fuel sink = .running c' sink'
  | some ⟨s, none⟩ => ∃ n c' sink', c.runFor j n sink = .running c' sink' ∧ c'.ip = stop ∧ Tracks j before c' sink' s
  | some ⟨s, some e⟩ => ∃ n c' sink', c.runFor j n sink = .ended c' sink' (.error e) ∧ Tracks j before c' sink' s

/-- what follows some advances may be told from before them -/
theorem Follows.of_run {fuel fuel' stop m : Nat} {c' : Config} {sink' : σ} {r : Option Result}
    (hm : c.runFor j m sink = .running c' sink') (hle : fuel' ≤ m + fuel) (h : Follows j before fuel stop c' sink' r) :
    Follows j before fuel' stop c sink r := by
  match r with
  | none =>
    obtain ⟨d, t, hd⟩ := h
    rw [← Config.runFor_of_running hm] at hd
    exact Config.exists_running_of_le hd hle
  | some ⟨s, none⟩ =>
    obtain ⟨n, d, t, hd, hrest⟩ := h
    exact ⟨m + n, d, t, by rw [Config.runFor_of_running hm]; exact hd, hrest⟩
  | some ⟨s, some e⟩ =>
    obtain ⟨n, d, t, hd, hrest⟩ := h
    exact ⟨m + n, d, t, by rw [Config.runFor_of_running hm]; exact hd, hrest⟩

theorem Follows.of_advance {fuel stop : Nat} {c' : Config} {sink' : σ} {r : Option Result}
    (ha : c.advance j sink = .running c' sink') (h : Follows j before fuel stop c' sink' r) :
    Follows j before (fuel + 1) stop c sink r :=
  h.of_run (Config.runFor_of_advance ha 0) (by omega)

theorem Tracks.follows_limit (h : Tracks j before c sink s) {command : Command} {limit : Nat}
    (hp : j.program[c.ip]? = some command) (hl : Meaning.limitReached? j.stepLimit s = some limit) (fuel stop : Nat) :
    Follows j before fuel stop c sink (some ⟨s, some (.stepLimitReached limit)⟩) := by
  have ht := Config.turn_of_limit hp (h.limitReached?.trans hl)
  exact ⟨1, c.note (.limitReached limit c.ip), sink, Config.runFor_of_ended (Config.advance_of_limit ht sink) 0,
    ⟨h.store.tape, h.store.pointer, h.store.inside, h.store.unread⟩, h.steps, h.neverFails, h.taken⟩

/-- a bracket moves the machine only: by action `a` when the cell is zero, by action `b` when it is not -/
theorem Tracks.follows_bracket (h : Tracks j before c sink s) (hv : j.view = .output) {command : Command}
    (hp : j.program[c.ip]? = some command) {a b : Action}
    (hd : j.decide c.store c.ip command = .ok (if c.store.cell = 0 then a else b))
    (ha : c.store.apply a = c.store ∧ a.emitted = none) (hb : c.store.apply b = c.store ∧ b.emitted = none)
    {fuel stop : Nat} {r r' : Option Result}
    (zero : ∀ c' (sink' : σ), c'.ip = a.next c.ip → Tracks j before c' sink' s.tick →
      Follows j before fuel stop c' sink' r)
    (nonzero : ∀ c' (sink' : σ), c'.ip = b.next c.ip → Tracks j before c' sink' s.tick →
      Follows j before fuel stop c' sink' r') :
    Follows j before (fuel + 1) stop c sink (match Meaning.limitReached? j.stepLimit s with
      | some limit => some ⟨s, some (.stepLimitReached limit)⟩
      | none => if s.cell = 0 then r else r') := by
  cases hl : Meaning.limitReached? j.stepLimit s with
  | some limit => exact h.follows_limit hp hl _ _
  | none =>
    have ht := Config.turn_of_command hp (h.limitReached?.trans hl)
    rw [hd, h.store.cell] at ht
    have go : ∀ d : Action, c.store.apply d = c.store → d.emitted = none → c.turn j = .performed command d →
        ∃ sink', c.advance j sink = .running (c.apply d) sink' ∧ Tracks j before (c.apply d) sink' s.tick :=
      fun d hstore he hturn => h.perform hv hturn (by rw [hstore]; exact h.store) (by rw [he]; simp) rfl
    simp only
    by_cases hz : s.cell = 0
    · rw [if_pos hz] at ht ⊢
      obtain ⟨sink', hadv, htr⟩ := go a ha.1 ha.2 ht
      exact (zero _ sink' rfl htr).of_advance hadv
    · rw [if_neg hz] at ht ⊢
      obtain ⟨sink', hadv, htr⟩ := go b hb.1 hb.2 ht
      exact (nonzero _ sink' rfl htr).of_advance hadv

/-- **The machine follows an evaluation** through every block that stands in its program. -/
theorem eval_followed (hv : j.view = .output) (hm : j.matching.Correct j.program.toList) (fuel : Nat) {pos : Nat}
    {b : Block} (hp : b.Proper) (hat : StandsAt j.program.toList b.commands pos) (hip : c.ip = pos)
    (h : Tracks j before c sink s) :
    Follows j before fuel (pos + b.size) c sink (eval j.stepLimit fuel pos b s) := by
  induction fuel generalizing pos b s c sink with
  | zero => exact ⟨c, sink, rfl⟩
  | succ fuel ih =>
    cases b with
    | done => exact ⟨0, c, sink, rfl, hip, h⟩
    | leaf command rest =>
      have hget : j.program[c.ip]? = some command := by rw [hip, ← Array.getElem?_toList]; exact hat.head
      rw [eval]
      cases hl : Meaning.limitReached? j.stepLimit s with
      | some limit => exact h.follows_limit hget hl _ _
      | none =>
        have ht := Config.turn_of_command hget (h.limitReached?.trans hl)
        have he := effect_mirrored h.store c.ip hp.1
        rw [← hip]
        cases heff : effect c.ip s command with
        | error e =>
          rw [heff] at he
          rw [he] at ht
          exact ⟨1, c, sink, Config.runFor_of_ended (Config.advance_of_refused ht sink) 0, h⟩
        | ok s' =>
          rw [heff] at he
          obtain ⟨a, hd, hnext, hmir, hw, hs⟩ := he
          rw [hd] at ht
          obtain ⟨sink', hadv, htr⟩ := h.perform hv ht hmir hw hs
          have hrest := ih hp.2 (hip ▸ hat.tail) hnext htr
          rw [Block.size, show c.ip + (rest.size + 1) = c.ip + 1 + rest.size by omega]
          exact hrest.of_advance hadv
    | loop body rest =>
      have hstart : j.program[c.ip]? = some .loopStart := by rw [hip, ← Array.getElem?_toList]; exact hat.head
      have hbal := Block.balanced_commands hp.1
      have hbody : StandsAt j.program.toList body.commands (pos + 1) := hat.tail.left
      have hend : StandsAt j.program.toList (.loopEnd :: rest.commands) (pos + 1 + body.size) := by
        rw [← Block.length_commands]; exact hat.tail.right
      have hps : j.matching.partner c.ip + 1 = pos + body.size + 2 := by
        rw [hip, hat.partner_start hm hbal, Block.length_commands]
      have hpe : j.matching.partner (pos + 1 + body.size) = pos := by
        have := hat.partner_end hm hbal
        rwa [Block.length_commands, show pos + body.size + 1 = pos + 1 + body.size by omega] at this
      have hrest : StandsAt j.program.toList rest.commands (pos + body.size + 2) := by
        have := hend.tail
        rwa [show pos + 1 + body.size + 1 = pos + body.size + 2 by omega] at this
      have hstop : pos + (Block.loop body rest).size = pos + body.size + 2 + rest.size := by rw [Block.size]; omega
      rw [eval, hstop]
      refine h.follows_bracket hv hstart rfl ⟨rfl, rfl⟩ ⟨rfl, rfl⟩ ?_ ?_
      · intro c' sink' hip' htr
        exact ih hp.2 hrest (hip'.trans hps) htr
      · intro c' sink' hip' htr
        have hb := ih hp.1 hbody (hip'.trans (by rw [hip]; rfl)) htr
        cases hev : eval j.stepLimit fuel (pos + 1) body s.tick with
        | none => rw [hev] at hb; exact hb
        | some r =>
          rw [hev] at hb
          obtain ⟨s1, e⟩ := r
          cases e with
          | some e => exact hb
          | none =>
            -- the machine stands at the bracket that closes the loop
            obtain ⟨n, c1, sink1, hrun, hip1, htr1⟩ := hb
            have hclose : j.program[c1.ip]? = some .loopEnd := by
              rw [hip1, ← Array.getElem?_toList]; exact hend.head
            refine Follows.of_run hrun (Nat.le_succ_of_le (Nat.le_add_left fuel n))
              (htr1.follows_bracket hv hclose rfl ⟨rfl, rfl⟩ ⟨rfl, rfl⟩ ?_ ?_)
            · intro c' sink' hip' htr
              have hbehind : c'.ip = pos + body.size + 2 := by
                rw [hip', hip1]
                simp only [Action.next]
                omega
              exact ih hp.2 hrest hbehind htr
            · intro c' sink' hip' htr
              rw [← hstop]
              exact ih hp hat (hip'.trans (by rw [hip1]; exact hpe)) htr

/-! ## Whole runs -/

/-- the state before the first command -/
def State.start (cells : Nat) (input : List Char) : State := { tape := List.replicate cells 0, unread := input }

def Result.outcome (r : Result) : Outcome :=
  match r.error with
  | none => .ok ⟨r.state.steps, r.state.pointer⟩
  | some e => .error e

/-- a run ended as an evaluation did; `before` is what the sink held at first -/
structure Agrees (input : List Char) (before : List UInt8) (c : Config) (sink : σ) (o : Outcome) (r : Result) :
    Prop where
  outcome : o = r.outcome
  output : taken sink = before ++ r.state.written
  tape : c.store.cells.toList = r.state.tape
  pointer : c.store.pointer = r.state.pointer
  unread : input.drop c.store.consumed = r.state.unread
  steps : c.steps = r.state.steps

theorem tracks_start {i : Interpreter} (hpos : 0 < i.store.cells.size) (m : Matching) (hs : NeverFails sink)
    (journal : Journal) :
    Tracks (i.job m .output) (taken sink) (i.start journal) sink (.start i.store.cells.size i.input.toList) where
  store :=
    { tape := by simp [Interpreter.start, Interpreter.freshStore, Store.blank, State.start]
      pointer := rfl
      inside := by simpa [State.start] using hpos
      unread := rfl }
  steps := rfl
  neverFails := hs
  taken := by simp [State.start]

/-- behind the whole program the machine has finished -/
theorem Follows.ended {fuel : Nat} {r : Result} (h : Follows j before fuel j.program.size c sink (some r)) :
    ∃ n c' sink' o, c.runFor j n sink = .ended c' sink' o ∧ Agrees j.input.toList before c' sink' o r := by
  obtain ⟨s, e⟩ := r
  cases e with
  | none =>
    obtain ⟨n, c', sink', hrun, hip, ht⟩ := h
    have hend : c'.turn j = .finished := Config.turn_of_end (by rw [hip]; simp)
    refine ⟨n + 1, _, sink', _,
      (Config.runFor_succ_of_running hrun).trans (Config.advance_of_finished hend sink'),
      ?_, ht.taken, ht.store.tape, ht.store.pointer, ht.store.unread, ht.steps⟩
    simp only [Result.outcome, ht.steps, ht.store.pointer]
  | some e =>
    obtain ⟨n, c', sink', hrun, ht⟩ := h
    exact ⟨n, c', sink', _, hrun, rfl, ht.taken, ht.store.tape, ht.store.pointer, ht.store.unread, ht.steps⟩

/-- what a run does, told by the evaluation of the program's nested form -/
theorem run_followed {i : Interpreter} (hpos : 0 < i.store.cells.size) {b : Block} (hp : b.Proper)
    (hc : b.commands = i.program.toList) (hs : NeverFails sink) (journal : Journal) (fuel : Nat) :
    match eval i.stepLimit fuel 0 b (.start i.store.cells.size i.input.toList) with
    | none => i.run fuel .output sink journal = none
    | some r => ∃ n c f, i.EndsIn n .output sink journal c f ∧
        Agrees i.input.toList (taken sink) c f.sink f.outcome r := by
  obtain ⟨m, hm, hcorrect⟩ := Matching.exists_of_balanced (hc ▸ Block.balanced_commands hp)
  have hat : StandsAt (i.job m .output).program.toList b.commands 0 := hc ▸ StandsAt.self b.commands
  have hf := eval_followed (j := i.job m .output) rfl hcorrect fuel hp hat rfl (tracks_start hpos m hs journal)
  have hsize : 0 + b.size = (i.job m .output).program.size := by
    rw [Nat.zero_add, ← Block.length_commands, hc]; exact Array.length_toList
  have hl : ∀ n, (i.launch .output sink journal).runFor n = (i.start journal).runFor (i.job m .output) n sink :=
    fun n => by rw [Interpreter.launch_output hm]; rfl
  have hlimit : (i.job m .output).stepLimit = i.stepLimit := rfl
  rw [hlimit, hsize] at hf
  cases he : eval i.stepLimit fuel 0 b (.start i.store.cells.size i.input.toList) with
  | none =>
    rw [he] at hf
    obtain ⟨c, t, ht⟩ := hf
    simp only [Interpreter.run, hl, ht, Interpreter.finished?]
  | some r =>
    rw [he] at hf
    obtain ⟨n, c, t, o, ht, hagree⟩ := hf.ended
    exact ⟨n, c, _, Interpreter.endsIn_of_progress ((hl n).trans ht), hagree⟩

/-- **A run agrees with the meaning of its program.** A balanced program has a nested form; a run of the program ends
if and only if the evaluation of that form does, and then with the same outcome, output, tape, pointer, unread input
and number of steps. -/
theorem run_agrees_with_eval {program input : List Char} {limits : Limits} {i : Interpreter}
    (hi : Interpreter.load program input limits = .ok i) (hb : Balanced (program.map Command.ofChar))
    (hs : NeverFails sink) (journal : Journal) :
    ∃ b, Block.ofCommands? (program.map Command.ofChar) = some b ∧ b.Proper ∧
      (∀ fuel f, i.run fuel .output sink journal = some f →
        ∃ c r, i.EndsIn fuel .output sink journal c f ∧
          eval limits.steps fuel 0 b (.start limits.tapeLength input) = some r ∧
          Agrees input (taken sink) c f.sink f.outcome r) ∧
      (∀ fuel r, eval limits.steps fuel 0 b (.start limits.tapeLength input) = some r →
        ∃ n c f, i.EndsIn n .output sink journal c f ∧ Agrees input (taken sink) c f.sink f.outcome r) := by
  obtain ⟨b, hread⟩ := (Block.exists_ofCommands?_iff _).2 hb
  have hproper := Block.proper_of_ofCommands? hread
  obtain rfl := Interpreter.load_eq_ok hi
  have hcells : (Store.blank limits.tapeLength).cells.size = limits.tapeLength := by simp [Store.blank]
  have hcom : b.commands = (Program.ofText program).toList := by
    rw [Block.commands_of_ofCommands? hread]; simp [Program.ofText]
  have hfollowed := run_followed (i := ⟨.ofText program, input.toArray, limits.steps, .blank limits.tapeLength⟩)
    (by rw [hcells]; exact limits.tapeLength_pos) hproper hcom hs journal
  simp only [hcells] at hfollowed
  refine ⟨b, hread, hproper, ?_, ?_⟩
  · intro fuel f hf
    have h := hfollowed fuel
    cases hr : eval limits.steps fuel 0 b (.start limits.tapeLength input) with
    | none => simp only [hr] at h; rw [h] at hf; cases hf
    | some r =>
      simp only [hr] at h
      obtain ⟨n, c, g, hg, hagree⟩ := h
      obtain ⟨d, hd⟩ := Interpreter.exists_endsIn hf
      obtain ⟨rfl, rfl⟩ := hd.unique hg
      exact ⟨d, r, hd, rfl, hagree⟩
  · intro fuel r hr
    have h := hfollowed fuel
    simp only [hr] at h
    exact h

/-- counting down in a loop and then reading where there is no input -/
theorem run_agrees_with_eval_countdown :
    ∃ i : Interpreter, Interpreter.load "++[>+.<-],".toList [] { cells := some ⟨2, by decide⟩ } = .ok i ∧
      Balanced ("++[>+.<-],".toList.map Command.ofChar) ∧ NeverFails Quota.unlimited ∧
      ∃ n c f, i.EndsIn n .output Quota.unlimited .silent c f ∧ f.outcome = .error (.noInput 9) ∧ c.steps = 16 ∧
        taken f.sink = [1, 2] ∧ f.interpreter.store.cells.toList = [0, 2] := by
  have hi : ∃ i, Interpreter.load "++[>+.<-],".toList [] { cells := some ⟨2, by decide⟩ } = .ok i := ⟨_, rfl⟩
  obtain ⟨i, hi⟩ := hi
  have hb : Balanced ("++[>+.<-],".toList.map Command.ofChar) := by decide
  refine ⟨i, hi, hb, Quota.neverFails_unlimited, ?_⟩
  obtain ⟨b, hread, -, -, hends⟩ := run_agrees_with_eval hi hb Quota.neverFails_unlimited .silent
  have hblock : Block.ofCommands? ("++[>+.<-],".toList.map Command.ofChar) =
      some (.leaf .increment (.leaf .increment (.loop (.leaf .moveRight (.leaf .increment (.leaf .write
        (.leaf .moveLeft (.leaf .decrement .done))))) (.leaf .read .done)))) := by decide
  obtain rfl := Option.some.inj (hread.symm.trans hblock)
  obtain ⟨n, c, f, hf, hagree⟩ := hends 20 ⟨⟨[0, 2], 0, [], [1, 2], 16⟩, some (.noInput 9)⟩ (by decide)
  refine ⟨n, c, f, hf, hagree.outcome, hagree.steps, hagree.output, ?_⟩
  rw [hf.interpreter]
  exact hagree.tape

end Brainfuck.Meaning
