/-
Commands that execution does not reach are irrelevant. The table of brackets depends on the positions of the brackets
only (`Matching.ofProgram_congr`), and an advance looks at no command but the one that it dispatches
(`turn_withProgram`). So a program can be changed wherever a run of it dispatches nothing.

Main statement: `unreached_commands_irrelevant`, for every loaded program, in either view and on any sink:
- a program with its brackets at the same positions makes the same run, if the two agree on what is dispatched;
- a character that is no command is an error exactly if it is dispatched, and the run is left as it stands there.
-/
import Mathlib.Tactic
import Brainfuck.Proofs.Execution.Trace
import Brainfuck.Proofs.Safety.Bounds

namespace Brainfuck

/-! ## Brackets at the same positions -/

/-- two texts of one length, with their brackets at the same positions -/
structure SameBrackets (a b : List Char) : Prop where
  length : a.length = b.length
  opening : ∀ k : Nat, a[k]? = some '[' ↔ b[k]? = some '['
  closing : ∀ k : Nat, a[k]? = some ']' ↔ b[k]? = some ']'

namespace Command

/-- the eight characters that are commands -/
def alphabet : List Char := ['>', '<', '+', '-', '.', ',', '[', ']']

theorem ofChar_eq_other {x y : Char} : ofChar x = .other y ↔ x = y ∧ x ∉ alphabet := by
  unfold ofChar
  repeat' split
  all_goals simp_all [alphabet]

theorem isBracket_ofChar {x : Char} (hopening : x ≠ '[') (hclosing : x ≠ ']') : (ofChar x).isBracket = false := by
  unfold ofChar
  repeat' split
  all_goals simp_all [isBracket]

/-- the same command, or two that are no brackets -/
def AlikeToScan (c d : Command) : Prop := c = d ∨ c.isBracket = false ∧ d.isBracket = false

end Command

/-- what the scan sees of two texts with their brackets at the same positions -/
theorem SameBrackets.alikeToScan {a b : List Char} (h : SameBrackets a b) :
    List.Forall₂ Command.AlikeToScan (a.map Command.ofChar) (b.map Command.ofChar) := by
  refine List.forall₂_iff_get.2 ⟨by simp only [List.length_map, h.length], ?_⟩
  intro k hk hk'
  have hopening := h.opening k
  have hclosing := h.closing k
  rw [List.length_map] at hk hk'
  simp only [List.getElem?_eq_getElem, hk, hk', Option.some.injEq] at hopening hclosing
  simp only [List.get_eq_getElem, List.getElem_map]
  by_cases ho : a[k] = '['
  · exact Or.inl (by rw [ho, hopening.1 ho])
  · by_cases hc : a[k] = ']'
    · exact Or.inl (by rw [hc, hclosing.1 hc])
    · exact Or.inr ⟨Command.isBracket_ofChar ho hc,
        Command.isBracket_ofChar (fun h' => ho (hopening.2 h')) (fun h' => hc (hclosing.2 h'))⟩

namespace Matching

theorem scan_cons_plain {c : Command} (hc : c.isBracket = false) (cs : List Command) (i : Nat) (openLoops : List Nat)
    (partners : Array Nat) : scan (c :: cs) i openLoops partners = scan cs (i + 1) openLoops partners := by
  cases c with
  | loopStart | loopEnd => cases hc
  | _ => rfl

/-- **The scan sees brackets only.** -/
theorem scan_congr {cs ds : List Command} (h : List.Forall₂ Command.AlikeToScan cs ds) (i : Nat) (openLoops : List Nat)
    (partners : Array Nat) : scan cs i openLoops partners = scan ds i openLoops partners := by
  induction h generalizing i openLoops partners with
  | nil => rfl
  | @cons c d cs ds hcd _ ih =>
    rcases hcd with rfl | ⟨hc, hd⟩
    · cases c with
      | loopStart => exact ih ..
      | loopEnd =>
        cases openLoops with
        | nil => rfl
        | cons o os => exact ih ..
      | _ => exact ih ..
    · rw [scan_cons_plain hc, scan_cons_plain hd, ih]

theorem ofProgram_congr {a b : List Char} (h : SameBrackets a b) :
    ofProgram (.ofText b) = ofProgram (.ofText a) := by
  simp only [ofProgram, Program.size_ofText, h.length]
  exact (scan_congr h.alikeToScan ..).symm

end Matching

namespace Interpreter

open Config Sink

variable {σ : Type} [Sink σ]

/-! ## Another program -/

variable {program program' input : List Char} {limits : Limits} {i : Interpreter}

theorem load_withProgram (hi : load program input limits = .ok i) (program' : List Char) :
    load program' input limits = .ok (i.withProgram program') := by
  have hle := tapeLength_le_of_load hi
  rw [load_eq_ok hi]
  simp only [load, if_pos hle]
  rfl

theorem startsAlike_withProgram (hi : load program input limits = .ok i) (h : SameBrackets program program') :
    i.StartsAlike (i.withProgram program') := by
  have hprogram : i.program = .ofText program := by rw [load_eq_ok hi]
  refine ⟨?_, ?_, rfl, rfl⟩
  · rw [withProgram, hprogram]
    exact Matching.ofProgram_congr h
  · rw [withProgram, hprogram, Program.size_ofText, Program.size_ofText, h.length]

variable {view : View} {sink s s₀ : σ} {journal : Journal} {n : Nat} {c : Config} {m : Matching}

/-- only the command that is dispatched is looked at -/
theorem turn_withProgram (hl : i.Launched view sink journal m s₀)
    (hlength : (Program.ofText program').size = i.program.size) (hr : i.Reaches n view sink journal c s)
    (hsame : ∀ command, i.Dispatches n view sink journal command c s →
      i.program[c.ip]? = (Program.ofText program')[c.ip]?) :
    c.turn (i.job m view) = c.turn ((i.withProgram program').job m view) := by
  cases hp : i.program[c.ip]? with
  | none =>
    have hp' : (Program.ofText program')[c.ip]? = none := by
      rw [Array.getElem?_eq_none_iff] at hp ⊢
      rwa [hlength]
    rw [turn_of_end (j := i.job m view) hp, turn_of_end (j := (i.withProgram program').job m view) hp']
  | some command =>
    cases hlimit : (i.job m view).limitReached? c.steps with
    | some l =>
      -- at the limit it only matters that some command stands here
      obtain ⟨command', hp'⟩ : ∃ command', (Program.ofText program')[c.ip]? = some command' := by
        have hlt := (Array.getElem?_eq_some_iff.1 hp).1
        rw [← hlength] at hlt
        exact ⟨_, Array.getElem?_eq_getElem hlt⟩
      rw [turn_of_limit (j := i.job m view) hp hlimit,
        turn_of_limit (j := (i.withProgram program').job m view) hp' hlimit]
    | none =>
      have hprogram := hsame command (hl.dispatches hr hp hlimit)
      exact turn_congr hprogram rfl fun _ _ _ => rfl

/-- **A program that differs only where nothing is dispatched makes the same run.** -/
theorem run_withProgram (hi : load program input limits = .ok i) (h : SameBrackets program program') {fuel : Nat}
    {f : Finished σ} (hf : i.run fuel view sink journal = some f)
    (hsame : ∀ n command c s, i.Dispatches n view sink journal command c s → program[c.ip]? = program'[c.ip]?) :
    ∃ g, (i.withProgram program').run fuel view sink journal = some g ∧ SameEnd g f := by
  have halike := startsAlike_withProgram hi h
  refine exists_sameEnd_of_rel hf (halike.run_rel ?_)
  intro n _ m s₀ c s hl hr
  refine advance_congr (turn_withProgram hl halike.length hr ?_) rfl s
  intro command hd
  calc i.program[c.ip]?
      = program[c.ip]?.map Command.ofChar := getElem?_program_of_load hi c.ip
    _ = program'[c.ip]?.map Command.ofChar := by rw [hsame n command c s hd]
    _ = (Program.ofText program')[c.ip]? := (getElem?_program_of_load (load_withProgram hi program') c.ip).symm

/-! ## Characters that are no commands -/

theorem run_of_notACommand (hi : load program input limits = .ok i) {x : Char} (hx : x ∉ Command.alphabet)
    (hprogram : program[c.ip]? = some x) {command : Command} (hd : i.Dispatches n view sink journal command c s) :
    ∃ f, i.run (n + 1) view sink journal = some f ∧ f.outcome = .error (.notACommand x c.ip) := by
  have hother : Command.ofChar x = .other x := Command.ofChar_eq_other.2 ⟨rfl, hx⟩
  have hcommand : command = .other x := by
    have hp := hd.command
    rw [getElem?_program_of_load hi, hprogram, Option.map_some, hother] at hp
    exact (Option.some.inj hp).symm
  subst hcommand
  exact ⟨_, run_of_refused hd fun m => rfl, rfl⟩

/-- the error tells of a character that was dispatched, with store and sink as they were before it -/
theorem exists_notACommand (hi : load program input limits = .ok i) {fuel : Nat} {f : Finished σ} {x : Char} {ip : Nat}
    (hf : i.run fuel view sink journal = some f) (ho : f.outcome = .error (.notACommand x ip)) :
    program[ip]? = some x ∧ x ∉ Command.alphabet ∧ ∃ n c, i.EndsAfter n view sink journal f ∧
      i.Dispatches n view sink journal (.other x) c f.sink ∧ c.ip = ip ∧ f.interpreter.store = c.store := by
  obtain ⟨n, command, c, m, hend, hd, hrefuses, hinterpreter⟩ := exists_refused hf ho trivial
  cases hrefuses with
  | other =>
    have hp := hd.command
    rw [getElem?_program_of_load hi, Option.map_eq_some_iff] at hp
    obtain ⟨y, hy, hother⟩ := hp
    obtain ⟨rfl, hx⟩ := Command.ofChar_eq_other.1 hother
    exact ⟨hy, hx, n, c, hend, hd, rfl, by rw [hinterpreter]⟩

/-- **Commands that execution does not reach are irrelevant.** Let a program be loaded and run in either view, on any
sink. Any program of the same length, with its brackets at the same positions, gives the same end if the run never
dispatches a position at which the two differ. And a character that is no command ends the run exactly if it is
dispatched; the error then tells the character and its position, and the run is left with the output and the store from
before it. -/
theorem unreached_commands_irrelevant (hi : load program input limits = .ok i) (view : View) (sink : σ)
    (journal : Journal) :
    (∀ program' fuel f, SameBrackets program program' → i.run fuel view sink journal = some f →
      (∀ n command c s, i.Dispatches n view sink journal command c s → program[c.ip]? = program'[c.ip]?) →
      ∃ i' g, load program' input limits = .ok i' ∧ i'.run fuel view sink journal = some g ∧ SameEnd g f) ∧
    (∀ x ip, x ∉ Command.alphabet → program[ip]? = some x →
      ((∃ fuel f, i.run fuel view sink journal = some f ∧ f.outcome = .error (.notACommand x ip)) ↔
        ∃ n command c s, i.Dispatches n view sink journal command c s ∧ c.ip = ip)) ∧
    ∀ fuel f x ip, i.run fuel view sink journal = some f → f.outcome = .error (.notACommand x ip) →
      program[ip]? = some x ∧ x ∉ Command.alphabet ∧ ∃ n c, i.EndsAfter n view sink journal f ∧
        i.Dispatches n view sink journal (.other x) c f.sink ∧ c.ip = ip ∧ f.interpreter.store = c.store := by
  refine ⟨?_, ?_, ?_⟩
  · intro program' fuel f hbrackets hf hsame
    obtain ⟨g, hg, hend⟩ := run_withProgram hi hbrackets hf hsame
    exact ⟨i.withProgram program', g, load_withProgram hi program', hg, hend⟩
  · intro x ip hx hprogram
    constructor
    · rintro ⟨fuel, f, hf, ho⟩
      obtain ⟨-, -, n, c, -, hd, hip, -⟩ := exists_notACommand hi hf ho
      exact ⟨n, .other x, c, f.sink, hd, hip⟩
    · rintro ⟨n, command, c, s, hd, rfl⟩
      obtain ⟨f, hf, ho⟩ := run_of_notACommand hi hx hprogram hd
      exact ⟨n + 1, f, hf, ho⟩
  · intro fuel f x ip hf ho
    exact exists_notACommand hi hf ho

/-- in a loop that is skipped it does not matter whether a command stands there; behind it it does -/
theorem unreached_commands_irrelevant_skipped_loop :
    ∃ i i' f g, load "[é]+.ü".toList [] (Limits.unset.withCells ⟨1, by decide⟩) = .ok i ∧
      load "[,]+.ü".toList [] (Limits.unset.withCells ⟨1, by decide⟩) = .ok i' ∧
      i.run 4 .output Quota.unlimited .silent = some f ∧ f.outcome = .error (.notACommand 'ü' 5) ∧
      i'.run 4 .output Quota.unlimited .silent = some g ∧ SameEnd g f ∧
      ∃ n c, i.Dispatches n .output Quota.unlimited .silent (.other 'ü') c f.sink ∧ c.ip = 5 := by
  obtain ⟨i, hi⟩ : ∃ i, load "[é]+.ü".toList [] (Limits.unset.withCells ⟨1, by decide⟩) = .ok i := ⟨_, rfl⟩
  obtain ⟨f, hf, ho⟩ : ∃ f, i.run 4 .output Quota.unlimited .silent = some f ∧
      f.outcome = .error (.notACommand 'ü' 5) := by
    rw [load_eq_ok hi]
    exact ⟨_, rfl, rfl⟩
  have hbrackets : SameBrackets "[é]+.ü".toList "[,]+.ü".toList := by
    refine ⟨rfl, fun k => ?_, fun k => ?_⟩
    · rcases k with _ | _ | k <;> simp
    · rcases k with _ | _ | k <;> simp
  have hdispatched : ∀ n command c s, i.Dispatches n .output Quota.unlimited .silent command c s →
      "[é]+.ü".toList[c.ip]? = "[,]+.ü".toList[c.ip]? := by
    intro n command c s hd
    have hlt : n < 4 := by
      by_contra hge
      obtain ⟨d, hend⟩ := exists_endsIn hf
      have hended := (hend.mono (Nat.le_of_not_lt hge)).progress
      cases hd.reaches.symm.trans hended
    have hreaches := hd.reaches
    rw [load_eq_ok hi] at hreaches
    interval_cases n <;> (cases hreaches; rfl)
  obtain ⟨hsame, -, herror⟩ := unreached_commands_irrelevant hi .output Quota.unlimited .silent
  obtain ⟨i', g, hi', hg, hend⟩ := hsame "[,]+.ü".toList 4 f hbrackets hf hdispatched
  obtain ⟨-, -, n, c, -, hd, hip, -⟩ := herror 4 f 'ü' 5 hf ho
  exact ⟨i, i', f, g, hi, hi', hf, ho, hg, hend, n, c, hd, hip⟩

end Interpreter

end Brainfuck
