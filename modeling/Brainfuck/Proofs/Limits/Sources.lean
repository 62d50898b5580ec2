/-
Where the limits of a request come from. Each limit is given by the first of four sources that has a valid value for
it: the option, the environment variable, the config file, and, in an interactive call, the dialogue. The two limits do
not influence each other, except that the second dialogue reads on where the first one stopped. An invalid value in the
environment or in the file counts as none. `Field` holds what differs between the two limits; `Field.given` is what the
first three sources come to.
-/
import Mathlib.Tactic
import Brainfuck.Proofs.Dialogue.Completion
import Brainfuck.Proofs.Limits.File
import Brainfuck.Request
import Brainfuck.Settings

namespace Brainfuck

open Sink Dialogue ConfigFile

/-- the text of the config file, where one is looked for and can be read -/
def Settings.fileText? (env : Environment) (reader : Reader) : Option (List Char) :=
  (configPath? env).bind fun path => (reader path).toOption

/-- a limit as it is looked for outside the options -/
structure Field where
  question : Question
  /-- its environment variable -/
  name : String
  /-- its key in the config file -/
  key : List Char

namespace Field

def steps : Field := ⟨.steps, Settings.stepLimitVariable, stepsKey⟩

def cells : Field := ⟨.cells, Settings.memorySizeVariable, cellsKey⟩

/-- the count that a text gives the limit, zero only where it fits -/
def read? (f : Field) (text : List Char) : Option Nat :=
  (Count.parse? text).filter fun n => f.question.zeroFits || n != 0

/-- the valid value of the environment variable, blanks around it aside -/
def fromVariable? (f : Field) (env : Environment) : Option Nat :=
  (env.text? f.name).bind fun text => f.read? (Text.trim text)

/-- the last valid value in the config file -/
def fromFile? (f : Field) (env : Environment) (reader : Reader) : Option Nat :=
  (Settings.fileText? env reader).bind fun text => lastValid f.read? (values f.key text)

/-- the value that the first of option, variable and file gives the limit -/
def given (f : Field) (option : Option Nat) (env : Environment) (reader : Reader) : Option Nat :=
  option.or ((f.fromVariable? env).or (f.fromFile? env reader))

/-! ## The fallback, field by field -/

theorem read?_steps : steps.read? = Count.parse? := by
  funext text
  unfold read?
  cases Count.parse? text <;> rfl

theorem read?_cells (text : List Char) : (cellCount? text).map Subtype.val = cells.read? text := by
  unfold cellCount? read?
  cases Count.parse? text with
  | none => rfl
  | some n =>
    cases n with
    | zero => rfl
    | succ n => exact map_val_ofNat? (Nat.succ_ne_zero n)

end Field

theorem Settings.value_fromVariable {α : Type} (env : Environment) (name : String) (read? : List Char → Option α) :
    (fromVariable env name read?).value = (env.text? name).bind fun text => read? (Text.trim text) := by
  unfold fromVariable
  cases env.text? name with
  | none => rfl
  | some text =>
    simp only [Option.bind_some]
    cases read? (Text.trim text) <;> rfl

theorem Settings.value_fromFile (env : Environment) (reader : Reader) :
    (fromFile env reader).value =
      ⟨(fileText? env reader).bind fun text => (limits text).steps,
        (fileText? env reader).bind fun text => (limits text).cells⟩ := by
  unfold fromFile fileText?
  cases configPath? env with
  | none => rfl
  | some path =>
    simp only [Option.bind_some]
    cases reader path <;> rfl

/-- the fallback for the step limit: the variable, else the file -/
theorem Settings.steps_fallback (env : Environment) (reader : Reader) :
    (fallback env reader).value.steps = (Field.steps.fromVariable? env).or (Field.steps.fromFile? env reader) := by
  have hfile : (fromFile env reader).value.steps = Field.steps.fromFile? env reader := by
    simp only [value_fromFile, Field.fromFile?, Field.read?_steps, limits_eq]
    rfl
  have hvariable : (fromEnvironment env).value.steps = Field.steps.fromVariable? env := by
    unfold Field.fromVariable?
    rw [Field.read?_steps]
    exact value_fromVariable ..
  change ((fromEnvironment env).value.steps).or (fromFile env reader).value.steps = _
  rw [hvariable, hfile]

/-- the fallback for the number of cells: the variable, else the file -/
theorem Settings.cells_fallback (env : Environment) (reader : Reader) :
    cellsOf (fallback env reader).value = (Field.cells.fromVariable? env).or (Field.cells.fromFile? env reader) := by
  have hlast : ∀ vs, (lastValid cellCount? vs).map Subtype.val = lastValid Field.cells.read? vs := by
    intro vs
    unfold lastValid
    rw [List.map_findSome?]
    exact congrArg (fun read => List.findSome? read vs.reverse) (funext Field.read?_cells)
  have hfile : cellsOf (fromFile env reader).value = Field.cells.fromFile? env reader := by
    unfold cellsOf Field.fromFile?
    rw [value_fromFile]
    cases fileText? env reader with
    | none => rfl
    | some text =>
      simp only [Option.bind_some, limits_eq, hlast]
      rfl
  have hvariable : cellsOf (fromEnvironment env).value = Field.cells.fromVariable? env := by
    change ((fromVariable env memorySizeVariable cellCount?).value).map Subtype.val = _
    rw [value_fromVariable, Option.map_bind]
    exact congrArg _ (funext fun text => Field.read?_cells (Text.trim text))
  change ((fromEnvironment env).value.cells.or (fromFile env reader).value.cells).map Subtype.val = _
  rw [Option.map_or]
  exact congrArg₂ Option.or hvariable hfile

namespace Options

variable {reader : Reader} {o : Options} {program input : List Char}

theorem limits_of_memory (hmemory : o.memory ≠ some 0) :
    o.limits = .ok ⟨o.maxSteps, o.memory.bind CellCount.ofNat?⟩ := by
  unfold limits
  cases hm : o.memory with
  | none => rfl
  | some n =>
    cases n with
    | zero => exact absurd hm hmemory
    | succ n => rfl

/-- everything but the dialogue: what the first three sources give is set -/
theorem exists_prepare (htexts : o.programAndInput reader = .ok (program, input)) (hmemory : o.memory ≠ some 0)
    (env : Environment) :
    ∃ l : Limits, o.prepare reader (Settings.fallback env reader).value =
        .ok ⟨program, input, l, if o.debug then .table else .output⟩ ∧
      l.steps = Field.steps.given o.maxSteps env reader ∧ cellsOf l = Field.cells.given o.memory env reader := by
  have hcells : (o.memory.bind CellCount.ofNat?).map Subtype.val = o.memory := by
    cases hm : o.memory with
    | none => rfl
    | some n => exact map_val_ofNat? fun h => hmemory (by rw [hm, h])
  refine ⟨Limits.or ⟨o.maxSteps, o.memory.bind CellCount.ofNat?⟩ (Settings.fallback env reader).value, ?_, ?_, ?_⟩
  · rw [prepare, htexts, limits_of_memory hmemory]
    rfl
  · change o.maxSteps.or (Settings.fallback env reader).value.steps = _
    rw [Settings.steps_fallback]
    rfl
  · change ((o.memory.bind CellCount.ofNat?).or (Settings.fallback env reader).value.cells).map Subtype.val = _
    rw [Option.map_or]
    exact congrArg₂ Option.or hcells (Settings.cells_fallback env reader)

variable {σ : Type} [Sink σ]

/-- the request with the limits that came out of the dialogue -/
def answered (r : Request) (x : Exchange σ DialogueError Limits) : Exchange σ Failure Request :=
  ⟨x.unread, x.sink, match x.result with | .ok limits => .ok { r with limits } | .error e => .error (.ofDialogue e)⟩

/-- a request that is prepared still goes through the dialogue, if one is held -/
theorem request_eq {fallback : Limits} {r : Request} (h : o.prepare reader fallback = .ok r) (answers : Answers)
    (questions : σ) :
    o.request reader fallback answers questions =
      if o.interactive then answered r (complete r.limits questions answers) else ⟨answers, questions, .ok r⟩ := by
  rw [request, h]
  cases o.interactive with
  | false => rfl
  | true =>
    simp only [if_true]
    rcases complete r.limits questions answers with ⟨unread, sink, e | l⟩ <;> rfl

/-- what comes of a request, told by what the first three sources give its limits -/
structure LimitsDecided (o : Options) (steps cells : Option Nat) (program input : List Char) (answers : Answers)
    (questions : σ) (x : Exchange σ Failure Request) : Prop where
  /-- a request that was made has each limit from the first source that gives one; the answers that were read and the
  lines that were told are those of the dialogues it took -/
  made : ∀ r, x.result = .ok r →
    r.program = program ∧ r.input = input ∧ r.view = (if o.debug then .table else .output) ∧
      ∃ mid told told', Supplied o.interactive .steps steps answers r.limits.steps mid told ∧
        Supplied o.interactive .cells cells mid (cellsOf r.limits) x.unread told' ∧
          x.sink = callAll questions (callsOf (told ++ told'))
  /-- answers that supply what is missing lead to the request, where nothing fails that is told -/
  reached : Willing questions → ∀ v mid told w rest told', Supplied o.interactive .steps steps answers v mid told →
    Supplied o.interactive .cells cells mid w rest told' →
      ∃ r, x = ⟨rest, callAll questions (callsOf (told ++ told')), .ok r⟩ ∧ r.limits.steps = v ∧ cellsOf r.limits = w
  /-- each question is put at most once, in an interactive call only and for an open limit only; the one for the cells
  when the dialogue about the steps has not failed -/
  asked : ∃ cs, (∀ log : σ → List Call, Logs log → log x.sink = log questions ++ cs) ∧
    cs.count (put .steps) ≤ 1 ∧ cs.count (put .cells) ≤ 1 ∧
    (put .steps ∈ cs ↔ o.interactive = true ∧ steps = none) ∧
    (put .cells ∈ cs ↔ o.interactive = true ∧ cells = none ∧
      ∃ v, (askUnless steps .steps questions answers).result = .ok v)
  /-- without a dialogue, or with nothing to ask, nothing is read and nothing told -/
  untouched : o.interactive = false ∨ (steps ≠ none ∧ cells ≠ none) → ∃ r, x = ⟨answers, questions, .ok r⟩

theorem supplied_of_silent {q : Question} {known v : Option Nat} {answers rest : Answers} {told : List String}
    (h : Supplied false q known answers v rest told) : v = known ∧ rest = answers ∧ told = [] := by
  cases h with
  | known n answers => exact ⟨rfl, rfl, rfl⟩
  | unset answers _ => exact ⟨rfl, rfl, rfl⟩
  | typed hasked _ => cases hasked

theorem supplied_silent (q : Question) (known : Option Nat) (answers : Answers) :
    Supplied false q known answers known answers [] := by
  cases known with
  | none => exact .unset answers rfl
  | some n => exact .known n answers

theorem limitsDecided_silent (h : o.interactive = false) (r : Request) (answers : Answers) (questions : σ)
    (hview : r.view = if o.debug then .table else .output) :
    LimitsDecided o r.limits.steps (cellsOf r.limits) r.program r.input answers questions
      ⟨answers, questions, .ok r⟩ where
  made := by
    rintro _ ⟨⟩
    rw [h]
    exact ⟨rfl, rfl, hview, answers, [], [], supplied_silent .., supplied_silent .., rfl⟩
  reached := by
    rintro - v mid told w rest told' hsteps hcells
    rw [h] at hsteps hcells
    obtain ⟨rfl, rfl, rfl⟩ := supplied_of_silent hsteps
    obtain ⟨rfl, rfl, rfl⟩ := supplied_of_silent hcells
    exact ⟨r, rfl, rfl, rfl⟩
  asked := by
    refine ⟨[], fun log _ => (List.append_nil _).symm, Nat.zero_le _, Nat.zero_le _, ?_, ?_⟩ <;> simp [h]
  untouched _ := ⟨r, rfl⟩

theorem limitsDecided_interactive (h : o.interactive = true) (r : Request) (answers : Answers) (questions : σ)
    (hview : r.view = if o.debug then .table else .output) :
    LimitsDecided o r.limits.steps (cellsOf r.limits) r.program r.input answers questions
      (answered r (complete r.limits questions answers)) := by
  have hopen : cellsOf r.limits = none ↔ r.limits.cells = none := Option.map_eq_none_iff
  have hcalls := calls_complete r.limits questions answers
  have hsupplied := @supplied_of_complete σ _ r.limits
  refine ⟨?_, ?_, ?_, ?_⟩
  · intro made hmade
    rcases hx : complete r.limits questions answers with ⟨unread, sink, e | l⟩
    · rw [hx] at hmade
      cases hmade
    · rw [hx] at hmade
      cases hmade
      rw [h]
      exact ⟨rfl, rfl, hview, hsupplied hx⟩
  · intro hwilling v mid told w rest told' hsteps hcells
    rw [h] at hsteps hcells
    have hback : cellsOf ⟨v, w.bind CellCount.ofNat?⟩ = w := hcells.kept
    have hx := complete_of_supplied (l := ⟨v, w.bind CellCount.ofNat?⟩) hwilling hsteps (hback.symm ▸ hcells)
    rw [hx]
    exact ⟨_, rfl, rfl, hback⟩
  · obtain ⟨cs, hsink, hsteps, hcells, hput, hput'⟩ := hcalls
    refine ⟨cs, fun log hlog => ?_, hsteps, hcells, by simp [hput, h], by simp [hput', h, hopen]⟩
    rw [← hlog.callAll, ← hsink]
    rfl
  · rintro (hsilent | ⟨hsteps, hcells⟩)
    · rw [h] at hsilent
      cases hsilent
    · rw [complete_known hsteps (fun hnone => hcells (hopen.2 hnone))]
      exact ⟨r, rfl⟩

/-- **Each limit is decided, on its own, by the first source that gives it a valid value.** -/
theorem request_limits_from_first_source (htexts : o.programAndInput reader = .ok (program, input))
    (hmemory : o.memory ≠ some 0) (env : Environment) (answers : Answers) (questions : σ) :
    LimitsDecided o (Field.steps.given o.maxSteps env reader) (Field.cells.given o.memory env reader) program input
      answers questions (o.request reader (Settings.fallback env reader).value answers questions) := by
  obtain ⟨l, hprepare, hsteps, hcells⟩ := exists_prepare htexts hmemory env
  rw [request_eq hprepare, ← hsteps, ← hcells]
  cases h : o.interactive with
  | false => exact limitsDecided_silent h ⟨program, input, l, if o.debug then .table else .output⟩ answers questions rfl
  | true =>
    exact limitsDecided_interactive h ⟨program, input, l, if o.debug then .table else .output⟩ answers questions rfl

/-- an environment with a step limit, with no cells, and with a config file -/
def oneLimit : Environment where
  bindings := [("BF_CONFIG", Text.encode "c".toList), ("BF_MAX_STEPS", Text.encode " 7\t".toList),
    ("BF_MEMORY_SIZE", Text.encode "0".toList)]

/-- a file system with nothing but a config file, whose own step limit does not come to bear -/
def onlyConfig : Reader := fun path =>
  if path = "c".toList then .ok "[limits]\nmax_steps = 9\nmemory_size = none\n".toList else .error .notFound

/-- a program without input and without options for its limits -/
def asking : Options := { positional := ["+".toList, []], interactive := true }

/-- the variable gives the steps; variable and file have no valid number of cells, so that it is asked for and typed -/
theorem request_limits_from_first_source_mixed :
    let answers := [Text.encode "y\n".toList, Text.encode "1 6\n".toList]
    let x := asking.request onlyConfig (Settings.fallback oneLimit onlyConfig).value answers Recorder.blank
    asking.programAndInput onlyConfig = .ok ("+".toList, []) ∧ asking.memory ≠ some 0 ∧
      LimitsDecided asking (some 7) none "+".toList [] answers Recorder.blank x ∧
      x.sink.calls = callsOf [Question.cells.choice, Question.cells.entry] ∧
      (x.result.toOption.map fun r => (r.limits.steps, cellsOf r.limits)) = some (some 7, some 16) := by
  have htexts : asking.programAndInput onlyConfig = .ok ("+".toList, []) := rfl
  have hsteps : Field.steps.given none oneLimit onlyConfig = some 7 := rfl
  have hcells : Field.cells.given none oneLimit onlyConfig = none := rfl
  have h := request_limits_from_first_source htexts (by decide) oneLimit
    [Text.encode "y\n".toList, Text.encode "1 6\n".toList] Recorder.blank
  rw [show asking.maxSteps = none from rfl, show asking.memory = none from rfl, hsteps, hcells] at h
  exact ⟨htexts, by decide, h, rfl, rfl⟩

end Options

end Brainfuck
