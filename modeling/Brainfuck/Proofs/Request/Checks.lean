/-
The checks before a request. `Check.all` lists what options can be refused for, in the order in which it is looked at;
the first check that finds a failure decides (`firstFailure?`), and none finds one exactly where the options are well
formed (`firstFailure?_eq_none_iff`). Program and input have the same shape, a text taken from a file or else from the
positional ones (`TextFrom`), so that one lemma, `textFrom_cases`, speaks of both. A refused request has asked nothing;
one that passes has its texts as they were given, but for one line ending at the end of a program file.

Main statement: `request_checked_before_asking`, for all options, files, answers and sinks.
-/
import Mathlib.Tactic
import Brainfuck.Proofs.Limits.Sources

namespace Brainfuck

open Dialogue

/-- a text and what is left of it without a line ending at its end -/
inductive EndingDropped : List Char → List Char → Prop where
  | lineFeed {p : List Char} (h : p.getLast? ≠ some '\r') : EndingDropped (p ++ ['\n']) p
  | both (p : List Char) : EndingDropped (p ++ ['\r', '\n']) p
  | bare {p : List Char} (h : p.getLast? ≠ some '\n') : EndingDropped p p

theorem exists_endingDropped (text : List Char) : ∃ p, EndingDropped text p := by
  by_cases hfeed : text.getLast? = some '\n'
  · obtain ⟨p, rfl⟩ := List.getLast?_eq_some_iff.1 hfeed
    by_cases hreturn : p.getLast? = some '\r'
    · obtain ⟨q, rfl⟩ := List.getLast?_eq_some_iff.1 hreturn
      rw [List.append_assoc]
      exact ⟨q, .both q⟩
    · exact ⟨p, .lineFeed hreturn⟩
  · exact ⟨text, .bare hfeed⟩

theorem EndingDropped.eq_dropLineEnding {text p : List Char} (h : EndingDropped text p) : dropLineEnding text = p := by
  cases h with
  | lineFeed h =>
    rw [dropLineEnding, List.reverse_append, List.reverse_singleton, List.singleton_append]
    split
    · rename_i heq
      have hlast : p.getLast? = some '\r' := by
        rw [List.getLast?_eq_head?_reverse, (List.cons.inj heq).2]
        rfl
      exact absurd hlast h
    · rename_i heq
      rw [← (List.cons.inj heq).2, List.reverse_reverse]
    · rename_i hnone
      exact absurd rfl (hnone _)
  | both =>
    rw [dropLineEnding, List.reverse_append]
    exact List.reverse_reverse p
  | bare h =>
    rw [List.getLast?_eq_head?_reverse] at h
    rw [dropLineEnding]
    split
    · rename_i heq
      exact absurd (congrArg List.head? heq) h
    · rename_i heq
      exact absurd (congrArg List.head? heq) h
    · rfl

theorem endingDropped_iff {text p : List Char} : EndingDropped text p ↔ dropLineEnding text = p := by
  refine ⟨EndingDropped.eq_dropLineEnding, ?_⟩
  rintro rfl
  obtain ⟨p, hp⟩ := exists_endingDropped text
  rwa [hp.eq_dropLineEnding]

namespace Options

/-! ## What is checked -/

/-- how many positional texts are taken where a file may be given instead -/
def wanted (file : Option (List Char)) : Nat := if file.isSome then 0 else 1

/-- the positional texts that are left for the input -/
def leftForInput (o : Options) : List (List Char) := o.positional.drop (wanted o.file)

/-- the positional texts that are left when program and input are taken -/
def surplus (o : Options) : List (List Char) := o.leftForInput.drop (wanted o.inputFile)

/-- a file is given and cannot be read -/
def unreadable? (reader : Reader) : Option (List Char) → Option Failure
  | none => none
  | some path =>
    match reader path with
    | .ok _ => none
    | .error e => some (.unreadable path e)

/-- no file is given, nor a text instead -/
def missing? (file : Option (List Char)) (m : Misuse) (texts : List (List Char)) : Option Failure :=
  if file = none ∧ texts = [] then some (.misuse m) else none

/-- the failure in taking a text from its file or from the positional ones -/
def textFailure? (reader : Reader) (file : Option (List Char)) (m : Misuse) (texts : List (List Char)) :
    Option Failure :=
  (unreadable? reader file).or (missing? file m texts)

end Options

/-- what is looked at before a request is made -/
inductive Check where
  | programFile
  | program
  | inputFile
  | input
  | surplus
  | tape
  deriving DecidableEq, Repr

namespace Check

/-- in this order -/
def all : List Check := [programFile, program, inputFile, input, surplus, tape]

/-- the failure that a check finds -/
def failure? (reader : Reader) (o : Options) : Check → Option Failure
  | programFile => Options.unreadable? reader o.file
  | program => Options.missing? o.file .programMissing o.positional
  | inputFile => Options.unreadable? reader o.inputFile
  | input => Options.missing? o.inputFile .inputMissing o.leftForInput
  | surplus => if o.surplus = [] then none else some (.misuse .surplusArgument)
  | tape => if o.memory = some 0 then some (.misuse .emptyTape) else none

end Check

namespace Options

variable {reader : Reader} {o : Options} {file : Option (List Char)} {m : Misuse} {texts : List (List Char)}

/-- the failure that the first check finds which finds one -/
def firstFailure? (reader : Reader) (o : Options) : Option Failure := Check.all.findSome? (Check.failure? reader o)

/-- the failure in taking program and input -/
def textsFailure? (reader : Reader) (o : Options) : Option Failure :=
  (textFailure? reader o.file .programMissing o.positional).or
    ((textFailure? reader o.inputFile .inputMissing o.leftForInput).or (Check.failure? reader o .surplus))

/-- how many of program and input are given by a file -/
def fileOptions (o : Options) : Nat := [o.file, o.inputFile].countP Option.isSome

/-- options that a request can be made of -/
structure WellFormed (reader : Reader) (o : Options) : Prop where
  programFile : ∀ path, o.file = some path → ∃ text, reader path = .ok text
  inputFile : ∀ path, o.inputFile = some path → ∃ text, reader path = .ok text
  /-- one positional text for each of program and input that no file gives -/
  counted : o.positional.length = 2 - o.fileOptions
  tape : o.memory ≠ some 0

/-- a text from its file, or the first of some texts instead -/
inductive TextFrom (reader : Reader) (file : Option (List Char)) (texts : List (List Char)) : List Char → Prop where
  | file {path text : List Char} (hfile : file = some path) (hread : reader path = .ok text) :
      TextFrom reader file texts text
  | positional {text : List Char} {rest : List (List Char)} (hfile : file = none) (htexts : texts = text :: rest) :
      TextFrom reader file texts text

/-- program and input as they were given -/
structure Taken (reader : Reader) (o : Options) (program input : List Char) : Prop where
  program : (∃ path text, o.file = some path ∧ reader path = .ok text ∧ EndingDropped text program) ∨
    o.file = none ∧ o.positional.head? = some program
  input : (∃ path, o.inputFile = some path ∧ reader path = .ok input) ∨
    o.inputFile = none ∧ o.positional.getLast? = some input

/-- the request for a program and an input, no question asked -/
def withTexts (o : Options) (fallback : Limits) (program input : List Char) : Request where
  program
  input
  limits := Limits.or ⟨o.maxSteps, o.memory.bind CellCount.ofNat?⟩ fallback
  view := if o.debug then .table else .output

/-! ## Single checks -/

theorem unreadable?_eq_none_iff :
    unreadable? reader file = none ↔ ∀ path, file = some path → ∃ text, reader path = .ok text := by
  cases file with
  | none => simp [unreadable?]
  | some path =>
    rw [unreadable?]
    cases hread : reader path with
    | error e => simp [hread]
    | ok text => simp [hread]

theorem missing?_eq_none_iff : missing? file m texts = none ↔ wanted file ≤ texts.length := by
  cases file with
  | none => cases texts <;> simp [missing?, wanted]
  | some path => simp [missing?, wanted]

theorem surplus_eq_nil_iff : o.surplus = [] ↔ o.positional.length ≤ wanted o.file + wanted o.inputFile := by
  rw [surplus, leftForInput, List.drop_drop, List.drop_eq_nil_iff]

theorem fileOptions_add_wanted (o : Options) : o.fileOptions + (wanted o.file + wanted o.inputFile) = 2 := by
  rw [fileOptions]
  cases o.file <;> cases o.inputFile <;> rfl

/-- **No check finds a failure exactly where the options are well formed.** -/
theorem firstFailure?_eq_none_iff : firstFailure? reader o = none ↔ WellFormed reader o := by
  have hcount := fileOptions_add_wanted o
  have hleft : o.leftForInput.length = o.positional.length - wanted o.file := List.length_drop
  have hsurplus : Check.failure? reader o .surplus = none ↔ o.surplus = [] := by simp [Check.failure?]
  have htape : Check.failure? reader o .tape = none ↔ o.memory ≠ some 0 := by simp [Check.failure?]
  rw [firstFailure?, List.findSome?_eq_none_iff]
  constructor
  · intro hnone
    have hprogram : wanted o.file ≤ o.positional.length := missing?_eq_none_iff.1 (hnone .program (by decide))
    have hinput : wanted o.inputFile ≤ o.leftForInput.length := missing?_eq_none_iff.1 (hnone .input (by decide))
    have hrest := surplus_eq_nil_iff.1 (hsurplus.1 (hnone .surplus (by decide)))
    refine ⟨?_, ?_, by omega, htape.1 (hnone .tape (by decide))⟩
    · exact unreadable?_eq_none_iff.1 (hnone .programFile (by decide))
    · exact unreadable?_eq_none_iff.1 (hnone .inputFile (by decide))
  · rintro ⟨hprogramFile, hinputFile, hcounted, hmemory⟩ c -
    cases c with
    | programFile => exact unreadable?_eq_none_iff.2 hprogramFile
    | program => exact missing?_eq_none_iff.2 (by omega)
    | inputFile => exact unreadable?_eq_none_iff.2 hinputFile
    | input => exact missing?_eq_none_iff.2 (by omega)
    | surplus => exact hsurplus.2 (surplus_eq_nil_iff.2 (by omega))
    | tape => exact htape.2 hmemory

/-! ## The order of the checks -/

/-- a text is taken, unless its file cannot be read or it is missing -/
theorem textFrom_cases (reader : Reader) (file : Option (List Char)) (m : Misuse) (texts : List (List Char)) :
    (∃ f, textFailure? reader file m texts = some f ∧ textFrom reader file m texts = .error f) ∨
      textFailure? reader file m texts = none ∧
        ∃ text, TextFrom reader file texts text ∧
          textFrom reader file m texts = .ok (text, texts.drop (wanted file)) := by
  cases file with
  | none =>
    cases texts with
    | nil => exact Or.inl ⟨_, rfl, rfl⟩
    | cons text rest => exact Or.inr ⟨rfl, text, .positional rfl rfl, rfl⟩
  | some path =>
    rw [textFailure?, unreadable?, textFrom, readFile]
    cases hread : reader path with
    | error e => exact Or.inl ⟨_, rfl, rfl⟩
    | ok text => exact Or.inr ⟨rfl, text, .file rfl hread, rfl⟩

/-- the tape is looked at last -/
theorem firstFailure?_eq : firstFailure? reader o = (textsFailure? reader o).or (Check.failure? reader o .tape) := by
  have hcons : ∀ c cs, (c :: cs).findSome? (Check.failure? reader o) =
      (Check.failure? reader o c).or (cs.findSome? (Check.failure? reader o)) := by
    intro c cs
    rw [List.findSome?_cons]
    cases Check.failure? reader o c <;> rfl
  simp only [firstFailure?, Check.all, hcons, List.findSome?_nil, Option.or_none, textsFailure?, textFailure?,
    Option.or_assoc]
  rfl

/-- the input is the last positional text where it is one and nothing is left -/
theorem taken_of_textFrom {first input : List Char} (hprogram : TextFrom reader o.file o.positional first)
    (hinput : TextFrom reader o.inputFile o.leftForInput input) (hsurplus : o.surplus = []) :
    Taken reader o (if o.file.isSome then dropLineEnding first else first) input where
  program := by
    rcases hprogram with ⟨hfile, hread⟩ | ⟨hfile, htexts⟩
    · rw [hfile, Option.isSome_some, if_pos rfl]
      exact Or.inl ⟨_, _, rfl, hread, endingDropped_iff.2 rfl⟩
    · rw [hfile, Option.isSome_none, if_neg Bool.false_ne_true, htexts]
      exact Or.inr ⟨rfl, rfl⟩
  input := by
    rcases hinput with ⟨hfile, hread⟩ | @⟨_, rest, hfile, htexts⟩
    · exact Or.inl ⟨_, hfile, hread⟩
    · have hrest : rest = [] := by
        rw [surplus, hfile, htexts] at hsurplus
        exact hsurplus
      refine Or.inr ⟨hfile, ?_⟩
      have hsplit : o.positional = o.positional.take (wanted o.file) ++ [input] := by
        rw [← hrest, ← htexts, leftForInput, List.take_append_drop]
      rw [hsplit, List.getLast?_concat]

/-- program and input are taken, unless one of them cannot be or too many texts are given -/
theorem programAndInput_cases (reader : Reader) (o : Options) :
    (∃ f, textsFailure? reader o = some f ∧ o.programAndInput reader = .error f) ∨
      textsFailure? reader o = none ∧
        ∃ program input, Taken reader o program input ∧ o.programAndInput reader = .ok (program, input) := by
  rw [textsFailure?, programAndInput]
  rcases textFrom_cases reader o.file .programMissing o.positional with
    ⟨f, hfailure, htext⟩ | ⟨hnone, first, hprogram, htext⟩
  · rw [hfailure, htext]
    exact Or.inl ⟨f, rfl, rfl⟩
  rw [hnone, Option.none_or, htext]
  change (∃ f, _ ∧ (textFrom reader o.inputFile .inputMissing o.leftForInput >>= _) = _) ∨
    _ ∧ ∃ program input, _ ∧ (textFrom reader o.inputFile .inputMissing o.leftForInput >>= _) = _
  rcases textFrom_cases reader o.inputFile .inputMissing o.leftForInput with
    ⟨f, hfailure, htext⟩ | ⟨hnone, input, hinput, htext⟩
  · rw [hfailure, htext]
    exact Or.inl ⟨f, rfl, rfl⟩
  rw [hnone, Option.none_or, htext, Check.failure?]
  by_cases hsurplus : o.surplus = []
  · refine Or.inr ⟨if_pos hsurplus, _, input, taken_of_textFrom hprogram hinput hsurplus, ?_⟩
    exact if_pos (List.isEmpty_iff.2 hsurplus)
  · refine Or.inl ⟨.misuse .surplusArgument, if_neg hsurplus, ?_⟩
    exact if_neg fun hempty => hsurplus (List.isEmpty_iff.1 hempty)

/-- **Preparing a request fails with the first failure**, or takes program and input. -/
theorem prepare_cases (reader : Reader) (fallback : Limits) (o : Options) :
    (∃ f, firstFailure? reader o = some f ∧ o.prepare reader fallback = .error f) ∨
      firstFailure? reader o = none ∧ ∃ program input, Taken reader o program input ∧
        o.prepare reader fallback = .ok (o.withTexts fallback program input) := by
  rw [firstFailure?_eq, prepare]
  rcases programAndInput_cases reader o with ⟨f, hfailure, htexts⟩ | ⟨hnone, program, input, htaken, htexts⟩
  · rw [hfailure, htexts]
    exact Or.inl ⟨f, rfl, rfl⟩
  rw [hnone, Option.none_or, htexts]
  by_cases hmemory : o.memory = some 0
  · have hlimits : o.limits = .error (.misuse .emptyTape) := by
      rw [limits, hmemory]
      rfl
    rw [hlimits]
    exact Or.inl ⟨_, if_pos hmemory, rfl⟩
  · rw [limits_of_memory hmemory]
    exact Or.inr ⟨if_neg hmemory, program, input, htaken, rfl⟩

/-! ## The request -/

/-- what comes of making a request, told by the checks -/
structure CheckedFirst {σ : Type} [Sink σ] (reader : Reader) (fallback : Limits) (o : Options) (answers : Answers)
    (questions : σ) (x : Exchange σ Failure Request) : Prop where
  /-- the first failure is the result, and nothing is read or asked -/
  refused : ∀ f, firstFailure? reader o = some f → x = ⟨answers, questions, .error f⟩
  /-- without one, what is left to fail is the dialogue -/
  accepted : firstFailure? reader o = none → ∃ program input, Taken reader o program input ∧
    x = if o.interactive then
        answered (o.withTexts fallback program input)
          (complete (o.withTexts fallback program input).limits questions answers)
      else ⟨answers, questions, .ok (o.withTexts fallback program input)⟩
  /-- exactly well-formed options pass -/
  wellFormed : firstFailure? reader o = none ↔ WellFormed reader o
  made : ∀ r, x.result = .ok r → WellFormed reader o ∧ Taken reader o r.program r.input
  /-- a program file may end in a line feed, with or without a carriage return, or in neither -/
  ending : ∀ r path text p, x.result = .ok r → o.file = some path → reader path = .ok text →
    p.getLast? ≠ some '\r' → p.getLast? ≠ some '\n' → text ∈ [p, p ++ ['\n'], p ++ ['\r', '\n']] → r.program = p
  /-- what is said where program or input is missing -/
  worded : (Failure.misuse .programMissing).message = "invalid arguments: Program is missing" ∧
    (Failure.misuse .inputMissing).message = "invalid arguments: Input is missing"

variable {program input : List Char}

theorem Taken.program_eq (h : Taken reader o program input) {path text p : List Char} (hfile : o.file = some path)
    (hread : reader path = .ok text) (hreturn : p.getLast? ≠ some '\r') (hfeed : p.getLast? ≠ some '\n')
    (htext : text ∈ [p, p ++ ['\n'], p ++ ['\r', '\n']]) : program = p := by
  have hdropped : EndingDropped text p := by
    simp only [List.mem_cons, List.not_mem_nil, or_false] at htext
    rcases htext with rfl | rfl | rfl
    · exact .bare hfeed
    · exact .lineFeed hreturn
    · exact .both p
  rcases h.program with ⟨path', text', hfile', hread', hdropped'⟩ | ⟨hnone, -⟩
  · rw [hfile, Option.some.injEq] at hfile'
    subst hfile'
    rw [hread, Except.ok.injEq] at hread'
    subst hread'
    rw [← hdropped.eq_dropLineEnding, ← hdropped'.eq_dropLineEnding]
  · rw [hfile] at hnone
    cases hnone

variable {σ : Type}

theorem texts_of_answered {r made : Request} {x : Exchange σ DialogueError Limits}
    (h : (answered r x).result = .ok made) : made.program = r.program ∧ made.input = r.input := by
  rcases x with ⟨unread, sink, e | limits⟩
  · cases h
  · cases h
    exact ⟨rfl, rfl⟩

variable [Sink σ] {fallback : Limits} {answers : Answers} {questions : σ}

theorem request_of_firstFailure? {f : Failure} (h : firstFailure? reader o = some f) :
    o.request reader fallback answers questions = ⟨answers, questions, .error f⟩ := by
  rcases prepare_cases reader fallback o with ⟨g, hg, hprepare⟩ | ⟨hnone, -⟩
  · rw [h, Option.some.injEq] at hg
    rw [request, hprepare, hg]
  · rw [h] at hnone
    cases hnone

theorem exists_taken_of_request (h : firstFailure? reader o = none) (fallback : Limits) (answers : Answers)
    (questions : σ) : ∃ program input, Taken reader o program input ∧
    o.request reader fallback answers questions = if o.interactive then
        answered (o.withTexts fallback program input)
          (complete (o.withTexts fallback program input).limits questions answers)
      else ⟨answers, questions, .ok (o.withTexts fallback program input)⟩ := by
  rcases prepare_cases reader fallback o with ⟨g, hg, -⟩ | ⟨-, program, input, htaken, hprepare⟩
  · rw [h] at hg
    cases hg
  · exact ⟨program, input, htaken, request_eq hprepare answers questions⟩

/-- **A request that is made comes from well-formed options**, program and input as they were given. -/
theorem wellFormed_and_taken_of_request {r : Request}
    (h : (o.request reader fallback answers questions).result = .ok r) :
    WellFormed reader o ∧ Taken reader o r.program r.input := by
  cases hfirst : firstFailure? reader o with
  | some f =>
    rw [request_of_firstFailure? hfirst] at h
    cases h
  | none =>
    obtain ⟨program, input, htaken, hx⟩ := exists_taken_of_request hfirst fallback answers questions
    refine ⟨firstFailure?_eq_none_iff.1 hfirst, ?_⟩
    rw [hx] at h
    split_ifs at h
    · obtain ⟨hprogram, hinput⟩ := texts_of_answered h
      rw [hprogram, hinput]
      exact htaken
    · cases h
      exact htaken

/-- **Options are checked in their order before anything is asked.** The first failure is the result; without one,
program and input are taken as they were given and only the dialogue is left to fail. -/
theorem request_checked_before_asking (reader : Reader) (fallback : Limits) (o : Options) (answers : Answers)
    (questions : σ) :
    CheckedFirst reader fallback o answers questions (o.request reader fallback answers questions) where
  refused _ h := request_of_firstFailure? h
  accepted h := exists_taken_of_request h fallback answers questions
  wellFormed := firstFailure?_eq_none_iff
  made _ h := wellFormed_and_taken_of_request h
  ending _ _ _ _ h hfile hread hreturn hfeed htext :=
    (wellFormed_and_taken_of_request h).2.program_eq hfile hread hreturn hfeed htext
  worded := ⟨rfl, rfl⟩

end Options

end Brainfuck
