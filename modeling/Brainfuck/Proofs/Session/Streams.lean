/-
What a call writes to which stream, and how it exits. A call for help writes the usage to the error stream and reads
nothing. In every other call the request is made first: `asked` makes it with a recorder for the questions, so that
what is recorded is the dialogue and nothing else. A call whose request fails (`Refusal`) writes nothing to the output
stream; one whose request is fulfilled (`Verdict`) writes there what fulfilling it writes. The error stream gets, in
this order, the log of the preparations, the dialogue, the log of the run and the diagnosis.

Main statement: `serve_separates_streams`, for all surroundings and options. The error stream takes everything; the
device under the output stream may fail in any way. Exit code 2 is for misuse alone, which fulfilling a request never
comes to (`verdict_of_fulfil`). The message of a diagnosis is one line exactly where the name of the program and what
the message quotes are free of line feeds; a path is quoted as it was given, so that one with a line feed breaks the
message (`message_broken_by_path`).
-/
import Mathlib.Tactic
import Brainfuck.Proofs.Report.Pointing
import Brainfuck.Proofs.Request.Mirrored
import Brainfuck.Proofs.Session.Diagnosis
import Brainfuck.Session

namespace Brainfuck

open Sink Text

theorem Quota.willing_of_room {q : Quota} (hroom : q.room = none) (hflush : q.flushRefusal = none) : Willing q := by
  have hall (cs : List Call) : (callAll q cs).room = none ∧ (callAll q cs).flushRefusal = none := by
    induction cs generalizing q with
    | nil => exact ⟨hroom, hflush⟩
    | cons c cs ih =>
      cases c with
      | write bs =>
        have hsink : call q (.write bs) = q.take bs := congrArg Written.sink (write_of_room hroom bs)
        refine ih (q := call q (.write bs)) ?_ ?_
        · rw [hsink]
          exact room_take hroom bs
        · rw [hsink]
          exact hflush
      | flush => exact ih (q := call q .flush) hroom hflush
  refine ⟨fun cs bs => ?_, fun cs => (hall cs).2⟩
  exact congrArg Written.failure (write_of_room (hall cs).1 bs)

/-! ## How a fulfilled request can end -/

/-- **A fulfilled request has succeeded, or failed on its sink or in its run**, and an error of the run that points
somewhere points into the program. -/
theorem Request.result_of_fulfil {σ : Type} [Sink σ] {r : Request} {fuel : Nat} {sink : σ} {journal : Journal}
    {y : Fulfilled σ} (h : r.fulfil fuel sink journal = some y) :
    y.result = .ok () ∨ (∃ e, y.result = .error (.device e)) ∨
      ∃ e, y.result = .error (.run e) ∧ ∀ pos, e.position = some pos → pos < r.program.length ∨ pos = 0 := by
  cases hi : r.interpreter with
  | error e =>
    rw [fulfil_of_no_tape hi] at h
    cases h
    simp only [interpreter, Interpreter.load] at hi
    split at hi <;> cases hi
    exact .inr (.inr ⟨_, rfl, by rintro pos ⟨⟩⟩)
  | ok i =>
    have hsize : i.program.size = r.program.length := by
      rw [Interpreter.load_eq_ok hi, Program.size_ofText]
    rw [fulfil_eq hi] at h
    cases hp : (i.launch r.view (Tracked.mk sink none) journal).runFor fuel with
    | running c t =>
      rw [hp] at h
      cases h
    | ended c t o =>
      rw [hp] at h
      cases h
      obtain ⟨-, hresult⟩ := conclude_eq (c := c) (o := o) (Prod.eta t.finish).symm
      cases hf : t.finish.2 with
      | some e => exact .inr (.inl ⟨e, by rw [hresult, hf]; rfl⟩)
      | none =>
        rw [hf] at hresult
        cases o with
        | ok summary => exact .inl hresult
        | error e =>
          refine .inr (.inr ⟨e, hresult, fun pos hpos => ?_⟩)
          have hat := Interpreter.position_of_run (Interpreter.endsIn_of_progress hp).run rfl hpos
          rw [hsize] at hat
          exact hat.imp_right And.right

namespace Session

/-- a message behind the program's name, and a line feed -/
def line (s : Surroundings) (message : String) : String := Report.messageLine s.terminal s.name message

/-- exit code and diagnosis where no request was made: misuse exits with 2 and brings the hint, all else exits with 1 -/
inductive Refusal (s : Surroundings) : Failure → Nat → String → Prop where
  | misuse (m : Misuse) : Refusal s (.misuse m) 2
      (line s (Failure.misuse m).message ++ ("Run \"" ++ s.name ++ " --help\" for usage.\n"))
  | other {f : Failure} (h : ∀ m, f ≠ .misuse m) : Refusal s f 1 (line s f.message)

/-- exit code and diagnosis of a fulfilled request: nothing is said about success, and an error of the run that points
into the program is shown there -/
inductive Verdict (s : Surroundings) (program : List Char) : Except Failure Unit → Nat → String → Prop where
  | success : Verdict s program (.ok ()) 0 ""
  | device (e : DeviceError) : Verdict s program (.error (.device e)) 1 (line s (Failure.device e).told)
  | told {e : RunError} (h : e.position = none) :
      Verdict s program (.error (.run e)) 1 (line s (Failure.run e).told)
  | shown {e : RunError} {pos : Nat} {w : Window} (h : e.position = some pos)
      (hw : Window.around? program pos = some w) :
      Verdict s program (.error (.run e)) 1 (line s (Failure.run e).told ++ String.ofList w.text)

/-- what stands on the error stream about a result -/
def verdictText (s : Surroundings) (program : List Char) : Except Failure Unit → String
  | .ok () => ""
  | .error f => failureText s program f

/-- the code that a result exits with -/
def codeOf : Except Failure Unit → Nat
  | .ok () => 0
  | .error f => f.exitCode

theorem refusal (s : Surroundings) (f : Failure) : Refusal s f f.exitCode (refusalText s f) := by
  unfold refusalText
  cases f with
  | misuse m => exact .misuse m
  | _ =>
    rw [if_neg (by rintro ⟨⟩), String.append_empty]
    exact .other (by rintro m ⟨⟩)

/-- **Fulfilling a request never comes to misuse**, and in a program that fits into memory all there is to show is
shown. -/
theorem verdict_of_fulfil {σ : Type} [Sink σ] (s : Surroundings) {r : Request} {fuel : Nat} {sink : σ}
    {journal : Journal} {y : Fulfilled σ} (h : r.fulfil fuel sink journal = some y)
    (hlength : r.program.length + Window.reach < Count.bound) :
    Verdict s r.program y.result (codeOf y.result) (verdictText s r.program y.result) := by
  rcases Request.result_of_fulfil h with hresult | ⟨e, hresult⟩ | ⟨e, hresult, hpos⟩
  · rw [hresult]
    exact .success
  · rw [hresult]
    exact .device e
  · rw [hresult]
    cases hp : e.position with
    | none =>
      have htext : verdictText s r.program (.error (.run e)) = line s (Failure.run e).told := by
        simp only [verdictText, failureText, Report.runError?, hp]
        rfl
      rw [htext]
      exact .told hp
    | some pos =>
      have hbound : pos + Window.reach + 1 < Count.bound := by
        have hsmall : Window.reach + 1 < Count.bound := by decide
        rcases hpos pos hp with hin | rfl
        · omega
        · omega
      obtain ⟨w, hw⟩ : ∃ w, Window.around? r.program pos = some w := ⟨_, Window.around?_eq r.program hbound⟩
      have htext : verdictText s r.program (.error (.run e)) =
          line s (Failure.run e).told ++ String.ofList w.text := by
        simp only [verdictText, failureText, Report.runError?, hp, hw]
        rfl
      rw [htext]
      exact .shown hp hw

/-! ## The streams of a call -/

/-- the request of a call, made with a recorder for the questions -/
def asked (s : Surroundings) (o : Options) : Exchange Recorder Failure Request :=
  o.request s.reader (Settings.fallback s.environment s.reader).value (answers s) Recorder.blank

/-- the lines of a log as bytes -/
def logBytes (j : Journal) : List UInt8 := Text.encode (logText j.events.toList).toList

/-- what is noted while the limits are looked up -/
def preparations (s : Surroundings) (filter : Filter) : Journal :=
  ({ filter } : Journal).noteAll (Settings.fallback s.environment s.reader).notes

/-- what stands on the error stream when the request has been made: log lines and then the dialogue -/
def beforehand (s : Surroundings) (filter : Filter) (o : Options) : List UInt8 :=
  logBytes (preparations s filter) ++ (asked s o).sink.bytes

end Session

/-- how a call stands, and all that was written to the two streams -/
structure Ending.Is (x : Ending) (standing : Standing) (out err : List UInt8) : Prop where
  standing : x.standing = standing
  stdout : x.stdout.toList = out
  stderr : x.stderr.toList = err

namespace Session

/-- what a call comes to whose request `r` is fulfilled with `y` -/
structure Performs (fuel : Nat) (s : Surroundings) (filter : Filter) (o : Options) (r : Request)
    (y : Fulfilled (LineBuffered Quota)) (x : Ending) : Prop where
  /-- the output stream has what went through to its device, the error stream all the rest -/
  ends : x.Is (.exited (codeOf y.result)) y.sink.device.taken.toList
    (beforehand s filter o ++ logBytes y.journal ++ Text.encode (verdictText s r.program y.result).toList)
  verdict : r.program.length + Window.reach < Count.bound →
    Verdict s r.program y.result (codeOf y.result) (verdictText s r.program y.result)
  /-- the message is one line exactly where neither the name nor what is quoted breaks it -/
  oneLine : ∀ f, y.result = .error f → (IsLine (line s f.told) ↔ OneLine s.name ∧ f.Legible)
  /-- success exits with 0, all else with 1 -/
  code : x.standing = .exited 0 ∧ y.result = .ok () ∨ x.standing = .exited 1 ∧ ∃ f, y.result = .error f
  /-- where the device takes everything it has got the bytes that the request wrote -/
  received : Willing s.device → ∃ z, r.fulfil fuel Recorder.blank { filter } = some z ∧ z.result = y.result ∧
    x.stdout.toList = s.device.taken.toList ++ z.sink.bytes

/-- all that a message about a refused request can quote is free of line feeds: the name of the program, the paths of
its files, and the reasons for which files cannot be read -/
structure Unbroken (s : Surroundings) (o : Options) : Prop where
  name : OneLine s.name
  path : ∀ path, o.file = some path ∨ o.inputFile = some path → '\n' ∉ path
  reason : ∀ path e, s.reader path = .error e → OneLine e.message

/-- what a call comes to, case by case -/
structure Separates (fuel : Nat) (s : Surroundings) (filter : Filter) (o : Options) (x : Ending) : Prop where
  /-- help exits with 0, and whatever there is to read is left alone -/
  help : o.help = true → x.Is (.exited 0) [] (Text.encode (usage s.name).toList) ∧
    ∀ stdin stdinOpen, serve fuel { s with stdin, stdinOpen } filter o = x
  /-- a request that failed -/
  refused : o.help = false → ∀ f, (asked s o).result = .error f →
    (s.stdinOpen = true → f ≠ .misuse .answersEnded) → ∃ code text, Refusal s f code text ∧
      x.Is (.exited code) [] (beforehand s filter o ++ Text.encode text.toList)
  /-- the message about it is one line exactly where neither the name nor what is quoted breaks it -/
  oneLine : ∀ f, (asked s o).result = .error f → (IsLine (line s f.message) ↔ OneLine s.name ∧ f.Legible)
  /-- and that is wherever the call is free of line feeds -/
  unbroken : Unbroken s o → ∀ f, (asked s o).result = .error f → IsLine (line s f.message)
  /-- answers that end too early are misuse -/
  closed : ∀ r, o.prepare s.reader (Settings.fallback s.environment s.reader).value = .ok r → o.interactive = true →
    (Dialogue.complete r.limits Recorder.blank (answers s)).result = .error .closed →
      (asked s o).result = .error (.misuse .answersEnded)
  /-- but while more may come the question waits -/
  waiting : o.help = false → s.stdinOpen = true → (asked s o).result = .error (.misuse .answersEnded) →
    x.Is .asking [] (beforehand s filter o)
  /-- a request that was made and fulfilled -/
  performed : o.help = false → ∀ r, (asked s o).result = .ok r →
    ∀ y, r.fulfil fuel (LineBuffered.mk s.device #[]) { filter } = some y → Performs fuel s filter o r y x
  /-- a request whose run takes more than `fuel` advances -/
  running : o.help = false → ∀ r, (asked s o).result = .ok r →
    r.fulfil fuel (LineBuffered.mk s.device #[]) { filter } = none → x.standing = .running

theorem isLine_line_iff {s : Surroundings} {message : String} :
    IsLine (line s message) ↔ OneLine s.name ∧ OneLine message := Report.isLine_messageLine_iff

theorem Unbroken.legible {s : Surroundings} {o : Options} (h : Unbroken s o) {f : Failure}
    (hf : (asked s o).result = .error f) : f.Legible := by
  cases Options.quotesOnlyFiles_of_request hf with
  | legible hlegible => exact hlegible
  | @file path e hpath hread => exact ⟨h.path path hpath, h.reason path e hread⟩

theorem toList_say (q : Quota) (text : String) :
    (say q text).taken.toList = q.taken.toList ++ Text.encode text.toList := by
  simp [say]

/-- the error stream takes the dialogue behind the log -/
theorem request_said (s : Surroundings) (filter : Filter) (o : Options) :
    ∃ q : Quota, q.taken.toList = beforehand s filter o ∧
    o.request s.reader (Settings.fallback s.environment s.reader).value (answers s)
        (say .unlimited (logText (preparations s filter).events.toList)) =
      ⟨(asked s o).unread, q, (asked s o).result⟩ := by
  obtain ⟨log, hlog⟩ : ∃ log, log = say .unlimited (logText (preparations s filter).events.toList) := ⟨_, rfl⟩
  have hwilling : Willing log := by
    rw [hlog]
    exact Quota.willing_of_room rfl rfl
  have hmap := Options.request_map hwilling.mirrors_callAll s.reader
    (Settings.fallback s.environment s.reader).value o (answers s) Recorder.blank
  refine ⟨callAll log (asked s o).sink.calls, ?_, ?_⟩
  · have htaken : taken (callAll log (asked s o).sink.calls) = taken log ++ (asked s o).sink.bytes :=
      hwilling.taken_callAll _
    have hfirst : taken log = logBytes (preparations s filter) := by
      rw [hlog]
      exact (toList_say _ _).trans (List.nil_append _)
    rw [hfirst] at htaken
    exact htaken
  · rw [← hlog]
    exact hmap

variable (fuel : Nat) (s : Surroundings) (filter : Filter) (o : Options)

/-- a call without help: refused, left waiting or performed -/
theorem exists_proceed : ∃ q : Quota, q.taken.toList = beforehand s filter o ∧
    proceed fuel s filter o = match (asked s o).result with
      | .ok r => perform fuel s filter r q
      | .error f =>
        if s.stdinOpen ∧ f = .misuse .answersEnded then ⟨.asking, #[], q.taken⟩
        else ⟨.exited f.exitCode, #[], (say q (refusalText s f)).taken⟩ := by
  obtain ⟨q, hq, hrequest⟩ := request_said s filter o
  have hprepared : ({ filter } : Journal).noteAll (Settings.fallback s.environment s.reader).notes =
      preparations s filter := rfl
  refine ⟨q, hq, ?_⟩
  simp only [proceed, hprepared, hrequest]
  cases (asked s o).result <;> rfl

theorem performs_perform {r : Request} {q : Quota} (hq : q.taken.toList = beforehand s filter o)
    {y : Fulfilled (LineBuffered Quota)} (hy : r.fulfil fuel (LineBuffered.mk s.device #[]) { filter } = some y) :
    Performs fuel s filter o r y (perform fuel s filter r q) := by
  have hlog : (say q (logText y.journal.events.toList)).taken.toList =
      beforehand s filter o ++ logBytes y.journal := by
    rw [toList_say, hq]
    rfl
  have hends : (perform fuel s filter r q).Is (.exited (codeOf y.result)) y.sink.device.taken.toList
      (beforehand s filter o ++ logBytes y.journal ++ Text.encode (verdictText s r.program y.result).toList) := by
    unfold perform
    simp only [hy]
    cases y.result with
    | ok u => exact ⟨rfl, rfl, hlog.trans (List.append_nil _).symm⟩
    | error f => exact ⟨rfl, rfl, by rw [toList_say, hlog]; rfl⟩
  refine ⟨hends, verdict_of_fulfil s hy, fun f _ => ?_, ?_, fun hdevice => ?_⟩
  · rw [isLine_line_iff, Failure.oneLine_told_iff]
  · rw [hends.standing]
    rcases Request.result_of_fulfil hy with hresult | ⟨e, hresult⟩ | ⟨e, hresult, -⟩
    · exact .inl ⟨by rw [hresult]; rfl, hresult⟩
    · exact .inr ⟨by rw [hresult]; rfl, _, hresult⟩
    · exact .inr ⟨by rw [hresult]; rfl, _, hresult⟩
  · obtain ⟨z, hz, hresult, -, htaken⟩ := Request.exists_of_fulfil_buffered hdevice hy
    exact ⟨z, hz, hresult.symm, hends.stdout.trans htaken⟩

/-- **Exit code, output stream and error stream are kept apart.** -/
theorem serve_separates_streams : Separates fuel s filter o (serve fuel s filter o) := by
  obtain ⟨q, hq, hproceed⟩ := exists_proceed fuel s filter o
  have hserve (hhelp : o.help = false) : serve fuel s filter o = proceed fuel s filter o :=
    if_neg (by rw [hhelp]; exact Bool.false_ne_true)
  constructor
  case help =>
    intro hhelp
    rw [serve, if_pos hhelp]
    exact ⟨⟨rfl, rfl, (toList_say .unlimited _).trans (List.nil_append _)⟩, fun _ _ => if_pos hhelp⟩
  case refused =>
    intro hhelp f hf hdone
    rw [hf] at hproceed
    rw [hserve hhelp, hproceed]
    simp only [if_neg (fun hwait : _ ∧ _ => hdone hwait.1 hwait.2)]
    exact ⟨f.exitCode, refusalText s f, refusal s f, rfl, rfl, by rw [toList_say, hq]⟩
  case oneLine =>
    intro f _
    rw [isLine_line_iff, Failure.oneLine_message_iff]
  case unbroken =>
    intro hunbroken f hf
    exact isLine_line_iff.2 ⟨hunbroken.name, Failure.oneLine_message_iff.2 (hunbroken.legible hf)⟩
  case closed =>
    intro r hr hinteractive hclosed
    rw [asked, Options.request_eq hr, if_pos hinteractive, Options.answered, hclosed]
    rfl
  case waiting =>
    intro hhelp hopen hf
    rw [hf] at hproceed
    rw [hserve hhelp, hproceed]
    simp only [hopen, and_self, if_true]
    exact ⟨rfl, rfl, hq⟩
  case performed =>
    intro hhelp r hr y hy
    rw [hr] at hproceed
    rw [hserve hhelp, hproceed]
    exact performs_perform fuel s filter o hq hy
  case running =>
    intro hhelp r hr hnone
    rw [hr] at hproceed
    rw [hserve hhelp, hproceed]
    simp only [perform, hnone]

/-- a program file that is not there, with a line feed in its path -/
def brokenPath : Options := { file := some "a\nb".toList, positional := [[]] }

/-- the path breaks the message: two lines are written to the error stream, though nothing was asked and no hint is
due -/
theorem message_broken_by_path :
    let s : Surroundings := { name := "bf", arguments := [] }
    let x := serve 0 s .silent brokenPath
    (asked s brokenPath).result = .error (.unreadable "a\nb".toList .notFound) ∧ x.standing = .exited 1 ∧
      x.stdout.toList = [] ∧ (asked s brokenPath).sink.bytes = [] ∧
      x.stderr.toList = Text.encode "bf: failed to read a\nb: No such file or directory (os error 2)\n".toList ∧
      x.stderr.toList.count Text.lineFeed = 2 ∧
      ¬ IsLine (line s (Failure.unreadable "a\nb".toList .notFound).message) := by
  refine ⟨by decide +kernel, by decide +kernel, by decide +kernel, by decide +kernel, by decide +kernel,
    by decide +kernel, fun h => ?_⟩
  obtain ⟨hpath, -⟩ := Failure.oneLine_message_iff.1 (isLine_line_iff.1 h).2
  exact hpath (by decide)

/-- the step limit is asked for, and the pointer leaves a tape of one cell -/
def offTape : Options := { positional := ["+.>".toList, []], memory := some 1, interactive := true }

example :
    let x := serve 3 { name := "bf", arguments := [], stdin := Text.encode "n\n".toList } .silent offTape
    x.standing = .exited 1 ∧ x.stdout.toList = [1, Text.lineFeed] ∧ x.stderr.toList = Text.encode
      ("Want to limit the number of actions? y/n\n" ++
        "bf: Memory bounds error: out of bounds of memory array at instruction 2 (ptr=0)\n  +.>\n    ^\n").toList := by
  decide +kernel

end Session

end Brainfuck
