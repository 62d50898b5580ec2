/-
Where a message is one line. A message is worded around what it quotes: the path of a file as it was given, and the
reason that a device brings. The wording breaks no line, and nothing of what is quoted is replaced. So a message is one
line exactly where the name of the program in front and what it quotes (`Failure.Legible`) are free of line feeds.

Main statements: `Failure.oneLine_message_iff` and `Report.isLine_messageLine_iff`; and
`Options.quotesOnlyFiles_of_request`, by which the message about a refused request quotes nothing else than a file that
the options name.
-/
import Mathlib.Tactic
import Brainfuck.Proofs.Dialogue.Gaps
import Brainfuck.Proofs.Report.Layout
import Brainfuck.Proofs.Request.Checks

namespace Brainfuck

open Text

/-! ## One line, and its end -/

/-- a single line with the line feed that ends it -/
def Text.IsLine (s : String) : Prop := ∃ m, OneLine m ∧ s = m ++ "\n"

theorem Text.isLine_append_iff {m : String} : IsLine (m ++ "\n") ↔ OneLine m := by
  constructor
  · rintro ⟨m', hm', heq⟩
    have hsame : m.toList = m'.toList := by simpa using congrArg String.toList heq
    rwa [OneLine, hsame]
  · exact fun h => ⟨m, h, rfl⟩

/-- **A message is one line exactly where neither the name in front nor its text breaks it**, painted or not. -/
theorem Report.isLine_messageLine_iff {terminal : Bool} {name message : String} :
    IsLine (messageLine terminal name message) ↔ OneLine name ∧ OneLine message := by
  have hcolon : OneLine ": " := by decide
  rw [messageLine, isLine_append_iff, oneLine_paint_iff, oneLine_append, oneLine_append, and_iff_left hcolon]

/-! ## What a message quotes -/

theorem Misuse.oneLine_message_iff {m : Misuse} : OneLine m.message ↔ ∀ text, m = .other text → OneLine text := by
  cases m with
  | other text => simp [message]
  | _ => exact iff_of_true (by decide) (by rintro _ ⟨⟩)

theorem RunError.oneLine_message_iff {e : RunError} :
    OneLine e.message ↔ ∀ ip cause, e = .notWritten ip cause → OneLine cause.message := by
  by_cases he : ∃ ip cause, e = .notWritten ip cause
  · obtain ⟨ip, cause, rfl⟩ := he
    have hquoted : OneLine (notWritten ip cause).message ↔ OneLine cause.message := by
      have hfirst : OneLine "output error at instruction " := by decide
      have hcolon : OneLine ": " := by decide
      change OneLine ("output error at instruction " ++ ip.repr ++ ": " ++ cause.message) ↔ _
      rw [oneLine_append, oneLine_append, oneLine_append]
      exact and_iff_right ⟨⟨hfirst, oneLine_repr ip⟩, hcolon⟩
    rw [hquoted]
    constructor
    · rintro h _ _ ⟨⟩
      exact h
    · exact fun h => h ip cause rfl
  · have hne : ∀ ip cause, e ≠ .notWritten ip cause := by simpa using he
    exact iff_of_true (oneLine_message hne) fun ip cause h => absurd h (hne ip cause)

namespace Failure

/-- nothing that the message quotes breaks a line -/
def Legible : Failure → Prop
  | misuse m => ∀ text, m = .other text → OneLine text
  | unreadable path e => '\n' ∉ path ∧ OneLine e.message
  | device e => OneLine e.message
  | run e => ∀ ip cause, e = .notWritten ip cause → OneLine cause.message

/-- what is told of a failure; an error of the run comes with its category -/
def told : Failure → String
  | run e => Report.headline none e
  | f => f.message

/-- **The message of a failure is one line exactly where nothing that it quotes breaks it.** -/
theorem oneLine_message_iff {f : Failure} : OneLine f.message ↔ f.Legible := by
  -- each message is written out: the equations of `message` are too large to rewrite with
  cases f with
  | misuse m =>
    have hfirst : OneLine "invalid arguments: " := by decide
    change OneLine ("invalid arguments: " ++ m.message) ↔ _
    rw [oneLine_append, and_iff_right hfirst]
    exact m.oneLine_message_iff
  | unreadable path e =>
    have hfirst : OneLine "failed to read " := by decide
    have hcolon : OneLine ": " := by decide
    have hpath : OneLine (String.ofList path) ↔ '\n' ∉ path := by rw [OneLine, String.toList_ofList]
    change OneLine ("failed to read " ++ String.ofList path ++ ": " ++ e.message) ↔ '\n' ∉ path ∧ OneLine e.message
    rw [oneLine_append, oneLine_append, oneLine_append, and_iff_right hfirst, and_iff_left hcolon, hpath]
  | device e =>
    have hfirst : OneLine "I/O error: " := by decide
    change OneLine ("I/O error: " ++ e.message) ↔ OneLine e.message
    rw [oneLine_append, and_iff_right hfirst]
  | run e => exact e.oneLine_message_iff

theorem oneLine_told_iff {f : Failure} : OneLine f.told ↔ f.Legible := by
  cases f with
  | run e =>
    change OneLine (Report.headline none e) ↔ _
    rw [Report.oneLine_headline_iff, and_iff_right (by rintro _ ⟨⟩)]
    exact e.oneLine_message_iff
  | _ => exact oneLine_message_iff

end Failure

/-! ## Refused requests -/

theorem Dialogue.Fills.legible {limits : Limits} {answers rest : Answers} {talk : List Remark} {e : DialogueError}
    (h : Fills limits answers talk rest (.error e)) : (Failure.ofDialogue e).Legible := by
  rcases h.error_eq with rfl | rfl
  · rintro text ⟨⟩
  · change OneLine DeviceError.notText.message
    decide

namespace Options

/-- a failure that quotes nothing that could break a line, or else a file which the options name and which cannot be
read -/
inductive QuotesOnlyFiles (reader : Reader) (o : Options) : Failure → Prop where
  | legible {f : Failure} (h : f.Legible) : QuotesOnlyFiles reader o f
  | file {path : List Char} {e : DeviceError} (hpath : o.file = some path ∨ o.inputFile = some path)
      (hread : reader path = .error e) : QuotesOnlyFiles reader o (.unreadable path e)

variable {reader : Reader} {o : Options} {file : Option (List Char)} {m : Misuse} {texts : List (List Char)}
  {f : Failure}

theorem exists_of_unreadable? (h : unreadable? reader file = some f) :
    ∃ path e, f = .unreadable path e ∧ file = some path ∧ reader path = .error e := by
  cases file with
  | none => cases h
  | some path =>
    rw [unreadable?] at h
    cases hread : reader path with
    | ok text =>
      rw [hread] at h
      cases h
    | error e =>
      rw [hread] at h
      exact ⟨path, e, (Option.some.inj h).symm, rfl, hread⟩

theorem legible_of_missing? (h : missing? file m texts = some f) (hm : OneLine m.message) : f.Legible := by
  rw [missing?] at h
  split at h
  · cases h
    exact Misuse.oneLine_message_iff.1 hm
  · cases h

/-- what the checks before a request find is misuse in words of their own, or a file that cannot be read -/
theorem quotesOnlyFiles_of_firstFailure? (h : firstFailure? reader o = some f) : QuotesOnlyFiles reader o f := by
  obtain ⟨c, -, hc⟩ := List.exists_of_findSome?_eq_some h
  cases c with
  | programFile =>
    obtain ⟨path, e, rfl, hpath, hread⟩ := exists_of_unreadable? hc
    exact .file (.inl hpath) hread
  | inputFile =>
    obtain ⟨path, e, rfl, hpath, hread⟩ := exists_of_unreadable? hc
    exact .file (.inr hpath) hread
  | program => exact .legible (legible_of_missing? hc (by decide))
  | input => exact .legible (legible_of_missing? hc (by decide))
  | surplus | tape =>
    rw [Check.failure?] at hc
    split at hc <;> cases hc
    exact .legible (by rintro text ⟨⟩)

/-- **The message about a refused request quotes nothing else than a file that the options name**, where the sink of the
dialogue takes everything. -/
theorem quotesOnlyFiles_of_request {fallback : Limits} {answers : Answers}
    (h : (o.request reader fallback answers Recorder.blank).result = .error f) : QuotesOnlyFiles reader o f := by
  cases hfirst : firstFailure? reader o with
  | some g =>
    rw [request_of_firstFailure? hfirst] at h
    obtain rfl := Except.error.inj h
    exact quotesOnlyFiles_of_firstFailure? hfirst
  | none =>
    obtain ⟨program, input, -, hx⟩ := exists_taken_of_request hfirst fallback answers Recorder.blank
    obtain ⟨talk, rest, r, hfills⟩ := Dialogue.exists_fills (o.withTexts fallback program input).limits answers
    rw [hx, (Dialogue.course_of_complete hfills Recorder.blank).of_willing Recorder.blank.willing] at h
    split_ifs at h
    cases r with
    | ok limits => cases h
    | error e =>
      obtain rfl := Except.error.inj h
      exact .legible hfills.legible

end Options

end Brainfuck
