/-
The dialogue over one question as a talk: what is told and what is heard, in the order in which it happens. `Converses`
gives the rules. It says which talk a script of answers leads to, and to which result; no sink occurs in it. `Course`
says what becomes of a talk on a sink: it is held to its end, or up to the first line that cannot be told.

Main statement: `ask_holds_talk`, for a willing sink. For every stream of answers there is a talk by the rules, and any
such talk is the one that is held, to its end. On a sink that may fail the dialogue takes the course of the same talk
(`course_of_ask`).
-/
import Mathlib.Tactic
import Brainfuck.Proofs.Dialogue.Script
import Brainfuck.Proofs.Limits.Written

namespace Brainfuck

open Sink

/-! ## Lines of a stream -/

namespace Text

/-- the lines of a stream: each goes up to its line feed, only the last one may end with the stream -/
inductive CutIntoLines : List UInt8 → List (List UInt8) → Prop where
  | nil : CutIntoLines [] []
  | last {line : List UInt8} (hne : line ≠ []) (hline : lineFeed ∉ line) : CutIntoLines line [line]
  | line {front rest : List UInt8} {lines : List (List UInt8)} (hfront : lineFeed ∉ front)
      (hrest : CutIntoLines rest lines) : CutIntoLines (front ++ lineFeed :: rest) ((front ++ [lineFeed]) :: lines)

theorem cutIntoLines_byteLinesFrom {line : List UInt8} (hline : lineFeed ∉ line) (bs : List UInt8) :
    CutIntoLines (line.reverse ++ bs) (byteLinesFrom line bs) := by
  induction bs generalizing line with
  | nil =>
    cases line with
    | nil => exact .nil
    | cons b line =>
      rw [List.append_nil]
      exact .last (by simp) (by rwa [List.mem_reverse])
  | cons b bs ih =>
    by_cases hb : b = lineFeed
    · rw [byteLinesFrom, if_pos hb, List.reverse_cons, hb]
      exact .line (by rwa [List.mem_reverse]) (ih List.not_mem_nil)
    · have hmore : lineFeed ∉ b :: line := by
        rw [List.mem_cons, not_or]
        exact ⟨Ne.symm hb, hline⟩
      have hrest := ih hmore
      rw [List.reverse_cons, List.append_assoc] at hrest
      rw [byteLinesFrom, if_neg hb]
      exact hrest

theorem cutIntoLines_byteLines (bs : List UInt8) : CutIntoLines bs (byteLines bs) :=
  cutIntoLines_byteLinesFrom List.not_mem_nil bs

end Text

namespace Dialogue

/-! ## Talks -/

/-- a line told or a line heard -/
inductive Remark where
  | told (text : String)
  | heard (line : List UInt8)
  deriving DecidableEq, Repr

def Remark.told? : Remark → Option String
  | told text => some text
  | heard _ => none

def Remark.heard? : Remark → Option (List UInt8)
  | told _ => none
  | heard line => some line

/-- the lines told in a talk -/
def toldIn (talk : List Remark) : List String := talk.filterMap Remark.told?

/-- the lines heard in a talk -/
def heardIn (talk : List Remark) : Answers := talk.filterMap Remark.heard?

@[simp] theorem toldIn_told (text : String) (talk : List Remark) :
    toldIn (.told text :: talk) = text :: toldIn talk := rfl

@[simp] theorem heardIn_told (text : String) (talk : List Remark) : heardIn (.told text :: talk) = heardIn talk := rfl

@[simp] theorem heardIn_append (talk talk' : List Remark) : heardIn (talk ++ talk') = heardIn talk ++ heardIn talk' :=
  List.filterMap_append

variable {σ : Type} [Sink σ] {α β : Type}

/-- every line of the talk is told on the sink `s`, which is `t` then -/
inductive ToldAll : σ → List Remark → σ → Prop where
  | nil (s : σ) : ToldAll s [] s
  | heard {s t : σ} {talk : List Remark} (line : List UInt8) (h : ToldAll s talk t) : ToldAll s (.heard line :: talk) t
  | told {s s' t : σ} {text : String} {talk : List Remark} (htold : tell s text = (s', none)) (h : ToldAll s' talk t) :
      ToldAll s (.told text :: talk) t

/-- what becomes of a talk after which `rest` is unread and the result is `r`: it is held to its end; or a line of it
fails, and then the failure is the result, and nothing is heard after it -/
inductive Course (s : σ) (talk : List Remark) (rest : Answers) (r : Except DialogueError α) :
    Exchange σ DialogueError α → Prop where
  | whole {t : σ} (h : ToldAll s talk t) : Course s talk rest r ⟨rest, t, r⟩
  | cut {before after : List Remark} {text : String} {t t' : σ} {e : DeviceError}
      (htalk : talk = before ++ .told text :: after) (h : ToldAll s before t) (hfails : tell t text = (t', some e)) :
      Course s talk rest r ⟨heardIn after ++ rest, t', .error (.device e)⟩

theorem ToldAll.append {s t u : σ} {talk talk' : List Remark} (h : ToldAll s talk t) (h' : ToldAll t talk' u) :
    ToldAll s (talk ++ talk') u := by
  induction h with
  | nil => exact h'
  | heard line _ ih => exact .heard line (ih h')
  | told htold _ ih => exact .told htold (ih h')

theorem ToldAll.sink_eq {s t : σ} {talk : List Remark} (h : ToldAll s talk t) :
    t = callAll s (callsOf (toldIn talk)) := by
  induction h with
  | nil => rfl
  | heard line _ ih => exact ih
  | told htold _ ih => rw [toldIn_told, callsOf_cons, callAll_append, ← tell_of_none htold, ← ih]

namespace Course

variable {s t : σ} {talk talk' : List Remark} {answers rest : Answers} {r : Except DialogueError α}
  {x : Exchange σ DialogueError α}

theorem prepend (htold : ToldAll s talk' t) (h : Course t talk rest r x) : Course s (talk' ++ talk) rest r x := by
  cases h with
  | whole h => exact .whole (htold.append h)
  | cut htalk h hfails => exact .cut (by rw [htalk, List.append_assoc]) (htold.append h) hfails

theorem say {text : String} {f : Unit → σ → Answers → Exchange σ DialogueError α}
    (hanswers : answers = heardIn talk ++ rest) (hf : ∀ t, Course t talk rest r (f () t answers)) :
    Course s (.told text :: talk) rest r ((Dialogue.say text s answers).andThen f) := by
  unfold Dialogue.say Exchange.andThen
  rcases htell : tell s text with ⟨t, e | _⟩
  · exact (hf t).prepend (.told htell (.nil t))
  · rw [hanswers]
    exact .cut (List.nil_append _).symm (.nil s) htell

theorem andThen {a : β} {y : Exchange σ DialogueError β} {f : β → σ → Answers → Exchange σ DialogueError α}
    (h : Course s talk (heardIn talk' ++ rest) (.ok a) y)
    (hf : ∀ t, Course t talk' rest r (f a t (heardIn talk' ++ rest))) :
    Course s (talk ++ talk') rest r (y.andThen f) := by
  cases h with
  | whole htold => exact (hf _).prepend htold
  | cut htalk htold hfails =>
    rw [Exchange.andThen_of_error rfl, ← List.append_assoc, ← heardIn_append]
    exact .cut (by rw [htalk, List.append_assoc, List.cons_append]) htold hfails

theorem andThen_of_error {e : DialogueError} {y : Exchange σ DialogueError β}
    {f : β → σ → Answers → Exchange σ DialogueError α} (h : Course s talk rest (.error e) y) :
    Course s talk rest (.error e) (y.andThen f) := by
  cases h with
  | whole htold => exact .whole htold
  | cut htalk htold hfails => exact .cut htalk htold hfails

theorem andThen_of_end {a : β} {y : Exchange σ DialogueError β} {f : β → σ → Answers → Exchange σ DialogueError α}
    (h : Course s talk rest (.ok a) y) (hf : ∀ t, f a t rest = ⟨rest, t, r⟩) : Course s talk rest r (y.andThen f) := by
  cases h with
  | whole htold =>
    rw [Exchange.andThen_of_ok rfl, hf]
    exact .whole htold
  | cut htalk htold hfails => exact .cut htalk htold hfails

/-- where it comes to a result, the talk was held to its end, and the result is the talk's -/
theorem whole_of_ok {a : α} (h : Course s talk rest r x) (hx : x.result = .ok a) :
    ToldAll s talk x.sink ∧ x.unread = rest ∧ r = .ok a := by
  cases h with
  | whole htold => exact ⟨htold, rfl, hx⟩
  | cut _ _ _ => cases hx

/-- a willing sink is told every line -/
theorem of_willing (hs : Willing s) (h : Course s talk rest r x) :
    x = ⟨rest, callAll s (callsOf (toldIn talk)), r⟩ := by
  cases h with
  | whole htold => rw [← htold.sink_eq]
  | cut htalk htold hfails =>
    rename_i before after text t t' e
    have hwilling : Willing t := htold.sink_eq ▸ hs.after _
    rw [tell_of_willing hwilling] at hfails
    cases hfails

end Course

/-! ## Reading until an answer decides -/

/-- reading lines until one decides: a line to ask `again` for is answered by the line that asks for it, and skipped -/
inductive Reads (again : List UInt8 → String → Prop) (decides : List UInt8 → α → Prop) :
    Answers → List Remark → Answers → Except DialogueError α → Prop where
  /-- there is no line left -/
  | closed : Reads again decides [] [] [] (.error .closed)
  /-- a line that is no text -/
  | garbled {line : List UInt8} {rest : Answers} (h : answer? line = none) :
      Reads again decides (line :: rest) [.heard line] rest (.error (.device .notText))
  | decided {line : List UInt8} {rest : Answers} {a : α} (h : decides line a) :
      Reads again decides (line :: rest) [.heard line] rest (.ok a)
  | skipped {line : List UInt8} {retry : String} {answers rest : Answers} {talk : List Remark}
      {r : Except DialogueError α} (h : again line retry) (hread : Reads again decides answers talk rest r) :
      Reads again decides (line :: answers) (.heard line :: .told retry :: talk) rest r

namespace Reads

variable {again : List UInt8 → String → Prop} {decides : List UInt8 → α → Prop} {answers rest : Answers}
  {talk : List Remark} {r : Except DialogueError α}

theorem answers_eq (h : Reads again decides answers talk rest r) : answers = heardIn talk ++ rest := by
  induction h with
  | closed => rfl
  | garbled _ => rfl
  | decided _ => rfl
  | skipped _ _ ih => exact congrArg (_ :: ·) ih

/-- unless the answers ended, the same is read in front of other answers -/
theorem before (h : Reads again decides answers talk rest r) (hr : r ≠ .error .closed) (rest' : Answers) :
    Reads again decides (heardIn talk ++ rest') talk rest' r := by
  induction h with
  | closed => exact absurd rfl hr
  | garbled h => exact .garbled h
  | decided h => exact .decided h
  | skipped h _ ih => exact .skipped h (ih hr)

/-- reading fails where the answers end, or on a line that is no text -/
theorem error_eq {e : DialogueError} (h : Reads again decides answers talk rest (.error e)) :
    e = .closed ∨ e = .device .notText := by
  generalize hr : (.error e : Except DialogueError α) = r at h
  induction h with
  | closed => exact .inl (Except.error.inj hr)
  | garbled _ => exact .inr (Except.error.inj hr)
  | decided _ => cases hr
  | skipped _ _ ih => exact ih hr

end Reads

theorem exists_reads (accept : List Char → Except String α) (answers : Answers) :
    ∃ talk rest r, Reads (Refused accept) (Accepted accept) answers talk rest r := by
  induction answers with
  | nil => exact ⟨_, _, _, .closed⟩
  | cons line answers ih =>
    cases ha : answer? line with
    | none => exact ⟨_, _, _, .garbled ha⟩
    | some a =>
      cases hjudged : accept a with
      | ok x => exact ⟨_, _, _, .decided ⟨a, ha, hjudged⟩⟩
      | error retry =>
        obtain ⟨talk, rest, r, hread⟩ := ih
        exact ⟨_, _, _, .skipped ⟨a, ha, hjudged⟩ hread⟩

/-- the course that reading takes -/
theorem course_of_await {accept : List Char → Except String α} {answers rest : Answers} {talk : List Remark}
    {r : Except DialogueError α} (h : Reads (Refused accept) (Accepted accept) answers talk rest r) (s : σ) :
    Course s talk rest r (await accept s answers) := by
  induction h generalizing s with
  | closed => exact .whole (.nil s)
  | garbled ha =>
    simp only [await, ha]
    exact .whole (.heard _ (.nil s))
  | decided hline =>
    rw [await_accepted hline]
    exact .whole (.heard _ (.nil s))
  | @skipped line retry answers rest talk r hline hread ih =>
    have hawait : await accept s (line :: answers) =
        (Dialogue.say retry s answers).andThen fun _ s answers => await accept s answers := by
      obtain ⟨a, ha, hretry⟩ := hline
      simp only [await, ha, hretry, Dialogue.say, Exchange.andThen]
      rcases tell s retry with ⟨t, e | _⟩ <;> rfl
    rw [hawait]
    exact (Course.say hread.answers_eq ih).prepend (.heard line (.nil s))

/-! ## One question -/

/-- the line is y or n: is it y? -/
def Chosen (line : List UInt8) (wanted : Bool) : Prop := answer? line = some [if wanted then 'y' else 'n']

/-- the line is text, but neither y nor n -/
def Unchosen (line : List UInt8) (retry : String) : Prop := Undecided line ∧ retry = "Please y or n"

/-- the rules of a dialogue: which talk the answers lead to, which of them are left, and what comes of it -/
inductive Converses (q : Question) : Answers → List Remark → Answers → Except DialogueError (Option Nat) → Prop where
  /-- no choice was made -/
  | undecided {answers rest : Answers} {talk : List Remark} {e : DialogueError}
      (hchoice : Reads Unchosen Chosen answers talk rest (.error e)) :
      Converses q answers (.told q.choice :: talk) rest (.error e)
  | declined {answers rest : Answers} {talk : List Remark}
      (hchoice : Reads Unchosen Chosen answers talk rest (.ok false)) :
      Converses q answers (.told q.choice :: talk) rest (.ok none)
  /-- after y it depends on the count -/
  | wanted {answers mid rest : Answers} {talk talk' : List Remark} {r : Except DialogueError Nat}
      (hchoice : Reads Unchosen Chosen answers talk mid (.ok true))
      (hcount : Reads (Unfit q) (Fits q) mid talk' rest r) :
      Converses q answers (.told q.choice :: (talk ++ .told q.entry :: talk')) rest (r.map some)

theorem refused_choose : Refused choose = Unchosen := by
  funext line retry
  exact propext refused_choose_iff

theorem accepted_choose : Accepted choose = Chosen := by
  funext line wanted
  exact propext accepted_choose_iff

theorem refused_judge (q : Question) : Refused (judge q.zeroFits) = Unfit q := by
  funext line complaint
  exact propext refused_judge_iff

theorem accepted_judge (q : Question) : Accepted (judge q.zeroFits) = Fits q := by
  funext line n
  exact propext accepted_judge_iff

section Question

variable {q : Question} {answers rest : Answers} {talk : List Remark} {r : Except DialogueError (Option Nat)}

/-- every script of answers leads to a talk -/
theorem exists_converses (q : Question) (answers : Answers) : ∃ talk rest r, Converses q answers talk rest r := by
  obtain ⟨talk, mid, r, hchoice⟩ := exists_reads choose answers
  rw [refused_choose, accepted_choose] at hchoice
  rcases r with e | _ | _
  · exact ⟨_, _, _, .undecided hchoice⟩
  · exact ⟨_, _, _, .declined hchoice⟩
  · obtain ⟨talk', rest, r, hcount⟩ := exists_reads (judge q.zeroFits) mid
    rw [refused_judge, accepted_judge] at hcount
    exact ⟨_, _, _, .wanted hchoice hcount⟩

theorem Converses.answers_eq (h : Converses q answers talk rest r) : answers = heardIn talk ++ rest := by
  cases h with
  | undecided hchoice => exact hchoice.answers_eq
  | declined hchoice => exact hchoice.answers_eq
  | wanted hchoice hcount =>
    rw [hchoice.answers_eq, hcount.answers_eq]
    simp

theorem Converses.before (h : Converses q answers talk rest r) (hr : r ≠ .error .closed) (rest' : Answers) :
    Converses q (heardIn talk ++ rest') talk rest' r := by
  cases h with
  | undecided hchoice => exact .undecided (hchoice.before (fun he => hr (by cases he; rfl)) rest')
  | declined hchoice => exact .declined (hchoice.before nofun rest')
  | @wanted mid _ talk talk' r hchoice hcount =>
    have hcount' := hcount.before (fun he => hr (by rw [he]; rfl)) rest'
    have hchoice' := hchoice.before nofun (heardIn talk' ++ rest')
    rw [← List.append_assoc] at hchoice'
    simpa using Converses.wanted hchoice' hcount'

theorem Converses.error_eq {e : DialogueError} (h : Converses q answers talk rest (.error e)) :
    e = .closed ∨ e = .device .notText := by
  generalize hr : (.error e : Except DialogueError (Option Nat)) = r at h
  cases h with
  | undecided hchoice =>
    obtain rfl := Except.error.inj hr
    exact hchoice.error_eq
  | declined _ => cases hr
  | @wanted _ _ _ _ r _ hcount =>
    cases r with
    | ok n => cases hr
    | error e' =>
      obtain rfl := Except.error.inj hr
      exact hcount.error_eq

theorem course_of_choice {r : Except DialogueError Bool} (h : Reads Unchosen Chosen answers talk rest r) (s : σ) :
    Course s talk rest r (await choose s answers) := by
  rw [← refused_choose, ← accepted_choose] at h
  exact course_of_await h s

theorem course_of_count {r : Except DialogueError Nat} (h : Reads (Unfit q) (Fits q) answers talk rest r) (s : σ) :
    Course s talk rest (r.map some)
      ((await (judge q.zeroFits) s answers).andThen fun n s answers => ⟨answers, s, .ok (some n)⟩) := by
  rw [← refused_judge, ← accepted_judge] at h
  have hcourse := course_of_await h s
  cases r with
  | error e => exact hcourse.andThen_of_error
  | ok n => exact hcourse.andThen_of_end fun _ => rfl

/-- **The course of a dialogue on any sink** is that of the talk which the answers lead to. -/
theorem course_of_ask (h : Converses q answers talk rest r) (s : σ) : Course s talk rest r (ask q s answers) := by
  rw [ask_eq]
  cases h with
  | undecided hchoice => exact .say hchoice.answers_eq fun t => (course_of_choice hchoice t).andThen_of_error
  | declined hchoice =>
    exact .say hchoice.answers_eq fun t => (course_of_choice hchoice t).andThen_of_end fun _ => rfl
  | @wanted mid _ talk talk' r hchoice hcount =>
    have hmid : mid = heardIn (.told q.entry :: talk') ++ rest := hcount.answers_eq
    subst hmid
    refine .say (by simp [hchoice.answers_eq]) fun t => (course_of_choice hchoice t).andThen fun u => ?_
    rw [if_pos rfl]
    exact .say rfl fun v => course_of_count hcount v

end Question

theorem bytes_callsOf (told : List String) :
    (callsOf told).flatMap Call.bytes = told.flatMap fun text => Text.encode (text.toList ++ ['\n']) := by
  rw [callsOf, List.flatMap_assoc]
  refine congrArg (List.flatMap · told) (funext fun text => ?_)
  rw [Text.encode_append]
  rfl

/-- **The dialogue over a question is the talk that the answers lead to.** Let a sink take everything, and let a stream
of answers be cut into lines. There is a talk by the rules, so that the result is what the rules say. With any such talk
the dialogue has read the lines that are heard in it and no more, and has written the lines that are told in it, each
with its line feed. Unless the answers ended, the lines that were not heard do not matter. -/
theorem ask_holds_talk [Lawful σ] [LawfulFlush σ] {s : σ} (hs : Willing s) (q : Question) (bs : List UInt8) :
    Text.CutIntoLines bs (Text.byteLines bs) ∧
      (∀ r, (ask q s (Text.byteLines bs)).result = r ↔ ∃ talk rest, Converses q (Text.byteLines bs) talk rest r) ∧
      ∀ talk rest r, Converses q (Text.byteLines bs) talk rest r →
        Text.byteLines bs = heardIn talk ++ rest ∧
        ask q s (Text.byteLines bs) = ⟨rest, callAll s (callsOf (toldIn talk)), r⟩ ∧
        taken (callAll s (callsOf (toldIn talk))) =
          taken s ++ (toldIn talk).flatMap (fun text => Text.encode (text.toList ++ ['\n'])) ∧
        (r ≠ .error .closed →
          ∀ rest', ask q s (heardIn talk ++ rest') = ⟨rest', callAll s (callsOf (toldIn talk)), r⟩) := by
  have hask {answers rest : Answers} {talk : List Remark} {r : Except DialogueError (Option Nat)}
      (h : Converses q answers talk rest r) : ask q s answers = ⟨rest, callAll s (callsOf (toldIn talk)), r⟩ :=
    (course_of_ask h s).of_willing hs
  refine ⟨Text.cutIntoLines_byteLines bs, fun r => ⟨fun hr => ?_, ?_⟩,
    fun talk rest r h => ⟨h.answers_eq, hask h, ?_, ?_⟩⟩
  · obtain ⟨talk, rest, r', h⟩ := exists_converses q (Text.byteLines bs)
    obtain rfl : r' = r := by rw [← hr, hask h]
    exact ⟨talk, rest, h⟩
  · rintro ⟨talk, rest, h⟩
    rw [hask h]
  · rw [hs.taken_callAll, bytes_callsOf]
  · intro hr rest'
    exact hask (h.before hr rest')

theorem answer?_encode (cs : List Char) : answer? (Text.encode cs) = some (Text.squeeze cs) := by
  rw [answer?, Text.decode?_encode, Option.map_some]

/-- a line that is no choice, then y, then a zero where none fits, then a count with a blank in it; one line is left -/
theorem ask_holds_talk_asked_again :
    Willing Recorder.blank ∧ ask .cells Recorder.blank (Text.byteLines (Text.encode "Y\ny\n0\n1 2\nn\n".toList)) =
      ⟨[Text.encode "n\n".toList],
        callAll Recorder.blank (callsOf [Question.cells.choice, "Please y or n", Question.cells.entry,
          "Please enter a positive number"]), .ok (some 12)⟩ := by
  have hs : Willing Recorder.blank := Recorder.blank.willing
  have hlines : Text.byteLines (Text.encode "Y\ny\n0\n1 2\nn\n".toList) =
      ["Y\n", "y\n", "0\n", "1 2\n", "n\n"].map fun line => Text.encode line.toList := by decide +kernel
  have hundecided : Unchosen (Text.encode "Y\n".toList) "Please y or n" :=
    ⟨⟨['Y'], answer?_encode "Y\n".toList, by decide, by decide⟩, rfl⟩
  have hyes : Chosen (Text.encode "y\n".toList) true := answer?_encode "y\n".toList
  have hzero : Unfit .cells (Text.encode "0\n".toList) "Please enter a positive number" :=
    ⟨['0'], answer?_encode "0\n".toList, .inr ⟨by decide, rfl, rfl⟩⟩
  have hentry : Fits .cells (Text.encode "1 2\n".toList) 12 :=
    ⟨['1', '2'], answer?_encode "1 2\n".toList, by decide, nofun⟩
  obtain ⟨-, -, hask⟩ := ask_holds_talk hs .cells (Text.encode "Y\ny\n0\n1 2\nn\n".toList)
  rw [hlines] at hask ⊢
  exact ⟨hs, (hask _ _ _ (.wanted (.skipped hundecided (.decided hyes)) (.skipped hzero (.decided hentry)))).2.1⟩

end Dialogue

end Brainfuck
