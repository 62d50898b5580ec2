/-
The dialogue over both limits asks for what is not known, and loses nothing that is answered. Its two parts follow one
another on the same answers and the same sink, and the first failure ends it (`InSequence`). A number of cells that was
typed comes out as it was typed: a zero is refused before it could be taken for no answer. `Fills` gives the rules of
the whole dialogue; where a line of it cannot be told, what was heard before is all that was read.

Main statement: `complete_fills_gaps`, for all limits, all answers and every sink.
-/
import Mathlib.Tactic
import Brainfuck.Proofs.Dialogue.Completion
import Brainfuck.Proofs.Dialogue.Conversation

namespace Brainfuck.Dialogue

open Sink

variable {σ : Type} [Sink σ]

/-! ## One dialogue after the other -/

/-- the dialogues over the open limits one after the other: the second reads on where the first stopped, on the sink
that it left; a failure is what the whole comes to, and the last that happens -/
inductive InSequence (limits : Limits) (s : σ) (answers : Answers) : Exchange σ DialogueError Limits → Prop where
  | stepsFailed {mid : Answers} {t : σ} {e : DialogueError}
      (hsteps : askUnless limits.steps .steps s answers = ⟨mid, t, .error e⟩) :
      InSequence limits s answers ⟨mid, t, .error e⟩
  | cellsFailed {mid rest : Answers} {t u : σ} {steps : Option Nat} {e : DialogueError}
      (hsteps : askUnless limits.steps .steps s answers = ⟨mid, t, .ok steps⟩)
      (hcells : askUnless (cellsOf limits) .cells t mid = ⟨rest, u, .error e⟩) :
      InSequence limits s answers ⟨rest, u, .error e⟩
  | filled {mid rest : Answers} {t u : σ} {l : Limits}
      (hsteps : askUnless limits.steps .steps s answers = ⟨mid, t, .ok l.steps⟩)
      (hcells : askUnless (cellsOf limits) .cells t mid = ⟨rest, u, .ok (cellsOf l)⟩) :
      InSequence limits s answers ⟨rest, u, .ok l⟩

theorem inSequence_complete (limits : Limits) (s : σ) (answers : Answers) :
    InSequence limits s answers (complete limits s answers) := by
  rw [complete_eq]
  rcases hsteps : askUnless limits.steps .steps s answers with ⟨mid, t, e | steps⟩
  · exact .stepsFailed hsteps
  · rw [Exchange.andThen_of_ok rfl]
    rcases hcells : askUnless (cellsOf limits) .cells t mid with ⟨rest, u, e | cells⟩
    · exact .cellsFailed hsteps hcells
    · obtain ⟨told, hsupplied, -⟩ := supplied_of_askUnless hcells
      -- no count is lost when it is made a number of cells
      have hkept : cells = cellsOf ⟨steps, cells.bind CellCount.ofNat?⟩ := hsupplied.kept.symm
      rw [hkept] at hcells
      exact .filled (l := ⟨steps, cells.bind CellCount.ofNat?⟩) hsteps hcells

/-- where the whole comes to limits, both dialogues came to theirs -/
theorem InSequence.exists_of_ok {limits l : Limits} {s : σ} {answers : Answers} {x : Exchange σ DialogueError Limits}
    (h : InSequence limits s answers x) (hl : x.result = .ok l) :
    ∃ mid t, askUnless limits.steps .steps s answers = ⟨mid, t, .ok l.steps⟩ ∧
      askUnless (cellsOf limits) .cells t mid = ⟨x.unread, x.sink, .ok (cellsOf l)⟩ := by
  cases h with
  | stepsFailed hsteps => cases hl
  | cellsFailed hsteps hcells => cases hl
  | filled hsteps hcells =>
    cases hl
    exact ⟨_, _, hsteps, hcells⟩

theorem eq_known_of_askUnless {known v : Option Nat} {q : Question} {s t : σ} {answers rest : Answers}
    (h : askUnless known q s answers = ⟨rest, t, .ok v⟩) (hknown : known ≠ none) : v = known := by
  cases known with
  | none => exact absurd rfl hknown
  | some n =>
    cases h
    rfl

theorem exists_converses_of_ask {q : Question} {s t : σ} {answers rest : Answers} {v : Option Nat}
    (h : ask q s answers = ⟨rest, t, .ok v⟩) : ∃ talk, Converses q answers talk rest (.ok v) := by
  obtain ⟨talk, rest', r, hconverses⟩ := exists_converses q answers
  have hresult : (ask q s answers).result = .ok v := by rw [h]
  obtain ⟨-, hunread, rfl⟩ := (course_of_ask hconverses s).whole_of_ok hresult
  obtain rfl : rest = rest' := by rw [← hunread, h]
  exact ⟨talk, hconverses⟩

/-! ## The rules of the whole -/

/-- how one limit is found: it is known, and nothing is said; or its question is put -/
inductive Finds (q : Question) : Option Nat → Answers → List Remark → Answers → Except DialogueError (Option Nat) → Prop
    where
  | known (n : Nat) (answers : Answers) : Finds q (some n) answers [] answers (.ok (some n))
  | asked {answers rest : Answers} {talk : List Remark} {r : Except DialogueError (Option Nat)}
      (h : Converses q answers talk rest r) : Finds q none answers talk rest r

/-- the rules of the dialogue over both limits -/
inductive Fills (limits : Limits) : Answers → List Remark → Answers → Except DialogueError Limits → Prop where
  | stepsFailed {answers rest : Answers} {talk : List Remark} {e : DialogueError}
      (hsteps : Finds .steps limits.steps answers talk rest (.error e)) : Fills limits answers talk rest (.error e)
  | cellsFailed {answers mid rest : Answers} {talk talk' : List Remark} {steps : Option Nat} {e : DialogueError}
      (hsteps : Finds .steps limits.steps answers talk mid (.ok steps))
      (hcells : Finds .cells (cellsOf limits) mid talk' rest (.error e)) :
      Fills limits answers (talk ++ talk') rest (.error e)
  | filled {answers mid rest : Answers} {talk talk' : List Remark} {l : Limits}
      (hsteps : Finds .steps limits.steps answers talk mid (.ok l.steps))
      (hcells : Finds .cells (cellsOf limits) mid talk' rest (.ok (cellsOf l))) :
      Fills limits answers (talk ++ talk') rest (.ok l)

section Rules

variable {q : Question} {known : Option Nat} {limits : Limits} {answers rest : Answers} {talk : List Remark}

theorem exists_finds (q : Question) (known : Option Nat) (answers : Answers) :
    ∃ talk rest r, Finds q known answers talk rest r := by
  cases known with
  | some n => exact ⟨_, _, _, .known n answers⟩
  | none =>
    obtain ⟨talk, rest, r, h⟩ := exists_converses q answers
    exact ⟨talk, rest, r, .asked h⟩

theorem Finds.answers_eq {r : Except DialogueError (Option Nat)} (h : Finds q known answers talk rest r) :
    answers = heardIn talk ++ rest := by
  cases h with
  | known n => rfl
  | asked h => exact h.answers_eq

theorem Fills.answers_eq {r : Except DialogueError Limits} (h : Fills limits answers talk rest r) :
    answers = heardIn talk ++ rest := by
  cases h with
  | stepsFailed hsteps => exact hsteps.answers_eq
  | cellsFailed hsteps hcells => rw [hsteps.answers_eq, hcells.answers_eq, heardIn_append, List.append_assoc]
  | filled hsteps hcells => rw [hsteps.answers_eq, hcells.answers_eq, heardIn_append, List.append_assoc]

theorem Finds.error_eq {e : DialogueError} (h : Finds q known answers talk rest (.error e)) :
    e = .closed ∨ e = .device .notText := by
  cases h with
  | asked h => exact h.error_eq

/-- the dialogue fails where the answers end, or on a line that is no text, if it does not fail on its sink -/
theorem Fills.error_eq {e : DialogueError} (h : Fills limits answers talk rest (.error e)) :
    e = .closed ∨ e = .device .notText := by
  cases h with
  | stepsFailed hsteps => exact hsteps.error_eq
  | cellsFailed _ hcells => exact hcells.error_eq

theorem course_of_askUnless {r : Except DialogueError (Option Nat)} (h : Finds q known answers talk rest r) (s : σ) :
    Course s talk rest r (askUnless known q s answers) := by
  cases h with
  | known n => exact .whole (.nil s)
  | asked h => exact course_of_ask h s

/-- what the rules lead to is what happens on a sink that takes everything -/
theorem Finds.askUnless_eq {r : Except DialogueError (Option Nat)} (h : Finds q known answers talk rest r) :
    askUnless known q Recorder.blank answers = ⟨rest, callAll Recorder.blank (callsOf (toldIn talk)), r⟩ :=
  (course_of_askUnless h Recorder.blank).of_willing Recorder.blank.willing

/-- a count of cells that is found is no zero: made a number of cells, it is the same -/
theorem Finds.kept {cells : Option Nat} (h : Finds .cells (cellsOf limits) answers talk rest (.ok cells)) :
    (cells.bind CellCount.ofNat?).map Subtype.val = cells := by
  obtain ⟨told, hsupplied, -⟩ := supplied_of_askUnless h.askUnless_eq
  exact hsupplied.kept

theorem exists_fills (limits : Limits) (answers : Answers) : ∃ talk rest r, Fills limits answers talk rest r := by
  obtain ⟨talk, mid, r, hsteps⟩ := exists_finds .steps limits.steps answers
  rcases r with e | steps
  · exact ⟨_, _, _, .stepsFailed hsteps⟩
  · obtain ⟨talk', rest, r, hcells⟩ := exists_finds .cells (cellsOf limits) mid
    rcases r with e | cells
    · exact ⟨_, _, _, .cellsFailed hsteps hcells⟩
    · have hkept : cells = cellsOf ⟨steps, cells.bind CellCount.ofNat?⟩ := hcells.kept.symm
      rw [hkept] at hcells
      exact ⟨_, _, _, .filled (l := ⟨steps, cells.bind CellCount.ofNat?⟩) hsteps hcells⟩

/-- **The course of the dialogue over both limits on any sink** is that of the talk by the rules. -/
theorem course_of_complete {r : Except DialogueError Limits} (h : Fills limits answers talk rest r) (s : σ) :
    Course s talk rest r (complete limits s answers) := by
  rw [complete_eq]
  cases h with
  | stepsFailed hsteps => exact (course_of_askUnless hsteps s).andThen_of_error
  | cellsFailed hsteps hcells =>
    have hmid := hcells.answers_eq
    subst hmid
    exact (course_of_askUnless hsteps s).andThen fun t => (course_of_askUnless hcells t).andThen_of_error
  | filled hsteps hcells =>
    have hmid := hcells.answers_eq
    subst hmid
    refine (course_of_askUnless hsteps s).andThen fun t => (course_of_askUnless hcells t).andThen_of_end fun u => ?_
    rw [bind_cellsOf]

end Rules

/-! ## What comes of it -/

/-- what comes of the dialogue over the limits that are open -/
structure FillsGaps (limits : Limits) (s : σ) (answers : Answers) (x : Exchange σ DialogueError Limits) : Prop where
  inSequence : InSequence limits s answers x
  /-- no question is put about a limit that is known -/
  notPut : ∃ cs, x.sink = callAll s cs ∧
    (limits.steps ≠ none → put .steps ∉ cs) ∧ (limits.cells ≠ none → put .cells ∉ cs)
  kept : ∀ l, x.result = .ok l →
    (limits.steps ≠ none → l.steps = limits.steps) ∧ (limits.cells ≠ none → l.cells = limits.cells)
  /-- where the cells were open, their question was put, and they are what its dialogue came to -/
  answered : ∀ l, x.result = .ok l → limits.cells = none → ∃ mid t talk,
    askUnless limits.steps .steps s answers = ⟨mid, t, .ok l.steps⟩ ∧
      Converses .cells mid talk x.unread (.ok (cellsOf l))
  /-- so they stay open exactly where the question was put and answered with n -/
  unset_iff : ∀ l, x.result = .ok l → (l.cells = none ↔ limits.cells = none ∧ ∃ mid t talk,
    askUnless limits.steps .steps s answers = ⟨mid, t, .ok l.steps⟩ ∧ Converses .cells mid talk x.unread (.ok none))
  /-- the talk by the rules is held, to its end or up to the line that fails -/
  course : ∃ talk rest r, Fills limits answers talk rest r ∧ answers = heardIn talk ++ rest ∧ Course s talk rest r x

section Gaps

variable {limits l : Limits} {s : σ} {answers : Answers} {x : Exchange σ DialogueError Limits}

theorem cells_eq_none_iff : l.cells = none ↔ cellsOf l = none := Option.map_eq_none_iff.symm

theorem InSequence.kept (h : InSequence limits s answers x) (hl : x.result = .ok l) :
    (limits.steps ≠ none → l.steps = limits.steps) ∧ (limits.cells ≠ none → l.cells = limits.cells) := by
  obtain ⟨mid, t, hsteps, hcells⟩ := h.exists_of_ok hl
  refine ⟨eq_known_of_askUnless hsteps, fun hknown => ?_⟩
  have hsame : cellsOf l = cellsOf limits := eq_known_of_askUnless hcells (mt cells_eq_none_iff.2 hknown)
  rw [← bind_cellsOf l, hsame, bind_cellsOf]

/-- the question of the cells was put to the answers that the first dialogue left -/
theorem InSequence.exists_ask (h : InSequence limits s answers x) (hl : x.result = .ok l)
    (hopen : limits.cells = none) :
    ∃ mid t, askUnless limits.steps .steps s answers = ⟨mid, t, .ok l.steps⟩ ∧
      ask .cells t mid = ⟨x.unread, x.sink, .ok (cellsOf l)⟩ := by
  obtain ⟨mid, t, hsteps, hcells⟩ := h.exists_of_ok hl
  rw [cells_eq_none_iff.1 hopen] at hcells
  exact ⟨mid, t, hsteps, hcells⟩

theorem InSequence.answered (h : InSequence limits s answers x) (hl : x.result = .ok l) (hopen : limits.cells = none) :
    ∃ mid t talk, askUnless limits.steps .steps s answers = ⟨mid, t, .ok l.steps⟩ ∧
      Converses .cells mid talk x.unread (.ok (cellsOf l)) := by
  obtain ⟨mid, t, hsteps, hcells⟩ := h.exists_ask hl hopen
  obtain ⟨talk, hconverses⟩ := exists_converses_of_ask hcells
  exact ⟨mid, t, talk, hsteps, hconverses⟩

theorem InSequence.unset_iff (h : InSequence limits s answers x) (hl : x.result = .ok l) :
    l.cells = none ↔ limits.cells = none ∧ ∃ mid t talk,
      askUnless limits.steps .steps s answers = ⟨mid, t, .ok l.steps⟩ ∧
        Converses .cells mid talk x.unread (.ok none) := by
  constructor
  · intro hnone
    have hopen : limits.cells = none := by
      by_contra hknown
      exact hknown ((h.kept hl).2 hknown ▸ hnone)
    obtain ⟨mid, t, talk, hsteps, hconverses⟩ := h.answered hl hopen
    rw [cells_eq_none_iff.1 hnone] at hconverses
    exact ⟨hopen, mid, t, talk, hsteps, hconverses⟩
  · rintro ⟨hopen, mid, t, talk, hsteps, hconverses⟩
    obtain ⟨mid', t', hsteps', hcells⟩ := h.exists_ask hl hopen
    rw [hsteps] at hsteps'
    cases hsteps'
    have hresult : (ask .cells t mid).result = .ok (cellsOf l) := by rw [hcells]
    obtain ⟨-, -, hv⟩ := (course_of_ask hconverses t).whole_of_ok hresult
    exact cells_eq_none_iff.2 (Except.ok.inj hv).symm

theorem not_converses_zero {rest : Answers} {talk : List Remark} :
    ¬ Converses .cells answers talk rest (.ok (some 0)) := by
  intro h
  have hask := (course_of_ask h Recorder.blank).of_willing Recorder.blank.willing
  obtain ⟨told, hsettles, -⟩ := settles_of_ask hask
  exact hsettles.ne_zero rfl rfl

theorem exists_converses_zero : ∃ answers talk, Converses .steps answers talk [] (.ok (some 0)) := by
  have hyes : Chosen (Text.encode ['y']) true := answer?_encode ['y']
  have hzero : Fits .steps (Text.encode ['0']) 0 := ⟨['0'], answer?_encode ['0'], by decide, fun _ => rfl⟩
  exact ⟨_, _, .wanted (.decided hyes) (.decided hzero)⟩

end Gaps

/-- **The dialogue over the limits fills the gaps, and loses no answer.** For all limits, every stream of answers and
every sink: what is known is kept and not asked for, and the dialogues over what is open follow one another, each on the
answers and the sink that the one before left; the first that fails is the last. The cells stay open exactly where n was
answered to their question. After y they are the count that was entered: a count of cells that is accepted is never
zero, though one of steps may be. Where a line cannot be told, that failure is the result, and the answers read are
those heard before it. -/
theorem complete_fills_gaps (limits : Limits) (s : σ) (bs : List UInt8) :
    Text.CutIntoLines bs (Text.byteLines bs) ∧
      FillsGaps limits s (Text.byteLines bs) (complete limits s (Text.byteLines bs)) ∧
      (∀ answers talk rest, ¬ Converses .cells answers talk rest (.ok (some 0))) ∧
      ∃ answers talk, Converses .steps answers talk [] (.ok (some 0)) := by
  have hsequence := inSequence_complete limits s (Text.byteLines bs)
  obtain ⟨cs, hcs, -, -, hsteps, hcells⟩ := calls_complete limits s (Text.byteLines bs)
  obtain ⟨talk, rest, r, hfills⟩ := exists_fills limits (Text.byteLines bs)
  refine ⟨Text.cutIntoLines_byteLines bs, ?_, fun _ _ _ => not_converses_zero, exists_converses_zero⟩
  exact {
    inSequence := hsequence
    notPut := ⟨cs, hcs, fun hknown hput => hknown (hsteps.1 hput), fun hknown hput => hknown (hcells.1 hput).1⟩
    kept := fun l hl => hsequence.kept hl
    answered := fun l hl hopen => hsequence.answered hl hopen
    unset_iff := fun l hl => hsequence.unset_iff hl
    course := ⟨talk, rest, r, hfills, hfills.answers_eq, course_of_complete hfills s⟩ }

/-- a sink with room for the first question -/
def roomForQuestion : Quota := { limit := some 41, refusal := .noSpace }

/-- the line that asks again fails: what was read is the line before it, and the two behind it are left -/
theorem complete_fills_gaps_cut :
    ∃ x, complete .unset roomForQuestion (Text.byteLines (Text.encode "Y\ny\n0\n".toList)) = x ∧
      x.result = .error (.device .noSpace) ∧ x.unread = [Text.encode "y\n".toList, Text.encode "0\n".toList] ∧
      FillsGaps .unset roomForQuestion (Text.byteLines (Text.encode "Y\ny\n0\n".toList)) x := by
  obtain ⟨-, hgaps, -⟩ := complete_fills_gaps .unset roomForQuestion (Text.encode "Y\ny\n0\n".toList)
  exact ⟨_, rfl, by decide +kernel, by decide +kernel, hgaps⟩

end Brainfuck.Dialogue
