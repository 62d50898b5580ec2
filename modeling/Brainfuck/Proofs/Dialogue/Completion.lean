/-
The dialogue over both limits. A limit that is known is not asked for; the others are, the step limit first, and the
second dialogue reads on where the first stopped. `Supplied` says where the value of one limit comes from. Whatever
the sink does, the values that come out are supplied so (`supplied_of_complete`); on a willing sink a script that
supplies them brings them out (`complete_of_supplied`). Each question is put at most once, and for an open limit only
(`calls_complete`).
-/
import Mathlib.Tactic
import Brainfuck.Proofs.Dialogue.Script

namespace Brainfuck.Dialogue

open Sink

/-- where the value of a limit comes from: it is known; it is open and nobody is asked; or answers settle it -/
inductive Supplied (asked : Bool) (q : Question) :
    Option Nat → Answers → Option Nat → Answers → List String → Prop where
  | known (n : Nat) (answers : Answers) : Supplied asked q (some n) answers (some n) answers []
  | unset (answers : Answers) (hasked : asked = false) : Supplied asked q none answers none answers []
  | typed {answers : Answers} {v : Option Nat} {rest : Answers} {told : List String} (hasked : asked = true)
      (h : Settles q answers v rest told) : Supplied asked q none answers v rest told

variable {σ τ : Type} [Sink σ] [Sink τ]

/-! ## One limit -/

theorem supplied_of_askUnless {known v : Option Nat} {q : Question} {s t : σ} {answers rest : Answers}
    (h : askUnless known q s answers = ⟨rest, t, .ok v⟩) :
    ∃ told, Supplied true q known answers v rest told ∧ t = callAll s (callsOf told) := by
  cases known with
  | some n =>
    cases h
    exact ⟨[], .known n answers, rfl⟩
  | none =>
    obtain ⟨told, hsettles, ht⟩ := settles_of_ask h
    exact ⟨told, .typed rfl hsettles, ht⟩

theorem askUnless_of_supplied {known v : Option Nat} {q : Question} {s : σ} (hs : Willing s) {answers rest : Answers}
    {told : List String} (h : Supplied true q known answers v rest told) :
    askUnless known q s answers = ⟨rest, callAll s (callsOf told), .ok v⟩ := by
  cases h with
  | known n answers => rfl
  | unset answers hasked => cases hasked
  | typed _ hsettles => exact ask_of_settles hs hsettles

theorem askUnless_map {φ : σ → τ} (h : Mirrors φ) (known : Option Nat) (q : Question) (s : σ) (answers : Answers) :
    askUnless known q (φ s) answers = (askUnless known q s answers).map φ := by
  cases known with
  | some n => rfl
  | none => exact ask_map h q s answers

/-- a dialogue that refuses zero never comes to zero -/
theorem Settles.ne_zero {q : Question} (hq : q.zeroFits = false) {answers rest : Answers} {n : Nat}
    {told : List String} (h : Settles q answers (some n) rest told) : n ≠ 0 := by
  cases h with
  | entered _ _ _ hfits =>
    obtain ⟨a, -, -, hzero⟩ := hfits
    intro hn
    rw [hzero hn] at hq
    cases hq

/-! ## Both limits -/

/-- the number of cells as a plain number -/
def cellsOf (l : Limits) : Option Nat := l.cells.map Subtype.val

theorem bind_cellsOf (l : Limits) : (cellsOf l).bind CellCount.ofNat? = l.cells := by
  unfold cellsOf
  cases l.cells with
  | none => rfl
  | some n => exact CellCount.ofNat?_val n

theorem map_val_ofNat? {n : Nat} (h : n ≠ 0) : (CellCount.ofNat? n).map Subtype.val = some n := by
  rw [CellCount.ofNat?, dif_pos (Nat.pos_of_ne_zero h)]
  rfl

/-- a number of cells that is supplied is kept as one: neither a known one nor a typed one is zero -/
theorem Supplied.kept {asked : Bool} {limits : Limits} {answers rest : Answers} {cells : Option Nat}
    {told : List String} (h : Supplied asked .cells (cellsOf limits) answers cells rest told) :
    (cells.bind CellCount.ofNat?).map Subtype.val = cells := by
  cases cells with
  | none => rfl
  | some n =>
    refine map_val_ofNat? ?_
    generalize hknown : cellsOf limits = known at h
    cases h with
    | known n answers =>
      obtain ⟨m, -, rfl⟩ := Option.map_eq_some_iff.1 hknown
      exact Nat.ne_of_gt m.2
    | typed _ hsettles => exact hsettles.ne_zero rfl

theorem complete_eq (limits : Limits) (s : σ) (answers : Answers) :
    complete limits s answers = (askUnless limits.steps .steps s answers).andThen fun steps s answers =>
      (askUnless (cellsOf limits) .cells s answers).andThen fun cells s answers =>
        ⟨answers, s, .ok ⟨steps, cells.bind CellCount.ofNat?⟩⟩ := by
  unfold complete
  rcases askUnless limits.steps .steps s answers with ⟨unread, t, e | steps⟩
  · rfl
  · simp only [Exchange.andThen, cellsOf]
    cases limits.cells with
    | some n =>
      simp only [Option.map_some, askUnless, Option.bind_some, CellCount.ofNat?_val]
    | none =>
      simp only [Option.map_none, askUnless]
      rcases ask .cells t unread with ⟨rest, u, e | cells⟩ <;> rfl

/-- **What the dialogue comes to was known or typed**, limit by limit, the second from where the first stopped. -/
theorem supplied_of_complete {limits l : Limits} {s t : σ} {answers rest : Answers}
    (h : complete limits s answers = ⟨rest, t, .ok l⟩) :
    ∃ mid told told', Supplied true .steps limits.steps answers l.steps mid told ∧
      Supplied true .cells (cellsOf limits) mid (cellsOf l) rest told' ∧ t = callAll s (callsOf (told ++ told')) := by
  rw [complete_eq] at h
  obtain ⟨mid, _, steps, hfirst, hrest⟩ := Exchange.exists_of_andThen h
  obtain ⟨_, _, cells, hsecond, hlast⟩ := Exchange.exists_of_andThen hrest
  cases hlast
  obtain ⟨told, hsteps, rfl⟩ := supplied_of_askUnless hfirst
  obtain ⟨told', hcells, rfl⟩ := supplied_of_askUnless hsecond
  refine ⟨mid, told, told', hsteps, ?_, by rw [callsOf_append, callAll_append]⟩
  change Supplied true .cells (cellsOf limits) mid ((cells.bind CellCount.ofNat?).map Subtype.val) rest told'
  rw [hcells.kept]
  exact hcells

/-- **On a willing sink, a script that supplies both limits brings them out.** -/
theorem complete_of_supplied {limits l : Limits} {s : σ} (hs : Willing s) {answers mid rest : Answers}
    {told told' : List String} (hsteps : Supplied true .steps limits.steps answers l.steps mid told)
    (hcells : Supplied true .cells (cellsOf limits) mid (cellsOf l) rest told') :
    complete limits s answers = ⟨rest, callAll s (callsOf (told ++ told')), .ok l⟩ := by
  rw [complete_eq, askUnless_of_supplied hs hsteps, Exchange.andThen_of_ok rfl,
    askUnless_of_supplied (hs.after _) hcells, Exchange.andThen_of_ok rfl, bind_cellsOf, callsOf_append,
    callAll_append]

theorem complete_map {φ : σ → τ} (h : Mirrors φ) (limits : Limits) (s : σ) (answers : Answers) :
    complete limits (φ s) answers = (complete limits s answers).map φ := by
  rw [complete_eq, complete_eq, askUnless_map h]
  refine Exchange.map_andThen fun _ s answers => ?_
  rw [askUnless_map h]
  exact Exchange.map_andThen fun _ _ _ => rfl

/-- with both limits known nothing is read and nothing told -/
theorem complete_known {limits : Limits} (hsteps : limits.steps ≠ none) (hcells : limits.cells ≠ none) (s : σ)
    (answers : Answers) : complete limits s answers = ⟨answers, s, .ok limits⟩ := by
  obtain ⟨steps, cells⟩ := limits
  cases steps with
  | none => exact absurd rfl hsteps
  | some n =>
    cases cells with
    | none => exact absurd rfl hcells
    | some m => rfl

/-! ## Which questions are put -/

theorem Spoken.not_put {texts : List String} {cs : List Call} (h : Spoken texts cs) {q : Question}
    (hline : q.choice.toList ≠ ['\n']) (hq : q.choice ∉ texts) : put q ∉ cs := by
  intro hput
  rcases h _ hput with hflush | hfeed | ⟨t, ht, htold⟩
  · cases hflush
  · have hbytes : Text.encode q.choice.toList = Text.encode ['\n'] := Call.write.inj hfeed
    exact hline (Text.encode_injective hbytes)
  · have hbytes := Text.encode_injective (Call.write.inj htold)
    exact hq (String.toList_inj.1 hbytes ▸ ht)

/-- the calls of one limit put its question where it is open, once, and never the other -/
theorem calls_askUnless (q other : Question) (hq : q.choice ∉ q.entry :: retries) (hqline : q.choice.toList ≠ ['\n'])
    (hother : other.choice ∉ q.choice :: q.entry :: retries) (holine : other.choice.toList ≠ ['\n'])
    (known : Option Nat) (s : σ) (answers : Answers) :
    ∃ cs, (askUnless known q s answers).sink = callAll s cs ∧ cs.count (put q) ≤ 1 ∧ (put q ∈ cs ↔ known = none) ∧
      put other ∉ cs := by
  cases known with
  | some n => exact ⟨[], rfl, Nat.zero_le _, iff_of_false List.not_mem_nil (Option.some_ne_none n), List.not_mem_nil⟩
  | none =>
    obtain ⟨cs, hs, hcs⟩ := calls_ask q s answers
    refine ⟨put q :: cs, hs, ?_, ⟨fun _ => rfl, fun _ => List.mem_cons_self⟩, ?_⟩
    · rw [List.count_cons_self, List.count_eq_zero_of_not_mem (hcs.not_put hqline hq)]
    · rw [List.mem_cons] at hother ⊢
      rintro (hput | hput)
      · exact hother (Or.inl (String.toList_inj.1 (Text.encode_injective (Call.write.inj hput))))
      · exact hcs.not_put holine (fun h => hother (Or.inr h)) hput

/-- **Each question is put at most once, and exactly for an open limit**; the second only after the first dialogue came
to a result. -/
theorem calls_complete (limits : Limits) (s : σ) (answers : Answers) :
    ∃ cs, (complete limits s answers).sink = callAll s cs ∧ cs.count (put .steps) ≤ 1 ∧ cs.count (put .cells) ≤ 1 ∧
      (put .steps ∈ cs ↔ limits.steps = none) ∧
      (put .cells ∈ cs ↔ limits.cells = none ∧ ∃ v, (askUnless limits.steps .steps s answers).result = .ok v) := by
  obtain ⟨cs, hs, hcount, hsteps, hcells⟩ := calls_askUnless .steps .cells (by decide) (by decide) (by decide)
    (by decide) limits.steps s answers
  rw [complete_eq]
  cases hresult : (askUnless limits.steps .steps s answers).result with
  | error e =>
    rw [Exchange.andThen_of_error hresult]
    refine ⟨cs, hs, hcount, by simp [List.count_eq_zero_of_not_mem hcells], hsteps, fun h => absurd h hcells, ?_⟩
    rintro ⟨-, v, hv⟩
    cases hv
  | ok steps =>
    rw [Exchange.andThen_of_ok hresult]
    obtain ⟨cs', hs', hcount', hcells', hsteps'⟩ := calls_askUnless .cells .steps (by decide) (by decide)
      (by decide) (by decide) (cellsOf limits) (askUnless limits.steps .steps s answers).sink
      (askUnless limits.steps .steps s answers).unread
    have hopen : cellsOf limits = none ↔ limits.cells = none := Option.map_eq_none_iff
    refine ⟨cs ++ cs', ?_, ?_, ?_, ?_, ?_⟩
    · rw [callAll_append, ← hs, ← hs', Exchange.andThen]
      split <;> rfl
    · rw [List.count_append, List.count_eq_zero_of_not_mem hsteps']
      exact hcount
    · rw [List.count_append, List.count_eq_zero_of_not_mem hcells, Nat.zero_add]
      exact hcount'
    · rw [List.mem_append, hsteps]
      exact or_iff_left hsteps'
    · rw [List.mem_append, hcells', hopen]
      constructor
      · rintro (h | h)
        · exact absurd h hcells
        · exact ⟨h, steps, rfl⟩
      · rintro ⟨h, -⟩
        exact Or.inr h

end Brainfuck.Dialogue
