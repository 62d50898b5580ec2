/-
What the dialogue does, on every sink and for every script of answers.

`Settles q answers v rest told` says how answers begin that settle the question `q` with the outcome `v`, which answers
are left and which lines are told: lines that are no decision, then `n`; or such lines, `y`, lines without a count that
fits, and one with such a count. Each line that does not do is answered by one that asks again. On every sink a dialogue
that comes to a result has gone so (`settles_of_ask`); on a willing sink answers that settle a question also bring the
dialogue to that result (`ask_of_settles`). However a dialogue goes, its question is put first and once (`calls_ask`).
-/
import Mathlib.Tactic
import Brainfuck.Proofs.Request.Calls

namespace Brainfuck

open Sink

theorem Text.encode_injective : Function.Injective Text.encode := by
  intro a b h
  have hread := congrArg Text.decode? h
  rwa [Text.decode?_encode, Text.decode?_encode, Option.some_inj] at hread

/-- one part of a dialogue after another, unless the first fails -/
def Exchange.andThen {σ ε α β : Type} (x : Exchange σ ε α) (f : α → σ → Answers → Exchange σ ε β) : Exchange σ ε β :=
  match x.result with
  | .ok a => f a x.sink x.unread
  | .error e => ⟨x.unread, x.sink, .error e⟩

/-- the same, with the sink seen as another -/
def Exchange.map {σ τ ε α : Type} (φ : σ → τ) (x : Exchange σ ε α) : Exchange τ ε α := ⟨x.unread, φ x.sink, x.result⟩

namespace Exchange

variable {σ τ ε α β : Type} {x : Exchange σ ε α} {f : α → σ → Answers → Exchange σ ε β}

theorem andThen_of_ok {a : α} (h : x.result = .ok a) : x.andThen f = f a x.sink x.unread := by
  rw [andThen, h]

theorem andThen_of_error {e : ε} (h : x.result = .error e) : x.andThen f = ⟨x.unread, x.sink, .error e⟩ := by
  rw [andThen, h]

theorem exists_of_andThen {rest : Answers} {t : σ} {b : β} (h : x.andThen f = ⟨rest, t, .ok b⟩) :
    ∃ mid s a, x = ⟨mid, s, .ok a⟩ ∧ f a s mid = ⟨rest, t, .ok b⟩ := by
  rcases x with ⟨mid, s, e | a⟩
  · cases h
  · exact ⟨mid, s, a, rfl, h⟩

theorem map_andThen {φ : σ → τ} {g : α → τ → Answers → Exchange τ ε β}
    (h : ∀ a s answers, g a (φ s) answers = (f a s answers).map φ) : (x.map φ).andThen g = (x.andThen f).map φ := by
  rcases x with ⟨rest, s, e | a⟩
  · rfl
  · exact h a s rest

end Exchange

namespace Dialogue

/-! ## Scripts of answers -/

/-- a line that is text but decides nothing -/
def Undecided (line : List UInt8) : Prop := ∃ a, answer? line = some a ∧ a ≠ ['y'] ∧ a ≠ ['n']

/-- a line with a count that fits the question -/
def Fits (q : Question) (line : List UInt8) (n : Nat) : Prop :=
  ∃ a, answer? line = some a ∧ Count.parse? a = some n ∧ (n = 0 → q.zeroFits = true)

/-- a line that is text but has no such count, and what is said to it -/
def Unfit (q : Question) (line : List UInt8) (complaint : String) : Prop :=
  ∃ a, answer? line = some a ∧
    (Count.parse? a = none ∧ complaint = "Please enter a non-negative number" ∨
      Count.parse? a = some 0 ∧ q.zeroFits = false ∧ complaint = "Please enter a positive number")

/-- how answers begin that settle a question: with which outcome, which answers are left, and which lines are told -/
inductive Settles (q : Question) : Answers → Option Nat → Answers → List String → Prop where
  | declined {skipped : Answers} {no : List UInt8} {rest : Answers} (hskipped : ∀ l ∈ skipped, Undecided l)
      (hno : answer? no = some ['n']) :
      Settles q (skipped ++ no :: rest) none rest (q.choice :: skipped.map fun _ => "Please y or n")
  | entered {skipped unfit : Answers} {yes entry : List UInt8} {n : Nat} {rest : Answers} {complaints : List String}
      (hskipped : ∀ l ∈ skipped, Undecided l) (hyes : answer? yes = some ['y'])
      (hunfit : List.Forall₂ (Unfit q) unfit complaints) (hentry : Fits q entry n) :
      Settles q (skipped ++ yes :: (unfit ++ entry :: rest)) (some n) rest
        (q.choice :: (skipped.map fun _ => "Please y or n") ++ q.entry :: complaints)

variable {σ τ : Type} [Sink σ] [Sink τ]

/-! ## What is told -/

/-- what is said to an answer that does not do -/
def retries : List String := ["Please y or n", "Please enter a non-negative number", "Please enter a positive number"]

/-- a line told, as a part of the dialogue -/
def say (text : String) (s : σ) (answers : Answers) : Exchange σ DialogueError Unit :=
  ⟨answers, (tell s text).1, match (tell s text).2 with | some e => .error (.device e) | none => .ok ()⟩

/-- these calls write lines of these texts, perhaps not to the end, and flush them -/
def Spoken (texts : List String) (cs : List Call) : Prop :=
  ∀ c ∈ cs, c = .flush ∨ c = .write [Text.lineFeed] ∨ ∃ t ∈ texts, c = .write (Text.encode t.toList)

/-- between `s` and `s'` nothing but these texts is told -/
def Tells (texts : List String) (s s' : σ) : Prop := ∃ cs, s' = callAll s cs ∧ Spoken texts cs

theorem Tells.refl (texts : List String) (s : σ) : Tells texts s s := ⟨[], rfl, List.forall_mem_nil _⟩

theorem Tells.trans {texts : List String} {s s' s'' : σ} (h : Tells texts s s') (h' : Tells texts s' s'') :
    Tells texts s s'' := by
  obtain ⟨cs, rfl, hcs⟩ := h
  obtain ⟨cs', rfl, hcs'⟩ := h'
  refine ⟨cs ++ cs', (callAll_append s cs cs').symm, fun c hc => ?_⟩
  rcases List.mem_append.1 hc with hc | hc
  · exact hcs c hc
  · exact hcs' c hc

theorem Tells.andThen {ε α β : Type} {texts : List String} {s : σ} {x : Exchange σ ε α}
    {f : α → σ → Answers → Exchange σ ε β} (hx : Tells texts s x.sink)
    (hf : ∀ a, x.result = .ok a → Tells texts x.sink (f a x.sink x.unread).sink) :
    Tells texts s (x.andThen f).sink := by
  cases h : x.result with
  | ok a => exact Exchange.andThen_of_ok (f := f) h ▸ hx.trans (hf a h)
  | error e => exact Exchange.andThen_of_error (f := f) h ▸ hx

/-- a line told is one write of its text, then what ends it -/
theorem calls_tell (s : σ) (text : String) :
    ∃ cs, (tell s text).1 = callAll s (.write (Text.encode text.toList) :: cs) ∧
      ∀ c ∈ cs, c = .flush ∨ c = .write [Text.lineFeed] := by
  simp only [tell, Sink.writeLine]
  rcases hw : Sink.write s (Text.encode text.toList) with ⟨s', count, failure⟩
  have hs' : call s (.write (Text.encode text.toList)) = s' := congrArg Written.sink hw
  subst hs'
  cases failure with
  | some e => exact ⟨[], rfl, List.forall_mem_nil _⟩
  | none =>
    simp only
    rcases hf : Sink.write (call s (.write (Text.encode text.toList))) [Text.lineFeed] with ⟨s'', count', failure'⟩
    have hs'' : call (call s (.write (Text.encode text.toList))) (.write [Text.lineFeed]) = s'' :=
      congrArg Written.sink hf
    subst hs''
    cases failure' with
    | some e => exact ⟨[.write [Text.lineFeed]], rfl, by simp⟩
    | none => exact ⟨[.write [Text.lineFeed], .flush], rfl, by simp⟩

theorem tells_tell {texts : List String} {text : String} (h : text ∈ texts) (s : σ) :
    Tells texts s (tell s text).1 := by
  obtain ⟨cs, hs, hcs⟩ := calls_tell s text
  refine ⟨_, hs, fun c hc => ?_⟩
  rcases List.mem_cons.1 hc with rfl | hc
  · exact Or.inr (Or.inr ⟨text, h, rfl⟩)
  · rcases hcs c hc with hc | hc
    · exact Or.inl hc
    · exact Or.inr (Or.inl hc)

/-- the calls that tell one line -/
def lineCalls (text : String) : List Call := [.write (Text.encode text.toList), .write [Text.lineFeed], .flush]

/-- the calls that tell several lines -/
def callsOf (told : List String) : List Call := told.flatMap lineCalls

theorem callsOf_append (told told' : List String) : callsOf (told ++ told') = callsOf told ++ callsOf told' :=
  List.flatMap_append

theorem callsOf_cons (text : String) (told : List String) : callsOf (text :: told) = lineCalls text ++ callsOf told :=
  List.flatMap_cons

/-- a line was told in full unless a call failed -/
theorem tell_of_none {s t : σ} {text : String} (h : tell s text = (t, none)) : t = callAll s (lineCalls text) := by
  simp only [tell, Sink.writeLine] at h
  rcases hw : Sink.write s (Text.encode text.toList) with ⟨s', count, e | _⟩
  · rw [hw] at h
    simp only at h
    rcases hf : Sink.write s' [Text.lineFeed] with ⟨s'', count', e | _⟩
    · rw [hf] at h
      have hlast : (Sink.flush s'').1 = t := congrArg Prod.fst h
      have hs' : (Sink.write s (Text.encode text.toList)).sink = s' := by rw [hw]
      have hs'' : (Sink.write s' [Text.lineFeed]).sink = s'' := by rw [hf]
      subst hlast hs'' hs'
      rfl
    · rw [hf] at h
      cases h
  · rw [hw] at h
    cases h

/-- on a willing sink every line is told in full -/
theorem tell_of_willing {s : σ} (h : Willing s) (text : String) : tell s text = (callAll s (lineCalls text), none) := by
  have hline := h.neverFails.writeLine_eq text.toList
  have hnone : (tell s text).2 = none := by
    simp only [tell, hline]
    exact h.failure_flush [.write (Text.encode text.toList), .write [Text.lineFeed]]
  rw [← tell_of_none (t := (tell s text).1) (by rw [← hnone])]
  rw [← hnone]

theorem say_of_willing {s : σ} (h : Willing s) (text : String) (answers : Answers) :
    say text s answers = ⟨answers, callAll s (lineCalls text), .ok ()⟩ := by
  rw [say, tell_of_willing h]

theorem eq_of_say {text : String} {s t : σ} {answers rest : Answers} {u : Unit}
    (h : say text s answers = ⟨rest, t, .ok u⟩) : rest = answers ∧ t = callAll s (lineCalls text) := by
  unfold say at h
  rcases ht : tell s text with ⟨s', e | _⟩
  · rw [ht] at h
    cases h
    exact ⟨rfl, tell_of_none ht⟩
  · rw [ht] at h
    cases h

theorem tell_map {φ : σ → τ} (h : Mirrors φ) (s : σ) (text : String) :
    tell (φ s) text = (φ (tell s text).1, (tell s text).2) := by
  rw [tell, tell, h.shows.writeLine]
  rcases Sink.writeLine s text.toList with ⟨s', failure⟩
  cases failure with
  | some e => rfl
  | none => exact h.flush s'

theorem say_map {φ : σ → τ} (h : Mirrors φ) (text : String) (s : σ) (answers : Answers) :
    say text (φ s) answers = (say text s answers).map φ := by
  rw [say, tell_map h]
  rfl

/-! ## Reading until an answer does -/

/-- read answers until one is accepted; `accept` tells what an answer means, or what to say to it -/
def await {α : Type} (accept : List Char → Except String α) (sink : σ) : Answers → Exchange σ DialogueError α
  | [] => ⟨[], sink, .error .closed⟩
  | line :: unread =>
    match answer? line with
    | none => ⟨unread, sink, .error (.device .notText)⟩
    | some a =>
      match accept a with
      | .ok x => ⟨unread, sink, .ok x⟩
      | .error retry =>
        match tell sink retry with
        | (sink, some e) => ⟨unread, sink, .error (.device e)⟩
        | (sink, none) => await accept sink unread

/-- is the answer y? -/
def choose (a : List Char) : Except String Bool :=
  if a = ['y'] then .ok true else if a = ['n'] then .ok false else .error "Please y or n"

theorem awaitChoice_eq (s : σ) (answers : Answers) : awaitChoice s answers = await choose s answers := by
  induction answers generalizing s with
  | nil => rfl
  | cons line unread ih =>
    unfold awaitChoice await choose
    cases answer? line with
    | none => rfl
    | some a =>
      by_cases hy : a = ['y']
      · simp only [hy, if_true]
      · by_cases hn : a = ['n']
        · simp only [hn, if_true]
          rfl
        · simp only [if_neg hy, if_neg hn]
          rcases tell s "Please y or n" with ⟨s', failure⟩
          cases failure with
          | some e => rfl
          | none => exact ih s'

theorem awaitCount_eq (zeroFits : Bool) (s : σ) (answers : Answers) :
    awaitCount zeroFits s answers = await (judge zeroFits) s answers := by
  induction answers generalizing s with
  | nil => rfl
  | cons line unread ih =>
    unfold awaitCount await
    cases answer? line with
    | none => rfl
    | some a =>
      simp only
      cases judge zeroFits a with
      | ok n => rfl
      | error retry =>
        simp only
        rcases tell s retry with ⟨s', failure⟩
        cases failure with
        | some e => rfl
        | none => exact ih s'

section Await

variable {α : Type} {accept : List Char → Except String α}

/-- a line that ends the reading -/
def Accepted (accept : List Char → Except String α) (line : List UInt8) (x : α) : Prop :=
  ∃ a, answer? line = some a ∧ accept a = .ok x

/-- a line that is text but asked for again, and how -/
def Refused (accept : List Char → Except String α) (line : List UInt8) (retry : String) : Prop :=
  ∃ a, answer? line = some a ∧ accept a = .error retry

theorem await_accepted {line : List UInt8} {x : α} (h : Accepted accept line x) (s : σ) (rest : Answers) :
    await accept s (line :: rest) = ⟨rest, s, .ok x⟩ := by
  obtain ⟨a, ha, hx⟩ := h
  simp only [await, ha, hx]

/-- what was accepted is the first line that is not refused -/
theorem skipped_of_await {s t : σ} {answers rest : Answers} {x : α} (h : await accept s answers = ⟨rest, t, .ok x⟩) :
    ∃ skipped line told, answers = skipped ++ line :: rest ∧ List.Forall₂ (Refused accept) skipped told ∧
      Accepted accept line x ∧ t = callAll s (callsOf told) := by
  induction answers generalizing s with
  | nil => cases h
  | cons line unread ih =>
    unfold await at h
    split at h
    · cases h
    · rename_i a ha
      split at h
      · rename_i y hy
        cases h
        exact ⟨[], line, [], rfl, .nil, ⟨a, ha, hy⟩, rfl⟩
      · rename_i retry hretry
        rcases ht : tell s retry with ⟨s', e | _⟩
        · simp only [ht] at h
          obtain ⟨skipped, last, told, rfl, hskipped, hlast, rfl⟩ := ih h
          refine ⟨line :: skipped, last, retry :: told, rfl, .cons ⟨a, ha, hretry⟩ hskipped, hlast, ?_⟩
          rw [tell_of_none ht, callsOf_cons, callAll_append]
        · simp only [ht] at h
          cases h

/-- on a willing sink refused lines are answered and skipped -/
theorem await_of_skipped {s : σ} (hs : Willing s) {skipped : Answers} {told : List String} {line : List UInt8}
    {x : α} (hskipped : List.Forall₂ (Refused accept) skipped told) (hline : Accepted accept line x) (rest : Answers) :
    await accept s (skipped ++ line :: rest) = ⟨rest, callAll s (callsOf told), .ok x⟩ := by
  induction hskipped generalizing s with
  | nil => exact await_accepted hline s rest
  | @cons first retry skipped told hfirst _ ih =>
    obtain ⟨a, ha, hretry⟩ := hfirst
    have hrest := ih (hs.after (lineCalls retry))
    rw [← callAll_append, ← callsOf_cons] at hrest
    simp only [List.cons_append, await, ha, hretry, tell_of_willing hs, hrest]

theorem tells_await {texts : List String} (htexts : ∀ a retry, accept a = .error retry → retry ∈ texts) (s : σ)
    (answers : Answers) : Tells texts s (await accept s answers).sink := by
  induction answers generalizing s with
  | nil => exact .refl _ _
  | cons line unread ih =>
    unfold await
    split
    · exact .refl _ _
    · split
      · exact .refl _ _
      · rename_i a _ _ retry hretry
        have htold := tells_tell (htexts a retry hretry) s
        rcases ht : tell s retry with ⟨s', failure⟩
        rw [ht] at htold
        cases failure with
        | some e => exact htold
        | none => exact htold.trans (ih s')

theorem await_map {φ : σ → τ} (h : Mirrors φ) (s : σ) (answers : Answers) :
    await accept (φ s) answers = (await accept s answers).map φ := by
  induction answers generalizing s with
  | nil => rfl
  | cons line unread ih =>
    unfold await
    cases answer? line with
    | none => rfl
    | some a =>
      simp only
      cases accept a with
      | ok x => rfl
      | error retry =>
        simp only [tell_map h]
        rcases tell s retry with ⟨s', e | _⟩
        · exact ih s'
        · rfl

end Await

/-! ## One question -/

theorem accepted_choose_iff {line : List UInt8} {b : Bool} :
    Accepted choose line b ↔ answer? line = some [if b then 'y' else 'n'] := by
  constructor
  · rintro ⟨a, ha, hb⟩
    rw [ha]
    unfold choose at hb
    split at hb
    · rename_i hy
      cases hb
      rw [hy]
      rfl
    · split at hb
      · rename_i hn
        cases hb
        rw [hn]
        rfl
      · cases hb
  · intro h
    refine ⟨_, h, ?_⟩
    cases b <;> rfl

theorem refused_choose_iff {line : List UInt8} {retry : String} :
    Refused choose line retry ↔ Undecided line ∧ retry = "Please y or n" := by
  constructor
  · rintro ⟨a, ha, hretry⟩
    unfold choose at hretry
    split at hretry
    · cases hretry
    · split at hretry
      · cases hretry
      · rename_i hy hn
        cases hretry
        exact ⟨⟨a, ha, hy, hn⟩, rfl⟩
  · rintro ⟨⟨a, ha, hy, hn⟩, rfl⟩
    exact ⟨a, ha, by rw [choose, if_neg hy, if_neg hn]⟩

theorem forall₂_refused_choose {skipped : Answers} {told : List String} :
    List.Forall₂ (Refused choose) skipped told ↔
      (∀ l ∈ skipped, Undecided l) ∧ told = skipped.map fun _ => "Please y or n" := by
  induction skipped generalizing told with
  | nil => simp
  | cons line skipped ih =>
    rw [List.forall₂_cons_left_iff]
    simp only [ih, refused_choose_iff, List.forall_mem_cons, List.map_cons]
    constructor
    · rintro ⟨retry, told, ⟨hline, rfl⟩, ⟨hskipped, rfl⟩, rfl⟩
      exact ⟨⟨hline, hskipped⟩, rfl⟩
    · rintro ⟨⟨hline, hskipped⟩, rfl⟩
      exact ⟨_, _, ⟨hline, rfl⟩, ⟨hskipped, rfl⟩, rfl⟩

theorem accepted_judge_iff {q : Question} {line : List UInt8} {n : Nat} :
    Accepted (judge q.zeroFits) line n ↔ Fits q line n := by
  refine exists_congr fun a => and_congr_right fun _ => ?_
  unfold judge
  cases Count.parse? a with
  | none => simp
  | some m => by_cases hm : m = 0 <;> cases hz : q.zeroFits <;> simp_all; omega

theorem refused_judge_iff {q : Question} {line : List UInt8} {complaint : String} :
    Refused (judge q.zeroFits) line complaint ↔ Unfit q line complaint := by
  refine exists_congr fun a => and_congr_right fun _ => ?_
  unfold judge
  constructor
  · intro h
    split at h
    · cases h
      exact Or.inl ⟨‹_›, rfl⟩
    · split at h
      · rename_i n hn hzero
        cases h
        rw [hn, hzero.1]
        exact Or.inr ⟨rfl, by simpa using hzero.2, rfl⟩
      · cases h
  · rintro (⟨hnone, rfl⟩ | ⟨hzero, hfits, rfl⟩)
    · rw [hnone]
    · rw [hzero, hfits]
      rfl

variable {q : Question} {answers : Answers} {v : Option Nat}

/-- the dialogue part by part -/
theorem ask_eq (q : Question) (s : σ) (answers : Answers) :
    ask q s answers = (say q.choice s answers).andThen fun _ s answers =>
      (await choose s answers).andThen fun wanted s answers =>
        if wanted then
          (say q.entry s answers).andThen fun _ s answers =>
            (await (judge q.zeroFits) s answers).andThen fun n s answers => ⟨answers, s, .ok (some n)⟩
        else ⟨answers, s, .ok none⟩ := by
  unfold ask
  simp only [say, awaitChoice_eq, awaitCount_eq]
  rcases tell s q.choice with ⟨s', e | _⟩
  · simp only [Exchange.andThen]
    rcases await choose s' answers with ⟨unread, s'', e | b⟩
    · rfl
    · cases b with
      | false => rfl
      | true =>
        simp only [if_true]
        rcases tell s'' q.entry with ⟨t, e | _⟩
        · simp only
          rcases await (judge q.zeroFits) t unread with ⟨rest, t', e | n⟩ <;> rfl
        · rfl
  · rfl

/-- **A dialogue that comes to a result has read answers that settle its question**, and no more. -/
theorem settles_of_ask {s t : σ} {rest : Answers} (h : ask q s answers = ⟨rest, t, .ok v⟩) :
    ∃ told, Settles q answers v rest told ∧ t = callAll s (callsOf told) := by
  rw [ask_eq] at h
  obtain ⟨_, _, _, hput, hchoose⟩ := Exchange.exists_of_andThen h
  obtain ⟨rfl, rfl⟩ := eq_of_say hput
  obtain ⟨_, _, wanted, hchoice, hwanted⟩ := Exchange.exists_of_andThen hchoose
  obtain ⟨skipped, line, told, rfl, hskipped, hline, rfl⟩ := skipped_of_await hchoice
  obtain ⟨hundecided, rfl⟩ := forall₂_refused_choose.1 hskipped
  replace hline := accepted_choose_iff.1 hline
  cases wanted with
  | false =>
    cases hwanted
    exact ⟨_, .declined hundecided hline, by rw [callsOf_cons, callAll_append]⟩
  | true =>
    rw [if_pos rfl] at hwanted
    obtain ⟨_, _, _, hentry, hjudge⟩ := Exchange.exists_of_andThen hwanted
    obtain ⟨rfl, rfl⟩ := eq_of_say hentry
    obtain ⟨_, _, n, hcount, hlast⟩ := Exchange.exists_of_andThen hjudge
    obtain ⟨unfit, entry, complaints, rfl, hunfit, hfits, rfl⟩ := skipped_of_await hcount
    cases hlast
    refine ⟨_, .entered hundecided hline (hunfit.imp fun _ _ => refused_judge_iff.1) (accepted_judge_iff.1 hfits), ?_⟩
    simp only [callsOf_append, callsOf_cons, callAll_append]

/-- **On a willing sink, answers that settle a question bring its dialogue to that result.** -/
theorem ask_of_settles {s : σ} (hs : Willing s) {rest : Answers} {told : List String}
    (h : Settles q answers v rest told) : ask q s answers = ⟨rest, callAll s (callsOf told), .ok v⟩ := by
  rw [ask_eq, say_of_willing hs, Exchange.andThen_of_ok rfl]
  have hput := hs.after (lineCalls q.choice)
  cases h with
  | declined hskipped hno =>
    have hchoice := await_of_skipped hput (forall₂_refused_choose.2 ⟨hskipped, rfl⟩)
      (accepted_choose_iff (b := false).2 hno) rest
    rw [hchoice, Exchange.andThen_of_ok rfl, ← callAll_append, ← callsOf_cons]
    rfl
  | @entered skipped unfit yes entry n _ complaints hskipped hyes hunfit hentry =>
    have hchoice := await_of_skipped hput (forall₂_refused_choose.2 ⟨hskipped, rfl⟩)
      (accepted_choose_iff (b := true).2 hyes) (unfit ++ entry :: rest)
    have hwanted := hput.after (callsOf (skipped.map fun _ => "Please y or n"))
    have hcount := await_of_skipped (hwanted.after (lineCalls q.entry))
      (hunfit.imp fun _ _ => refused_judge_iff.2) (accepted_judge_iff.2 hentry) rest
    rw [hchoice, Exchange.andThen_of_ok rfl, if_pos rfl, say_of_willing hwanted, Exchange.andThen_of_ok rfl, hcount,
      Exchange.andThen_of_ok rfl]
    simp only [callsOf_append, callsOf_cons, callAll_append]

theorem mem_retries_of_choose {a : List Char} {retry : String} (h : choose a = .error retry) : retry ∈ retries := by
  unfold choose at h
  split at h
  · cases h
  · split at h
    · cases h
    · cases h
      simp [retries]

theorem mem_retries_of_judge {zeroFits : Bool} {a : List Char} {retry : String} (h : judge zeroFits a = .error retry) :
    retry ∈ retries := by
  unfold judge at h
  split at h
  · cases h
    simp [retries]
  · split at h
    · cases h
      simp [retries]
    · cases h

/-- the call that puts a question -/
def put (q : Question) : Call := .write (Text.encode q.choice.toList)

/-- **A question is put first and once**; after it nothing is told but the line that asks for a count and lines that
ask again. -/
theorem calls_ask (q : Question) (s : σ) (answers : Answers) :
    ∃ cs, (ask q s answers).sink = callAll s (put q :: cs) ∧ Spoken (q.entry :: retries) cs := by
  have hchoose : ∀ t as, Tells (q.entry :: retries) t (await choose (t : σ) as).sink := fun t as =>
    tells_await (fun a retry h => List.mem_cons_of_mem _ (mem_retries_of_choose h)) t as
  have hjudge : ∀ t as, Tells (q.entry :: retries) t (await (judge q.zeroFits) (t : σ) as).sink := fun t as =>
    tells_await (fun a retry h => List.mem_cons_of_mem _ (mem_retries_of_judge h)) t as
  -- all that follows the question is told from the sink it leaves
  have hrest : Tells (q.entry :: retries) (tell s q.choice).1 (ask q s answers).sink := by
    rw [ask_eq]
    refine Tells.andThen (.refl _ _) fun _ _ => Tells.andThen (hchoose _ _) fun wanted _ => ?_
    cases wanted with
    | false => exact .refl _ _
    | true =>
      refine Tells.andThen (tells_tell List.mem_cons_self _) fun _ _ => ?_
      exact Tells.andThen (hjudge _ _) fun _ _ => .refl _ _
  obtain ⟨cs, hs, hcs⟩ := calls_tell s q.choice
  obtain ⟨cs', hs', hcs'⟩ := hrest
  refine ⟨cs ++ cs', ?_, fun c hc => ?_⟩
  · rw [hs', hs, ← callAll_append]
    rfl
  · rcases List.mem_append.1 hc with hc | hc
    · rcases hcs c hc with rfl | rfl
      · exact Or.inl rfl
      · exact Or.inr (Or.inl rfl)
    · exact hcs' c hc

theorem ask_map {φ : σ → τ} (h : Mirrors φ) (q : Question) (s : σ) (answers : Answers) :
    ask q (φ s) answers = (ask q s answers).map φ := by
  rw [ask_eq, ask_eq, say_map h]
  refine Exchange.map_andThen fun _ s answers => ?_
  rw [await_map h]
  refine Exchange.map_andThen fun wanted s answers => ?_
  cases wanted with
  | false => rfl
  | true =>
    rw [if_pos rfl, if_pos rfl, say_map h]
    refine Exchange.map_andThen fun _ s answers => ?_
    rw [await_map h]
    exact Exchange.map_andThen fun _ _ _ => rfl

end Dialogue

end Brainfuck
