/-
The four ways to enter a limit agree. A count below 2^64, written with zeros and a plus sign in front or without, gives
the same limit as an option, as the value of an environment variable with blanks around it, as the value of a line in
the section of a config file, and typed into the dialogue with blanks anywhere. A larger number is refused wherever it
is written: the environment and the file then set nothing, and the dialogue asks again.
-/
import Mathlib.Tactic
import Brainfuck.Proofs.Limits.Section
import Brainfuck.Proofs.Limits.Sources

namespace Brainfuck

open Sink Text Dialogue ConfigFile

/-! ## The environment -/

/-- the variable holds this text, with blanks around it -/
def Environment.Holds (env : Environment) (name : String) (text : List Char) : Prop :=
  ∃ a b, Blanks a ∧ Blanks b ∧ env.bindings.lookup name = some (encode (a ++ text ++ b))

theorem Settings.value_of_holds {α : Type} {env : Environment} {name : String} {text : List Char} {n : Nat}
    (h : env.Holds name text) (hwrites : Count.Writes n text) (read? : List Char → Option α) :
    (fromVariable env name read?).value = read? text := by
  obtain ⟨a, b, ha, hb, hlookup⟩ := h
  have htext : env.text? name = some (a ++ text ++ b) := by
    rw [Environment.text?, hlookup, Option.bind_some, decode?_encode]
  rw [value_fromVariable, htext, Option.bind_some,
    trim_padded ha (tight_of_not_blank fun c hc => hwrites.not_blank hc) hb]

/-! ## The dialogue -/

/-- what two lists have in common element by element falls apart where the first one does -/
theorem exists_append_of_forall₂ {α β : Type} {R : α → β → Prop} {xs ys : List α} {zs : List β}
    (h : List.Forall₂ R (xs ++ ys) zs) : ∃ us vs, zs = us ++ vs ∧ List.Forall₂ R xs us ∧ List.Forall₂ R ys vs := by
  induction xs generalizing zs with
  | nil => exact ⟨[], zs, rfl, .nil, h⟩
  | cons x xs ih =>
    obtain ⟨z, zs, hz, hrest, rfl⟩ := List.forall₂_cons_left_iff.1 h
    obtain ⟨us, vs, rfl, hus, hvs⟩ := ih hrest
    exact ⟨z :: us, vs, rfl, .cons hz hus, hvs⟩

/-- a line with a number that does not fit into 64 bits, blanks anywhere in it -/
def TooLarge (l : List Char) : Prop := ∃ k, Count.bound ≤ k ∧ Count.Writes k (squeeze l)

/-- **A count typed after y settles its question**; for every number that is too large it is asked for again. -/
theorem settles_of_typed (q : Question) {yes entry : List Char} {large : List (List Char)} {bs rest : List UInt8}
    {n : Nat} (h : Typed (yes :: (large ++ [entry])) bs rest) (hyes : squeeze yes = ['y'])
    (hlarge : ∀ l ∈ large, TooLarge l) (hentry : Count.Writes n (squeeze entry)) (hn : n < Count.bound)
    (hzero : n = 0 → q.zeroFits = true) :
    Settles q (byteLines bs) (some n) (byteLines rest)
      (q.choice :: q.entry :: large.map fun _ => "Please enter a non-negative number") := by
  obtain ⟨answers, hbytes, hanswers⟩ := h.exists_answers
  obtain ⟨first, others, hfirst, hothers, rfl⟩ := List.forall₂_cons_left_iff.1 hanswers
  obtain ⟨unfit, lasts, rfl, hunfit, hlasts⟩ := exists_append_of_forall₂ hothers
  obtain ⟨last, none, hlast, hnone, rfl⟩ := List.forall₂_cons_left_iff.1 hlasts
  obtain rfl := List.forall₂_nil_left_iff.1 hnone
  have hfits : Fits q last n := ⟨_, hlast, by rw [hentry.parse?_eq, if_pos hn], hzero⟩
  -- each number that is too large is no count
  have hcomplaints : List.Forall₂ (Unfit q) unfit (large.map fun _ => "Please enter a non-negative number") := by
    rw [List.forall₂_map_right_iff]
    have hboth := (List.forall₂_and_left _ _).2 ⟨hlarge, hunfit⟩
    refine List.Forall₂.flip (hboth.imp ?_)
    rintro l line ⟨⟨k, hk, hwrites⟩, hline⟩
    exact ⟨_, hline, Or.inl ⟨by rw [hwrites.parse?_eq, if_neg (Nat.not_lt.2 hk)], rfl⟩⟩
  have hnothing : ∀ l ∈ ([] : Answers), Undecided l := List.forall_mem_nil _
  rw [hbytes, List.cons_append, List.append_assoc]
  exact .entered hnothing (hfirst.trans (congrArg some hyes)) hcomplaints hfits

/-! ## All four ways -/

/-- every way to enter `n` steps and `m` cells comes to just these limits -/
structure EnteredAlike (n : Nat) (m : CellCount) : Prop where
  /-- as options, whatever the fallback; then nothing is read and nothing told -/
  options : ∀ {σ : Type} [Sink σ] (o : Options) (reader : Reader) (program input : List Char),
    o.programAndInput reader = .ok (program, input) → o.maxSteps = some n → o.memory = some m.1 →
      ∀ (fallback : Limits) (answers : Answers) (questions : σ), o.request reader fallback answers questions =
        ⟨answers, questions, .ok ⟨program, input, ⟨some n, some m⟩, if o.debug then .table else .output⟩⟩
  /-- as environment variables with blanks around the values -/
  environment : ∀ (env : Environment) (v w : List Char), Count.Writes n v → Count.Writes m.1 w →
    env.Holds "BF_MAX_STEPS" v → env.Holds "BF_MEMORY_SIZE" w →
      (Settings.fromEnvironment env).value = ⟨some n, some m⟩
  /-- as lines of the section, among lines that say nothing, lines of other sections and numbers that are too large -/
  file : ∀ (text : List Char) (body : List (List Char)), Holds body text →
    (∀ l ∈ body, Allowed (some n) (some m.1) l) →
    (∃ l ∈ body, ∃ v, Assigns "max_steps".toList v l ∧ Count.Writes n v) →
    (∃ l ∈ body, ∃ v, Assigns "memory_size".toList v l ∧ Count.Writes m.1 v) →
      ConfigFile.limits text = ⟨some n, some m⟩
  /-- typed, with blanks anywhere in the lines; a number that is too large is asked for again -/
  dialogue : ∀ {σ : Type} [Sink σ] (questions : σ), Willing questions →
    ∀ (yes steps yes' cells : List Char) (large large' : List (List Char)) (bs mid rest : List UInt8),
      squeeze yes = ['y'] → squeeze yes' = ['y'] → Count.Writes n (squeeze steps) →
      Count.Writes m.1 (squeeze cells) → (∀ l ∈ large, TooLarge l) → (∀ l ∈ large', TooLarge l) →
      Typed (yes :: (large ++ [steps])) bs mid → Typed (yes' :: (large' ++ [cells])) mid rest →
        complete .unset questions (byteLines bs) =
          ⟨byteLines rest, callAll questions (callsOf
            (Question.steps.choice :: Question.steps.entry ::
                (large.map fun _ => "Please enter a non-negative number") ++
              Question.cells.choice :: Question.cells.entry ::
                large'.map fun _ => "Please enter a non-negative number")), .ok ⟨some n, some m⟩⟩

/-- a number of 2^64 or more sets nothing where nobody can be asked -/
structure TooLargeIgnored (n : Nat) : Prop where
  steps_environment : ∀ (env : Environment) (v : List Char), Count.Writes n v → env.Holds "BF_MAX_STEPS" v →
    (Settings.fromEnvironment env).value.steps = none
  cells_environment : ∀ (env : Environment) (v : List Char), Count.Writes n v → env.Holds "BF_MEMORY_SIZE" v →
    (Settings.fromEnvironment env).value.cells = none
  file : ∀ (text : List Char) (body : List (List Char)), Holds body text → (∀ l ∈ body, Noise l ∨
    ∃ v, Count.Writes n v ∧ (Assigns "max_steps".toList v l ∨ Assigns "memory_size".toList v l)) →
      ConfigFile.limits text = .unset

theorem enteredAlike {n m : Nat} (hn : n < Count.bound) (hm : 0 < m) (hm' : m < Count.bound) :
    EnteredAlike n ⟨m, hm⟩ := by
  constructor
  case options =>
    intro σ _ o reader program input htexts hsteps hcells fallback answers questions
    have hown : o.limits = .ok ⟨some n, some ⟨m, hm⟩⟩ := by
      simp only [Options.limits, hsteps, hcells, CellCount.ofNat?, dif_pos hm]
    have hprepare : o.prepare reader fallback =
        .ok ⟨program, input, ⟨some n, some ⟨m, hm⟩⟩, if o.debug then .table else .output⟩ := by
      rw [Options.prepare, htexts, hown]
      rfl
    rw [Options.request_eq hprepare, complete_known (Option.some_ne_none _) (Option.some_ne_none _)]
    split_ifs <;> rfl
  case environment =>
    intro env v w hv hw hsteps hcells
    have h := Settings.value_of_holds hsteps hv Count.parse?
    have h' := Settings.value_of_holds hcells hw cellCount?
    rw [hv.parse?_eq, if_pos hn] at h
    rw [cellCount?_of_writes hw, if_pos hm', CellCount.ofNat?_val] at h'
    exact congrArg₂ Limits.mk h h'
  case file =>
    rintro text body hholds hbody hsteps hcells
    refine limits_of_holds hholds hbody ?_ ?_
    · rintro _ ⟨⟩
      exact ⟨hn, hsteps⟩
    · rintro _ ⟨⟩
      exact ⟨hm', hcells⟩
  case dialogue =>
    intro σ _ questions hwilling yes steps yes' cells large large' bs mid rest hyes hyes' hsteps hcells hlarge hlarge'
      hbs hmid
    have hfirst := settles_of_typed .steps hbs hyes hlarge hsteps hn fun _ => rfl
    have hsecond := settles_of_typed .cells hmid hyes' hlarge' hcells hm' fun h => absurd h (Nat.ne_of_gt hm)
    exact complete_of_supplied hwilling (.typed rfl hfirst) (.typed rfl hsecond)

theorem tooLargeIgnored {k : Nat} (hk : Count.bound ≤ k) : TooLargeIgnored k := by
  constructor
  case steps_environment =>
    intro env v hv hholds
    have h := Settings.value_of_holds hholds hv Count.parse?
    rwa [hv.parse?_eq, if_neg (Nat.not_lt.2 hk)] at h
  case cells_environment =>
    intro env v hv hholds
    have h := Settings.value_of_holds hholds hv cellCount?
    rwa [cellCount?_of_writes hv, if_neg (Nat.not_lt.2 hk)] at h
  case file =>
    intro text body hholds hbody
    have hallowed : ∀ l ∈ body, Allowed none none l := by
      intro l hl
      rcases hbody l hl with hnoise | ⟨v, hv, hassigns | hassigns⟩
      · exact Or.inl hnoise
      · exact Or.inr (Or.inl ⟨k, v, hassigns, hv, Or.inr hk⟩)
      · exact Or.inr (Or.inr ⟨k, v, hassigns, hv, Or.inr hk⟩)
    exact limits_of_holds hholds hallowed (by rintro _ ⟨⟩) (by rintro _ ⟨⟩)

/-- **The four ways to enter a limit agree**, and a number that is too large is refused by all that read text. -/
theorem limits_entered_alike {n m : Nat} (hn : n < Count.bound) (hm : 0 < m) (hm' : m < Count.bound) :
    EnteredAlike n ⟨m, hm⟩ ∧ ∀ k, Count.bound ≤ k → TooLargeIgnored k :=
  ⟨enteredAlike hn hm hm', fun _ hk => tooLargeIgnored hk⟩

/-- the lines of a section: an assignment in quotes, an unknown key, a bare assignment -/
def sectionLines : List (List Char) := [" max_steps =\t\"+007\" ".toList, "other = 3".toList, "memory_size=16".toList]

/-- a config file with such a section between two others -/
def threeSections : List Char :=
  "# all of them\n[colors]\nmax_steps = 1\n[limits]\n max_steps =\t\"+007\" \nother = 3\nmemory_size=16\n[end]\n".toList

/-- seven steps and sixteen cells, entered in any way and so also through this file -/
theorem limits_entered_alike_three_sections :
    7 < Count.bound ∧ 0 < 16 ∧ 16 < Count.bound ∧ EnteredAlike 7 ⟨16, by decide⟩ ∧ Holds sectionLines threeSections ∧
      ConfigFile.limits threeSections = ⟨some 7, some ⟨16, by decide⟩⟩ := by
  have hn : 7 < Count.bound := by decide
  have hm : 16 < Count.bound := by decide
  have halike : EnteredAlike 7 ⟨16, by decide⟩ := (limits_entered_alike hn (by decide) hm).1
  have hseven : Count.Writes 7 "+007".toList := .signed 2
  have hsixteen : Count.Writes 16 "16".toList := .plain 0
  have hsteps : Assigns "max_steps".toList "+007".toList " max_steps =\t\"+007\" ".toList :=
    .quoted (a := [' ']) (b := [' ']) (c := ['\t']) (d := [' ']) (by decide) (by decide) (by decide) (by decide)
  have hcells : Assigns "memory_size".toList "16".toList "memory_size=16".toList :=
    .bare (a := []) (b := []) (c := []) (d := []) (by decide) (by decide) (by decide) (by decide)
  have hword : Word "other".toList := ⟨by decide, by decide, by decide, by decide, by decide⟩
  have hother : Noise "other = 3".toList :=
    .unknown (a := []) (b := [' ']) (by decide) hword (by decide) (by decide) (by decide) " 3".toList
  have hholds : Holds sectionLines threeSections :=
    ⟨["# all of them".toList, "[colors]".toList, "max_steps = 1".toList], "[limits]".toList, ["[end]".toList],
      by decide, by decide, by decide, Or.inr ⟨"end".toList, "[end]".toList, [], rfl, by decide, by decide,
        List.forall_mem_nil _⟩⟩
  refine ⟨hn, by decide, hm, halike, hholds, halike.file threeSections sectionLines hholds ?_ ?_ ?_⟩
  · intro l hl
    rw [sectionLines, List.mem_cons, List.mem_cons, List.mem_singleton] at hl
    rcases hl with rfl | rfl | rfl
    · exact Or.inr (Or.inl ⟨7, _, hsteps, hseven, Or.inl rfl⟩)
    · exact Or.inl hother
    · exact Or.inr (Or.inr ⟨16, _, hcells, hsixteen, Or.inl rfl⟩)
  · exact ⟨_, List.mem_cons_self, _, hsteps, hseven⟩
  · exact ⟨_, List.mem_cons_of_mem _ (List.mem_cons_of_mem _ List.mem_cons_self), _, hcells, hsixteen⟩

end Brainfuck
