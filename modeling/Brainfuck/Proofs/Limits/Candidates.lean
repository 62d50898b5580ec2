/-
Which lines of a config file count. A candidate is a line of the section that assigns a value to a key: the last header
before it is the section's, and it is neither blank nor a comment nor a header itself (`Candidate`). All is said of the
lines as they stand, each up to its place only, so that the reader is followed line by line: what it has read of some
lines and one more is told by what it has read of those lines and by that one (the lemmas named `snoc`).

Main statement: `last_accepted_candidate_counts`, for every text.
-/
import Mathlib.Tactic
import Brainfuck.Proofs.Limits.Section

namespace Brainfuck

namespace ConfigFile

/-! ## Lines that count -/

/-- the lines of a text, blanks around them dropped -/
def trimmedLines (text : List Char) : List (List Char) := (Text.lines text).map Text.trim

/-- behind these lines the section that counts is open: the last header among them is its own -/
def InSection (ls : List (List Char)) : Prop := (ls.filter IsHeader).getLast? = some title

instance (ls : List (List Char)) : Decidable (InSection ls) := inferInstanceAs (Decidable (_ = _))

/-- a text and what is left of it without the pair of double quotes around it; one quote is no pair -/
inductive Unquotes : List Char → List Char → Prop where
  | quoted (value : List Char) : Unquotes ('"' :: (value ++ ['"'])) value
  | bare {value : List Char} (h : ∀ inner, value ≠ '"' :: (inner ++ ['"'])) : Unquotes value value

/-- a line that assigns a value to a key: the key stands before the first equals sign -/
structure Assignment (l key value : List Char) : Prop where
  ne_nil : l ≠ []
  noComment : l.head? ≠ some '#'
  noHeader : ¬ IsHeader l
  parts : ∃ before after, l = before ++ '=' :: after ∧ '=' ∉ before ∧ Text.trim before = key ∧
    Unquotes (Text.trim after) value

/-- line `k` assigns a value to a key inside the section that counts -/
structure Candidate (ls : List (List Char)) (k : Nat) (key value : List Char) : Prop where
  line : ∃ l, ls[k]? = some l ∧ Assignment l key value
  inSection : InSection (ls.take k)

/-- the keys of the two limits -/
def IsKey (key : List Char) : Prop := key = stepsKey ∨ key = cellsKey

instance (key : List Char) : Decidable (IsKey key) := inferInstanceAs (Decidable (_ ∨ _))

/-- a value is a count that the key takes: any count of steps, and of cells one that is not zero -/
def Accepts (key value : List Char) (n : Nat) : Prop := Count.parse? value = some n ∧ (key = cellsKey → 1 ≤ n)

/-- the last candidate for the key whose value is accepted has the value `n` -/
def LastAccepted (ls : List (List Char)) (key : List Char) (n : Nat) : Prop :=
  ∃ k value, Candidate ls k key value ∧ Accepts key value n ∧
    ∀ k' value', k < k' → Candidate ls k' key value' → ∀ n', ¬ Accepts key value' n'

/-- line `k` is a candidate for a limit whose value is not accepted -/
structure Rejected (ls : List (List Char)) (k : Nat) (key value : List Char) : Prop where
  candidate : Candidate ls k key value
  isKey : IsKey key
  unaccepted : ∀ n, ¬ Accepts key value n

/-- the lines of which something holds, in their order, each with its key and its value -/
structure Listed (P : Nat → List Char → List Char → Prop) (cs : List (Nat × List Char × List Char)) : Prop where
  ordered : cs.Pairwise fun c d => c.1 < d.1
  mem_iff : ∀ k key value, (k, key, value) ∈ cs ↔ P k key value

/-! ## Single lines -/

theorem unquotes_iff {v w : List Char} : Unquotes v w ↔ unquote v = w := by
  constructor
  · rintro (_ | h)
    · rw [unquote, if_pos (enclosed_iff.2 ⟨w, rfl⟩), inside_enclosed]
    · rw [unquote, if_neg]
      intro hquotes
      obtain ⟨inner, hv⟩ := enclosed_iff.1 hquotes
      exact h inner hv
  · rintro rfl
    by_cases h : v.head? = some '"' ∧ v.getLast? = some '"' ∧ 2 ≤ v.length
    · obtain ⟨inner, rfl⟩ := enclosed_iff.1 h
      rw [unquote, if_pos h, inside_enclosed]
      exact .quoted inner
    · rw [unquote, if_neg h]
      exact .bare fun inner hv => h (enclosed_iff.2 ⟨inner, hv⟩)

theorem ofTrimmed_of_isHeader {l : List Char} (h : IsHeader l) : ∃ name, Line.ofTrimmed l = .header name ∧
    (name = sectionName ↔ l = title) := by
  obtain ⟨name, rfl⟩ := isHeader_iff.1 h
  refine ⟨name, ?_, ?_⟩
  · exact ofTrimmed_header name
  · simp [title]

theorem ofTrimmed_eq_setting_iff {l key value : List Char} :
    Line.ofTrimmed l = .setting key value ↔ Assignment l key value := by
  constructor
  · intro h
    rw [Line.ofTrimmed] at h
    split_ifs at h with hidle hheader hequals
    obtain ⟨rfl, rfl⟩ := Line.setting.inj h
    rw [not_or] at hidle
    obtain ⟨hl, hbefore⟩ := split_iff.2 ⟨hequals, rfl, rfl⟩
    exact ⟨hidle.1, hidle.2, hheader, _, _, hl, hbefore, rfl, unquotes_iff.2 rfl⟩
  · rintro ⟨hne, hcomment, hheader, before, after, hl, hbefore, rfl, hvalue⟩
    have hbrackets : ¬ (l.head? = some '[' ∧ l.getLast? = some ']') := hheader
    obtain ⟨hequals, hkey, hafter⟩ := split_iff.1 ⟨hl, hbefore⟩
    rw [Line.ofTrimmed, if_neg (not_or.2 ⟨hne, hcomment⟩), if_neg hbrackets, if_pos hequals, hkey, hafter,
      unquotes_iff.1 hvalue]

theorem ofTrimmed_of_not_isHeader {l : List Char} (h : ¬ IsHeader l) :
    Line.ofTrimmed l = .idle ∨ ∃ key value, Line.ofTrimmed l = .setting key value := by
  rw [Line.ofTrimmed]
  split_ifs with _ hheader
  · exact Or.inl rfl
  · exact absurd hheader h
  · exact Or.inr ⟨_, _, rfl⟩
  · exact Or.inl rfl

theorem assignment_iff {l key value key' value' : List Char} (h : Line.ofTrimmed l = .setting key value) :
    Assignment l key' value' ↔ key' = key ∧ value' = value := by
  rw [← ofTrimmed_eq_setting_iff, h, Line.setting.injEq, eq_comm, @eq_comm _ value]

theorem not_assignment_of_idle {l key value : List Char} (h : Line.ofTrimmed l = .idle) : ¬ Assignment l key value := by
  rw [← ofTrimmed_eq_setting_iff, h]
  simp

/-! ## One line more -/

section Snoc

variable {ls : List (List Char)} {l key value : List Char} {k n : Nat}

theorem inSection_snoc_of_isHeader (h : IsHeader l) : InSection (ls ++ [l]) ↔ l = title := by
  rw [InSection, List.filter_append, List.filter_cons_of_pos (by simpa using h), List.filter_nil, List.getLast?_concat,
    Option.some.injEq]

theorem inSection_snoc_of_not_isHeader (h : ¬ IsHeader l) : InSection (ls ++ [l]) ↔ InSection ls := by
  rw [InSection, List.filter_append, List.filter_cons_of_neg (by simpa using h), List.filter_nil, List.append_nil,
    InSection]

theorem Candidate.lt_length (h : Candidate ls k key value) : k < ls.length := by
  obtain ⟨l, hl, -⟩ := h.line
  exact (List.getElem?_eq_some_iff.1 hl).1

theorem candidate_snoc : Candidate (ls ++ [l]) k key value ↔
    Candidate ls k key value ∨ k = ls.length ∧ InSection ls ∧ Assignment l key value := by
  constructor
  · intro h
    have hle : k ≤ ls.length := by
      have hlt := h.lt_length
      rw [List.length_append, List.length_singleton] at hlt
      omega
    obtain ⟨⟨l', hl', hassigns⟩, hin⟩ := h
    rw [List.take_append_of_le_length hle] at hin
    rcases Nat.lt_or_eq_of_le hle with hlt | rfl
    · rw [List.getElem?_append_left hlt] at hl'
      exact Or.inl ⟨⟨l', hl', hassigns⟩, hin⟩
    · rw [List.getElem?_concat_length] at hl'
      rw [List.take_length] at hin
      cases hl'
      exact Or.inr ⟨rfl, hin, hassigns⟩
  · rintro (h | ⟨rfl, hin, hassigns⟩)
    · obtain ⟨⟨l', hl', hassigns⟩, hin⟩ := h
      have hlt := (List.getElem?_eq_some_iff.1 hl').1
      refine ⟨⟨l', ?_, hassigns⟩, ?_⟩
      · rwa [List.getElem?_append_left hlt]
      · rwa [List.take_append_of_le_length hlt.le]
    · refine ⟨⟨l, List.getElem?_concat_length, hassigns⟩, ?_⟩
      rwa [List.take_append_of_le_length le_rfl, List.take_length]

/-- behind the lines `ls` the line `l` gives the key the value `n` -/
def Gives (ls : List (List Char)) (l key : List Char) (n : Nat) : Prop :=
  InSection ls ∧ ∃ value, Assignment l key value ∧ Accepts key value n

/-- the last accepted candidate is the new line, or the one before, where the new line is none -/
theorem lastAccepted_snoc : LastAccepted (ls ++ [l]) key n ↔
    Gives ls l key n ∨ LastAccepted ls key n ∧ ∀ m, ¬ Gives ls l key m := by
  constructor
  · rintro ⟨k, value, hcandidate, haccepts, hlast⟩
    rcases candidate_snoc.1 hcandidate with hbefore | ⟨rfl, hin, hassigns⟩
    · refine Or.inr ⟨⟨k, value, hbefore, haccepts, ?_⟩, ?_⟩
      · intro k' value' hk hcandidate'
        exact hlast k' value' hk (candidate_snoc.2 (Or.inl hcandidate'))
      · rintro m ⟨hin, value', hassigns, haccepts'⟩
        exact hlast ls.length value' hbefore.lt_length (candidate_snoc.2 (Or.inr ⟨rfl, hin, hassigns⟩)) m haccepts'
    · exact Or.inl ⟨hin, value, hassigns, haccepts⟩
  · rintro (⟨hin, value, hassigns, haccepts⟩ | ⟨⟨k, value, hcandidate, haccepts, hlast⟩, hnew⟩)
    · refine ⟨ls.length, value, candidate_snoc.2 (Or.inr ⟨rfl, hin, hassigns⟩), haccepts, ?_⟩
      intro k' value' hk hcandidate'
      have hlt := hcandidate'.lt_length
      rw [List.length_append, List.length_singleton] at hlt
      omega
    · refine ⟨k, value, candidate_snoc.2 (Or.inl hcandidate), haccepts, ?_⟩
      intro k' value' hk hcandidate' m haccepts'
      rcases candidate_snoc.1 hcandidate' with hbefore | ⟨-, hin, hassigns⟩
      · exact hlast k' value' hk hbefore m haccepts'
      · exact hnew m ⟨hin, value', hassigns, haccepts'⟩

theorem exists_lastAccepted (hcandidate : Candidate ls k key value) (haccepts : Accepts key value n) :
    ∃ m, LastAccepted ls key m := by
  induction ls using List.reverseRecOn generalizing k value n with
  | nil => exact absurd hcandidate.lt_length (Nat.not_lt_zero k)
  | append_singleton ls l ih =>
    by_cases hnew : ∃ m, Gives ls l key m
    · obtain ⟨m, hgives⟩ := hnew
      exact ⟨m, lastAccepted_snoc.2 (Or.inl hgives)⟩
    · rcases candidate_snoc.1 hcandidate with hbefore | ⟨-, hin, hassigns⟩
      · obtain ⟨m, hlast⟩ := ih hbefore haccepts
        exact ⟨m, lastAccepted_snoc.2 (Or.inr ⟨hlast, not_exists.1 hnew⟩)⟩
      · exact absurd ⟨n, hin, value, hassigns, haccepts⟩ hnew

end Snoc

/-! ## What the reader holds -/

/-- what is read of lines whose blanks are already dropped -/
def readTrimmed (ls : List (List Char)) : Reading := (ls.map Line.ofTrimmed).foldl Reading.next {}

/-- the limit that belongs to a key -/
def limitFor (key : List Char) (limits : Limits) : Option Nat :=
  if key = cellsKey then limits.cells.map Subtype.val else limits.steps

/-- the count that a key takes from a value -/
def accepted? (key value : List Char) : Option Nat :=
  if key = cellsKey then (cellCount? value).map Subtype.val else Count.parse? value

/-- the note about a setting whose value is not accepted -/
def complaint (key value : List Char) : Event := .settingIgnored (String.ofList key) (String.ofList value)

theorem limits_ext {a b : Limits} (h : ∀ key, IsKey key → limitFor key a = limitFor key b) : a = b := by
  have hsteps := h stepsKey (Or.inl rfl)
  have hcells := h cellsKey (Or.inr rfl)
  rw [limitFor, limitFor, if_neg stepsKey_ne_cellsKey, if_neg stepsKey_ne_cellsKey] at hsteps
  rw [limitFor, limitFor, if_pos rfl, if_pos rfl] at hcells
  obtain ⟨steps, cells⟩ := a
  obtain ⟨steps', cells'⟩ := b
  rw [Limits.mk.injEq]
  exact ⟨hsteps, Option.map_injective Subtype.val_injective hcells⟩

theorem accepted?_eq_some_iff {key value : List Char} {n : Nat} :
    accepted? key value = some n ↔ Accepts key value n := by
  rw [accepted?, Accepts]
  split_ifs with hcells
  · rw [cellCount?]
    cases Count.parse? value with
    | none => simp
    | some m =>
      rw [Option.bind_some, CellCount.ofNat?]
      split_ifs with hpos
      · simp only [Option.map_some, Option.some.injEq, hcells, forall_const]
        omega
      · simp only [Option.map_none, reduceCtorEq, Option.some.injEq, hcells, forall_const, false_iff]
        omega
  · simp [hcells]

theorem read_eq (text : List Char) : read text = readTrimmed (trimmedLines text) := by
  rw [read, readTrimmed, trimmedLines, List.map_map]
  rfl

theorem readTrimmed_snoc (ls : List (List Char)) (l : List Char) :
    readTrimmed (ls ++ [l]) = (readTrimmed ls).next (.ofTrimmed l) := by
  rw [readTrimmed, List.map_append, List.foldl_append]
  rfl

theorem limitFor_set {key : List Char} (hkey : IsKey key) (r : Reading) (key' value : List Char) :
    limitFor key (r.set key' value).limits =
      (if key' = key then accepted? key value else none).or (limitFor key r.limits) := by
  rw [Reading.limits_set]
  rcases hkey with rfl | rfl
  · simp only [limitFor, accepted?, if_neg stepsKey_ne_cellsKey]
  · simp only [limitFor, accepted?, if_true, Option.map_or]
    split_ifs <;> rfl

/-- what one setting adds to the notes -/
theorem ignored_set (r : Reading) (key value : List Char) :
    (r.set key value).ignored =
      if IsKey key ∧ accepted? key value = none then complaint key value :: r.ignored else r.ignored := by
  by_cases hsteps : key = stepsKey
  · have hset : key = "max_steps".toList := hsteps
    have hcells : key ≠ cellsKey := hsteps ▸ stepsKey_ne_cellsKey
    simp only [Reading.set, if_pos hset, accepted?, if_neg hcells, show IsKey key from Or.inl hsteps, true_and]
    cases Count.parse? value <;> rfl
  · have hskip : key ≠ "max_steps".toList := hsteps
    by_cases hcells : key = cellsKey
    · have hset : key = "memory_size".toList := hcells
      simp only [Reading.set, if_neg hskip, if_pos hset, accepted?, if_pos hcells, show IsKey key from Or.inr hcells,
        true_and]
      cases cellCount? value <;> rfl
    · have hskip' : key ≠ "memory_size".toList := hcells
      have hkey : ¬ IsKey key := not_or.2 ⟨hsteps, hcells⟩
      simp only [Reading.set, if_neg hskip, if_neg hskip', hkey, false_and, if_false]

theorem next_of_isHeader {ls : List (List Char)} {l : List Char} (h : IsHeader l) :
    readTrimmed (ls ++ [l]) = { readTrimmed ls with inSection := l = title } := by
  obtain ⟨name, hl, hname⟩ := ofTrimmed_of_isHeader h
  rw [readTrimmed_snoc, hl, Reading.next]
  simp only [hname]

/-- **The section is open where the last header is its own.** -/
theorem inSection_readTrimmed (ls : List (List Char)) : (readTrimmed ls).inSection = decide (InSection ls) := by
  induction ls using List.reverseRecOn with
  | nil => rfl
  | append_singleton ls l ih =>
    by_cases h : IsHeader l
    · rw [next_of_isHeader h]
      simp only [inSection_snoc_of_isHeader h]
    · have hsame : (readTrimmed (ls ++ [l])).inSection = (readTrimmed ls).inSection := by
        rw [readTrimmed_snoc]
        rcases ofTrimmed_of_not_isHeader h with hl | ⟨key, value, hl⟩
        · rw [hl, Reading.next]
        · rw [hl, Reading.next]
          split_ifs
          · exact Reading.inSection_set _ _ _
          · rfl
      rw [hsame, ih]
      simp only [inSection_snoc_of_not_isHeader h]

/-- one line more is set where it is an assignment inside the section; any other leaves the limits and the notes -/
theorem readTrimmed_snoc_cases (ls : List (List Char)) (l : List Char) :
    (∃ key value, InSection ls ∧ Line.ofTrimmed l = .setting key value ∧
        readTrimmed (ls ++ [l]) = (readTrimmed ls).set key value) ∨
      ((∀ key value, InSection ls → ¬ Assignment l key value) ∧
        (readTrimmed (ls ++ [l])).limits = (readTrimmed ls).limits ∧
          (readTrimmed (ls ++ [l])).ignored = (readTrimmed ls).ignored) := by
  by_cases h : IsHeader l
  · rw [next_of_isHeader h]
    exact Or.inr ⟨fun _ _ _ hassigns => hassigns.noHeader h, rfl, rfl⟩
  · rw [readTrimmed_snoc]
    rcases ofTrimmed_of_not_isHeader h with hl | ⟨key, value, hl⟩
    · rw [hl]
      exact Or.inr ⟨fun _ _ _ => not_assignment_of_idle hl, rfl, rfl⟩
    · rw [hl, Reading.next, inSection_readTrimmed]
      by_cases hin : InSection ls
      · exact Or.inl ⟨key, value, hin, rfl, if_pos (decide_eq_true hin)⟩
      · rw [decide_eq_false hin]
        exact Or.inr ⟨fun _ _ hin' => absurd hin' hin, rfl, rfl⟩

/-- **One line more replaces a limit by the value that it gives**, and leaves it where it gives none. -/
theorem limitFor_snoc {key : List Char} (hkey : IsKey key) (ls : List (List Char)) (l : List Char) :
    ∃ new : Option Nat, (∀ n, Gives ls l key n ↔ new = some n) ∧
      limitFor key (readTrimmed (ls ++ [l])).limits = new.or (limitFor key (readTrimmed ls).limits) := by
  rcases readTrimmed_snoc_cases ls l with ⟨key', value, hin, hl, hread⟩ | ⟨hnone, hlimits, -⟩
  · refine ⟨if key' = key then accepted? key value else none, fun n => ?_, by rw [hread, limitFor_set hkey]⟩
    split_ifs with hsame
    · subst hsame
      rw [accepted?_eq_some_iff]
      constructor
      · rintro ⟨-, value', hassigns, haccepts⟩
        obtain ⟨-, rfl⟩ := (assignment_iff hl).1 hassigns
        exact haccepts
      · intro haccepts
        exact ⟨hin, value, (assignment_iff hl).2 ⟨rfl, rfl⟩, haccepts⟩
    · refine iff_of_false ?_ (by simp)
      rintro ⟨-, value', hassigns, -⟩
      exact hsame ((assignment_iff hl).1 hassigns).1.symm
  · refine ⟨none, fun n => iff_of_false ?_ (by simp), by rw [hlimits, Option.none_or]⟩
    rintro ⟨hin, value, hassigns, -⟩
    exact hnone key value hin hassigns

/-- **The limit of a key is the value of its last accepted candidate.** -/
theorem limitFor_readTrimmed {key : List Char} (hkey : IsKey key) (ls : List (List Char)) (n : Nat) :
    limitFor key (readTrimmed ls).limits = some n ↔ LastAccepted ls key n := by
  induction ls using List.reverseRecOn generalizing n with
  | nil =>
    have hnone : limitFor key (readTrimmed []).limits = none := by
      rw [limitFor]
      split_ifs <;> rfl
    rw [hnone]
    refine iff_of_false (by simp) ?_
    rintro ⟨k, value, hcandidate, -⟩
    exact absurd hcandidate.lt_length (Nat.not_lt_zero k)
  | append_singleton ls l ih =>
    obtain ⟨new, hgives, hlimit⟩ := limitFor_snoc hkey ls l
    have hnone : (∀ m, ¬ Gives ls l key m) ↔ new = none := by
      simp only [hgives, ← Option.eq_none_iff_forall_ne_some]
    rw [lastAccepted_snoc, hgives, hnone, hlimit, Option.or_eq_some_iff, ih, and_comm]

/-- a limit is unset where no candidate for it is accepted -/
theorem limitFor_readTrimmed_eq_none {key : List Char} (hkey : IsKey key) (ls : List (List Char)) :
    limitFor key (readTrimmed ls).limits = none ↔
      ∀ k value, Candidate ls k key value → ∀ n, ¬ Accepts key value n := by
  simp only [Option.eq_none_iff_forall_ne_some, ne_eq, limitFor_readTrimmed hkey]
  constructor
  · intro hnone k value hcandidate n haccepts
    obtain ⟨m, hlast⟩ := exists_lastAccepted hcandidate haccepts
    exact hnone m hlast
  · rintro hnone n ⟨k, value, hcandidate, haccepts, -⟩
    exact hnone k value hcandidate n haccepts

/-- a line that gives neither limit a value leaves both as they are -/
theorem limits_snoc_of_not_gives {ls : List (List Char)} {l : List Char}
    (h : ∀ key, IsKey key → ∀ n, ¬ Gives ls l key n) : (readTrimmed (ls ++ [l])).limits = (readTrimmed ls).limits := by
  refine limits_ext fun key hkey => ?_
  obtain ⟨new, hgives, hlimit⟩ := limitFor_snoc hkey ls l
  have hnone : new = none := Option.eq_none_iff_forall_ne_some.2 fun n hn => h key hkey n ((hgives n).2 hn)
  rw [hlimit, hnone, Option.none_or]

/-! ## What is noted -/

namespace Listed

variable {P Q : Nat → List Char → List Char → Prop} {cs ds : List (Nat × List Char × List Char)}

theorem unique (h : Listed P cs) (h' : Listed P ds) : cs = ds := by
  have hdistinct : ∀ {es : List (Nat × List Char × List Char)}, Listed P es → es.Nodup := by
    intro es hes
    refine hes.ordered.imp fun hlt heq => ?_
    exact absurd (congrArg Prod.fst heq) (Nat.ne_of_lt hlt)
  refine List.Perm.eq_of_pairwise (fun c d _ _ hcd hdc => absurd hdc (Nat.lt_asymm hcd)) h.ordered h'.ordered ?_
  refine (List.perm_ext_iff_of_nodup (hdistinct h) (hdistinct h')).2 ?_
  rintro ⟨k, key, value⟩
  rw [h.mem_iff, h'.mem_iff]

theorem map {f : Nat → Nat} (h : Listed P cs) (hf : StrictMono f)
    (hQ : ∀ k' key value, Q k' key value ↔ ∃ k, f k = k' ∧ P k key value) :
    Listed Q (cs.map fun c => (f c.1, c.2)) where
  ordered := by
    rw [List.pairwise_map]
    exact h.ordered.imp fun hlt => hf hlt
  mem_iff k' key value := by
    rw [hQ, List.mem_map]
    constructor
    · rintro ⟨⟨k, key', value'⟩, hmem, heq⟩
      cases heq
      exact ⟨k, rfl, (h.mem_iff _ _ _).1 hmem⟩
    · rintro ⟨k, rfl, hP⟩
      exact ⟨(k, key, value), (h.mem_iff _ _ _).2 hP, rfl⟩

theorem snoc {k : Nat} {key value : List Char} (h : Listed P cs) (hlast : ∀ k' key' value', P k' key' value' → k' < k)
    (hQ : ∀ k' key' value', Q k' key' value' ↔ P k' key' value' ∨ k' = k ∧ key' = key ∧ value' = value) :
    Listed Q (cs ++ [(k, key, value)]) where
  ordered := by
    refine List.pairwise_append.2 ⟨h.ordered, List.pairwise_singleton _ _, ?_⟩
    rintro ⟨k', key', value'⟩ hmem d hd
    rw [List.mem_singleton.1 hd]
    exact hlast k' key' value' ((h.mem_iff _ _ _).1 hmem)
  mem_iff k' key' value' := by
    rw [hQ, List.mem_append, h.mem_iff, List.mem_singleton, Prod.mk.injEq, Prod.mk.injEq]

end Listed

section Rejection

variable {ls : List (List Char)} {l key value : List Char} {cs : List (Nat × List Char × List Char)}

/-- behind `ls` the line `l` is rejected -/
def Refuses (ls : List (List Char)) (l key value : List Char) : Prop :=
  InSection ls ∧ Assignment l key value ∧ IsKey key ∧ ∀ n, ¬ Accepts key value n

theorem rejected_snoc {k : Nat} :
    Rejected (ls ++ [l]) k key value ↔ Rejected ls k key value ∨ k = ls.length ∧ Refuses ls l key value := by
  constructor
  · rintro ⟨hcandidate, hkey, hunaccepted⟩
    rcases candidate_snoc.1 hcandidate with hbefore | ⟨hk, hin, hassigns⟩
    · exact Or.inl ⟨hbefore, hkey, hunaccepted⟩
    · exact Or.inr ⟨hk, hin, hassigns, hkey, hunaccepted⟩
  · rintro (⟨hbefore, hkey, hunaccepted⟩ | ⟨hk, hin, hassigns, hkey, hunaccepted⟩)
    · exact ⟨candidate_snoc.2 (Or.inl hbefore), hkey, hunaccepted⟩
    · exact ⟨candidate_snoc.2 (Or.inr ⟨hk, hin, hassigns⟩), hkey, hunaccepted⟩

theorem Listed.snoc_kept (h : Listed (Rejected ls) cs) (hnew : ∀ key value, ¬ Refuses ls l key value) :
    Listed (Rejected (ls ++ [l])) cs := by
  refine ⟨h.ordered, fun k key value => ?_⟩
  rw [h.mem_iff, rejected_snoc, iff_self_or]
  exact fun hrefuses => absurd hrefuses.2 (hnew key value)

theorem Listed.snoc_refused (h : Listed (Rejected ls) cs) (hnew : Refuses ls l key value) :
    Listed (Rejected (ls ++ [l])) (cs ++ [(ls.length, key, value)]) := by
  refine h.snoc (fun k _ _ hrejected => hrejected.candidate.lt_length) fun k key' value' => ?_
  have hl : Line.ofTrimmed l = .setting key value := ofTrimmed_eq_setting_iff.2 hnew.2.1
  rw [rejected_snoc]
  refine or_congr_right (and_congr_right fun _ => ?_)
  constructor
  · rintro ⟨-, hassigns, -⟩
    exact (assignment_iff hl).1 hassigns
  · rintro ⟨rfl, rfl⟩
    exact hnew

end Rejection

/-- **Each rejected line is noted once, in line order**, and nothing else is. -/
theorem ignored_readTrimmed (ls : List (List Char)) : ∃ cs, Listed (Rejected ls) cs ∧
    (readTrimmed ls).ignored.reverse = cs.map fun c => complaint c.2.1 c.2.2 := by
  induction ls using List.reverseRecOn with
  | nil =>
    refine ⟨[], ⟨List.Pairwise.nil, fun k key value => iff_of_false List.not_mem_nil ?_⟩, rfl⟩
    rintro ⟨hcandidate, -⟩
    exact absurd hcandidate.lt_length (Nat.not_lt_zero k)
  | append_singleton ls l ih =>
    obtain ⟨cs, hlisted, hnotes⟩ := ih
    rcases readTrimmed_snoc_cases ls l with ⟨key, value, hin, hl, hread⟩ | ⟨hnone, -, hignored⟩
    · have hassigns : Assignment l key value := ofTrimmed_eq_setting_iff.1 hl
      rw [hread, ignored_set]
      split_ifs with hrejected
      · obtain ⟨hkey, hunread⟩ := hrejected
        have hunaccepted : ∀ n, ¬ Accepts key value n := by
          intro n haccepts
          rw [accepted?_eq_some_iff.2 haccepts] at hunread
          cases hunread
        refine ⟨_, hlisted.snoc_refused ⟨hin, hassigns, hkey, hunaccepted⟩, ?_⟩
        rw [List.reverse_cons, hnotes, List.map_append]
        rfl
      · refine ⟨cs, hlisted.snoc_kept ?_, hnotes⟩
        rintro key' value' ⟨-, hassigns', hkey, hunaccepted⟩
        obtain ⟨rfl, rfl⟩ := (assignment_iff hl).1 hassigns'
        obtain ⟨n, hn⟩ := Option.ne_none_iff_exists'.1 fun hunread => hrejected ⟨hkey, hunread⟩
        exact hunaccepted n (accepted?_eq_some_iff.1 hn)
    · refine ⟨cs, hlisted.snoc_kept ?_, ?_⟩
      · rintro key value ⟨hin, hassigns, -⟩
        exact hnone key value hin hassigns
      · rw [hignored]
        exact hnotes

/-! ## No other line counts -/

/-- the candidates for the two limits among some lines are those among others, moved without changing their order -/
structure Carries (f : Nat → Nat) (ls ls' : List (List Char)) : Prop where
  mono : StrictMono f
  candidate_iff : ∀ k' key value, IsKey key → (Candidate ls' k' key value ↔ ∃ k, f k = k' ∧ Candidate ls k key value)

namespace Carries

variable {f : Nat → Nat} {ls ls' : List (List Char)}

theorem lastAccepted (h : Carries f ls ls') {key : List Char} (hkey : IsKey key) (n : Nat) :
    LastAccepted ls' key n ↔ LastAccepted ls key n := by
  constructor
  · rintro ⟨k', value, hcandidate, haccepts, hlast⟩
    obtain ⟨k, rfl, hbefore⟩ := (h.candidate_iff _ _ _ hkey).1 hcandidate
    refine ⟨k, value, hbefore, haccepts, fun j value' hlt hlater => ?_⟩
    exact hlast (f j) value' (h.mono hlt) ((h.candidate_iff _ _ _ hkey).2 ⟨j, rfl, hlater⟩)
  · rintro ⟨k, value, hcandidate, haccepts, hlast⟩
    refine ⟨f k, value, (h.candidate_iff _ _ _ hkey).2 ⟨k, rfl, hcandidate⟩, haccepts, fun j' value' hlt hlater => ?_⟩
    obtain ⟨j, rfl, hbefore⟩ := (h.candidate_iff _ _ _ hkey).1 hlater
    exact hlast j value' (h.mono.lt_iff_lt.1 hlt) hbefore

theorem rejected (h : Carries f ls ls') (k' : Nat) (key value : List Char) :
    Rejected ls' k' key value ↔ ∃ k, f k = k' ∧ Rejected ls k key value := by
  constructor
  · rintro ⟨hcandidate, hkey, hunaccepted⟩
    obtain ⟨k, hk, hbefore⟩ := (h.candidate_iff _ _ _ hkey).1 hcandidate
    exact ⟨k, hk, hbefore, hkey, hunaccepted⟩
  · rintro ⟨k, hk, hbefore, hkey, hunaccepted⟩
    exact ⟨(h.candidate_iff _ _ _ hkey).2 ⟨k, hk, hbefore⟩, hkey, hunaccepted⟩

theorem limits (h : Carries f ls ls') : (readTrimmed ls').limits = (readTrimmed ls).limits := by
  refine limits_ext fun key hkey => Option.ext fun n => ?_
  rw [limitFor_readTrimmed hkey, limitFor_readTrimmed hkey, h.lastAccepted hkey]

theorem ignored (h : Carries f ls ls') : (readTrimmed ls').ignored = (readTrimmed ls).ignored := by
  obtain ⟨cs, hlisted, hnotes⟩ := ignored_readTrimmed ls
  obtain ⟨cs', hlisted', hnotes'⟩ := ignored_readTrimmed ls'
  have hmoved : cs' = cs.map fun c => (f c.1, c.2) := hlisted'.unique (hlisted.map h.mono h.rejected)
  have hreverse : (readTrimmed ls').ignored.reverse = (readTrimmed ls).ignored.reverse := by
    rw [hnotes', hnotes, hmoved, List.map_map]
    rfl
  exact List.reverse_injective hreverse

end Carries

/-! ## Slices -/

/-- what stands between the first and the last byte, unless that cuts a character in two -/
def cutInside? (cs : List Char) : Option (List Char) :=
  let last := (Text.encode cs).length - 1
  if 1 ≤ last then Text.byteSlice? cs 1 last else none

/-- `unquote`, with the value cut along bytes -/
def cutQuotes? (cs : List Char) : Option (List Char) :=
  if cs.head? = some '"' ∧ cs.getLast? = some '"' ∧ 2 ≤ (Text.encode cs).length then cutInside? cs else some cs

/-- `Line.ofTrimmed`, with the name of a section and the value cut along bytes -/
def Line.cut? (cs : List Char) : Option Line :=
  if cs = [] ∨ cs.head? = some '#' then some .idle
  else if cs.head? = some '[' ∧ cs.getLast? = some ']' then (cutInside? cs).map .header
  else if '=' ∈ cs then
    (cutQuotes? (Text.trim (cs.dropWhile (· != '=')).tail)).map (.setting (Text.trim (cs.takeWhile (· != '='))))
  else some .idle

theorem cutInside?_enclosed {c d : Char} (hc : (Text.encode [c]).length = 1) (hd : (Text.encode [d]).length = 1)
    (inner : List Char) : cutInside? (c :: (inner ++ [d])) = some inner := by
  have hsplit : c :: (inner ++ [d]) = [c] ++ inner ++ [d] := rfl
  have hslice := Text.byteSlice?_append [c] inner [d]
  have hlast : (Text.encode ([c] ++ inner ++ [d])).length - 1 = 1 + (Text.encode inner).length := by
    rw [Text.encode_append, Text.encode_append, List.length_append, List.length_append, hc, hd, Nat.add_sub_cancel]
  rw [hc] at hslice
  simp only [cutInside?]
  rw [hsplit, hlast, if_pos (Nat.le_add_right _ _), hslice]

theorem cutQuotes?_eq (cs : List Char) : cutQuotes? cs = some (unquote cs) := by
  by_cases h : cs.head? = some '"' ∧ cs.getLast? = some '"' ∧ 2 ≤ cs.length
  · obtain ⟨inner, rfl⟩ := enclosed_iff.1 h
    have hbytes : 2 ≤ (Text.encode ('"' :: (inner ++ ['"']))).length := by
      have hquote : (Text.encode ['"']).length = 1 := by decide
      rw [show '"' :: (inner ++ ['"']) = ['"'] ++ inner ++ ['"'] from rfl, Text.encode_append, Text.encode_append,
        List.length_append, List.length_append, hquote]
      omega
    rw [cutQuotes?, if_pos ⟨h.1, h.2.1, hbytes⟩, unquote, if_pos h, inside_enclosed,
      cutInside?_enclosed (by decide) (by decide)]
  · rw [unquote, if_neg h, cutQuotes?, if_neg]
    rintro ⟨hhead, hlast, hbytes⟩
    refine h ⟨hhead, hlast, ?_⟩
    -- one character alone would be the quote, and that is one byte
    obtain ⟨rest, rfl⟩ := List.head?_eq_some_iff.1 hhead
    cases rest with
    | nil => exact absurd hbytes (by decide)
    | cons c rest => exact Nat.le_add_left 2 rest.length

/-- **No slice fails**: a line is cut along bytes as it is along characters. -/
theorem Line.cut?_eq (cs : List Char) : Line.cut? cs = some (Line.ofTrimmed cs) := by
  rw [Line.cut?, Line.ofTrimmed, cutQuotes?_eq]
  split_ifs with _ hheader
  · rfl
  · obtain ⟨name, rfl⟩ := isHeader_iff.1 hheader
    rw [cutInside?_enclosed (by decide) (by decide), inside_enclosed]
    rfl
  · rfl
  · rfl

/-! ## A whole text -/

/-- what the limits and the notes of a text are, by its lines -/
structure CountsLastAccepted (text : List Char) : Prop where
  steps : ∀ n, (limits text).steps = some n ↔ LastAccepted (trimmedLines text) stepsKey n
  cells : ∀ n, (limits text).cells.map Subtype.val = some n ↔ LastAccepted (trimmedLines text) cellsKey n
  stepsUnset : (limits text).steps = none ↔
    ∀ k value, Candidate (trimmedLines text) k stepsKey value → ∀ n, ¬ Accepts stepsKey value n
  cellsUnset : (limits text).cells = none ↔
    ∀ k value, Candidate (trimmedLines text) k cellsKey value → ∀ n, ¬ Accepts cellsKey value n
  /-- one note for each rejected line, in line order -/
  noted : ∃ cs, Listed (Rejected (trimmedLines text)) cs ∧ notes text = cs.map fun c => complaint c.2.1 c.2.2
  /-- a line that is no accepted candidate leaves what was read before it -/
  kept : ∀ k, (∀ key value, IsKey key → Candidate (trimmedLines text) k key value → ∀ n, ¬ Accepts key value n) →
    (readTrimmed ((trimmedLines text).take (k + 1))).limits = (readTrimmed ((trimmedLines text).take k)).limits
  /-- only candidates count, in their order -/
  determined : ∀ other f, Carries f (trimmedLines text) (trimmedLines other) →
    limits other = limits text ∧ notes other = notes text
  /-- every line can be cut along the bytes the checks allow -/
  sliced : ∀ l ∈ trimmedLines text, Line.cut? l = some (Line.ofTrimmed l)

/-- behind line `k` the limits are those before it, if it gives neither of them a value -/
theorem limits_take_succ {ls : List (List Char)} {k : Nat}
    (h : ∀ key value, IsKey key → Candidate ls k key value → ∀ n, ¬ Accepts key value n) :
    (readTrimmed (ls.take (k + 1))).limits = (readTrimmed (ls.take k)).limits := by
  rcases Nat.lt_or_ge k ls.length with hk | hk
  · rw [← List.take_concat_get' ls k hk]
    refine limits_snoc_of_not_gives fun key hkey n => ?_
    rintro ⟨hin, value, hassigns, haccepts⟩
    exact h key value hkey ⟨⟨ls[k], List.getElem?_eq_getElem hk, hassigns⟩, hin⟩ n haccepts
  · rw [List.take_of_length_le hk, List.take_of_length_le (Nat.le_succ_of_le hk)]

/-- **Each limit is the value of its last accepted candidate.** Whatever the text, a candidate that is not accepted is
noted and changes nothing, other lines do nothing at all, and no line is cut inside a character. -/
theorem last_accepted_candidate_counts (text : List Char) : CountsLastAccepted text := by
  have hlimits : limits text = (readTrimmed (trimmedLines text)).limits := by rw [limits, read_eq]
  have hsteps : limitFor stepsKey (limits text) = (limits text).steps := if_neg stepsKey_ne_cellsKey
  have hcells : limitFor cellsKey (limits text) = (limits text).cells.map Subtype.val := if_pos rfl
  refine ⟨?steps, ?cells, ?stepsUnset, ?cellsUnset, ?noted, ?kept, ?determined, ?sliced⟩
  case steps =>
    intro n
    rw [← hsteps, hlimits, limitFor_readTrimmed (Or.inl rfl)]
  case cells =>
    intro n
    rw [← hcells, hlimits, limitFor_readTrimmed (Or.inr rfl)]
  case stepsUnset => rw [← hsteps, hlimits, limitFor_readTrimmed_eq_none (Or.inl rfl)]
  case cellsUnset =>
    rw [← Option.map_eq_none_iff, ← hcells, hlimits, limitFor_readTrimmed_eq_none (Or.inr rfl)]
  case noted =>
    rw [notes, read_eq]
    exact ignored_readTrimmed _
  case kept => exact fun k h => limits_take_succ h
  case determined =>
    intro other f hcarries
    rw [hlimits, notes, notes, limits, read_eq, read_eq, hcarries.limits, hcarries.ignored]
    exact ⟨rfl, rfl⟩
  case sliced => exact fun l _ => Line.cut?_eq l

end ConfigFile

end Brainfuck
