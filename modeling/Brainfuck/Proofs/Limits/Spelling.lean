/-
The grammar of counts: one plus sign or none, then one digit or more, zeros in front allowed. `Numeral n ds`: the digits
`ds` are worth `n`, each ten times what it is worth one place further right. `Spells n cs`: the text is in the grammar,
and its digits are worth `n`. These are the texts that people write counts in (`spells_iff_writes`).

Two readers take counts. One drops the sign, looks whether only digits are left and then adds up; the other, which the
options use, reads digit by digit and gives up at the first sum that does not fit a word. Both accept the grammar, up
to the largest count, and nothing else (`parse?_eq_some_iff`, `readNumber_eq_some_iff`), so they are the same function.

Main statement: `counts_read_by_grammar`, for every text.
-/
import Mathlib.Tactic
import Brainfuck.Proofs.Limits.Entry

namespace Brainfuck

open Sink Text Dialogue ConfigFile

namespace Count

/-! ## The grammar -/

/-- the ten digits, each at the place of its value -/
def digits : List Char := "0123456789".toList

/-- strings of digits and what they are worth: a single digit, or a string of digits with one more behind it -/
inductive Numeral : Nat → List Char → Prop where
  | digit {k : Nat} {d : Char} (hd : digits[k]? = some d) : Numeral k [d]
  | snoc {n k : Nat} {ds : List Char} {d : Char} (hds : Numeral n ds) (hd : digits[k]? = some d) :
      Numeral (10 * n + k) (ds ++ [d])

/-- the grammar of counts: a numeral, bare or behind one plus sign -/
inductive Spells (n : Nat) : List Char → Prop where
  | bare {ds : List Char} (h : Numeral n ds) : Spells n ds
  | signed {ds : List Char} (h : Numeral n ds) : Spells n ('+' :: ds)

variable {k n : Nat} {d : Char} {cs ds : List Char}

theorem lt_ten_of_getElem?_digits (h : digits[k]? = some d) : k < 10 := (List.getElem?_eq_some_iff.1 h).1

theorem getElem?_digits : digits[k]? = some d ↔ isDigit d = true ∧ d.toNat - '0'.toNat = k := by
  constructor
  · intro h
    have hk := lt_ten_of_getElem?_digits h
    interval_cases k <;> cases h <;> decide
  · rintro ⟨hd, rfl⟩
    have hrange := isDigit_iff.1 hd
    have hzero : '0'.toNat = 48 := rfl
    have hchar : d = Char.ofNat (48 + (d.toNat - 48)) := by
      rw [Nat.add_sub_cancel' (by omega), Char.ofNat_toNat]
    have hk : d.toNat - 48 < 10 := by omega
    rw [hzero]
    generalize d.toNat - 48 = k at hchar hk
    subst hchar
    interval_cases k <;> rfl

theorem value_concat (ds : List Char) (d : Char) : value (ds ++ [d]) = 10 * value ds + (d.toNat - '0'.toNat) := by
  rw [value, valueFrom, List.foldl_append]
  rfl

/-- **A numeral is one digit or more, worth its value.** -/
theorem numeral_iff : Numeral n ds ↔ ds ≠ [] ∧ (∀ d ∈ ds, isDigit d = true) ∧ value ds = n := by
  constructor
  · intro h
    induction h with
    | digit hd =>
      obtain ⟨hdigit, rfl⟩ := getElem?_digits.1 hd
      exact ⟨List.cons_ne_nil _ _, by simpa using hdigit, Nat.zero_add _⟩
    | snoc _ hd ih =>
      obtain ⟨hdigit, rfl⟩ := getElem?_digits.1 hd
      obtain ⟨-, hall, rfl⟩ := ih
      refine ⟨List.append_ne_nil_of_right_ne_nil _ (List.cons_ne_nil _ _), ?_, value_concat _ _⟩
      intro c hc
      rcases List.mem_append.1 hc with hc | hc
      · exact hall c hc
      · rwa [List.mem_singleton.1 hc]
  · rintro ⟨hne, hall, rfl⟩
    -- from the last digit to the first, as numerals are built
    induction ds using List.reverseRecOn with
    | nil => exact absurd rfl hne
    | append_singleton ds d ih =>
      have hd := getElem?_digits.2 ⟨hall d (by simp), rfl⟩
      rw [value_concat]
      by_cases hds : ds = []
      · have hzero : 10 * value [] + (d.toNat - '0'.toNat) = d.toNat - '0'.toNat := Nat.zero_add _
        rw [hds, hzero]
        exact .digit hd
      · exact .snoc (ih hds fun c hc => hall c (List.mem_append_left _ hc)) hd

theorem spells_iff : Spells n cs ↔ Numeral n (unsigned cs) := by
  constructor
  · intro h
    cases h with
    | bare h => rwa [unsigned_of_digits (numeral_iff.1 h).2.1]
    | signed h => exact h
  · intro h
    unfold unsigned at h
    split at h
    · exact .signed h
    · exact .bare h

/-! ## Zeros in front -/

/-- a numeral is the rendering of what it is worth, behind some zeros -/
theorem exists_padded_of_numeral (h : Numeral n ds) : ∃ zeros, ds = padded zeros n := by
  have hrender : ∀ {k d}, digits[k]? = some d → render k = [d] := by
    intro k d hd
    have hk := lt_ten_of_getElem?_digits hd
    rw [render, Nat.toDigits_of_lt_base hk]
    interval_cases k <;> cases hd <;> rfl
  induction h with
  | digit hd => exact ⟨0, (hrender hd).symm⟩
  | @snoc n k ds d _ hd ih =>
    obtain ⟨zeros, rfl⟩ := ih
    rcases Nat.eq_zero_or_pos n with rfl | hn
    · -- the zero so far is one more zero in front
      refine ⟨zeros + 1, ?_⟩
      rw [padded, padded, Nat.mul_zero, Nat.zero_add, hrender hd, List.replicate_succ']
      rfl
    · refine ⟨zeros, ?_⟩
      rw [padded, padded, List.append_assoc, ← hrender hd, render, render, render,
        Nat.toDigits_append_toDigits (by decide) hn (lt_ten_of_getElem?_digits hd)]

/-- **The grammar has the texts that write a count**: its digits, any zeros before them, a plus sign before all. -/
theorem spells_iff_writes : Spells n cs ↔ Writes n cs := by
  constructor
  · intro h
    cases h with
    | bare h =>
      obtain ⟨zeros, rfl⟩ := exists_padded_of_numeral h
      exact .plain zeros
    | signed h =>
      obtain ⟨zeros, rfl⟩ := exists_padded_of_numeral h
      exact .signed zeros
  · have hpadded : ∀ zeros, Numeral n (padded zeros n) := fun zeros =>
      numeral_iff.2 ⟨padded_ne_nil zeros n, fun _ => isDigit_of_mem_padded, value_padded zeros n⟩
    intro h
    cases h with
    | plain zeros => exact .bare (hpadded zeros)
    | signed zeros => exact .signed (hpadded zeros)

/-! ## The readers -/

/-- **A text is taken for a count where the grammar spells it and it fits a word.** -/
theorem parse?_eq_some_iff : parse? cs = some n ↔ Spells n cs ∧ n < bound := by
  rw [parse?_eq, spells_iff, numeral_iff, ← List.all_eq_true, ← List.isEmpty_eq_false_iff]
  cases (unsigned cs).isEmpty with
  | true => simp
  | false =>
    cases (unsigned cs).all isDigit with
    | false => simp
    | true =>
      simp only [Bool.not_true, Bool.or_self, Bool.false_eq_true, if_false, Option.ite_none_right_eq_some,
        Option.some.injEq, true_and]
      constructor
      · rintro ⟨h, rfl⟩
        exact ⟨rfl, h⟩
      · rintro ⟨rfl, h⟩
        exact ⟨h, rfl⟩

theorem parse?_render (h : n < bound) : parse? (render n) = some n :=
  parse?_eq_some_iff.2 ⟨spells_iff_writes.2 (.plain 0), h⟩

theorem le_valueFrom (m : Nat) (ds : List Char) : m ≤ valueFrom m ds := by
  induction ds generalizing m with
  | nil => exact Nat.le_refl m
  | cons d ds ih => exact Nat.le_trans (by omega) (ih (10 * m + (d.toNat - '0'.toNat)))

end Count

section Readers

variable {m n : Nat} {cs ds : List Char}

/-- reading on after `m` fails at a character that is no digit, or at a sum that does not fit, which no later digit
brings back below the bound -/
theorem readDigits_eq_some_iff (hm : m < Count.bound) : readDigits m ds = some n ↔
    (∀ d ∈ ds, Count.isDigit d = true) ∧ Count.valueFrom m ds = n ∧ n < Count.bound := by
  induction ds generalizing m with
  | nil =>
    rw [readDigits, Option.some_inj]
    constructor
    · rintro rfl
      exact ⟨List.forall_mem_nil _, rfl, hm⟩
    · rintro ⟨-, h, -⟩
      exact h
  | cons d ds ih =>
    have hnext : Count.valueFrom m (d :: ds) = Count.valueFrom (10 * m + (d.toNat - '0'.toNat)) ds := rfl
    rw [readDigits, List.forall_mem_cons, hnext]
    by_cases hd : Count.isDigit d = true
    · rw [if_pos hd]
      simp only
      by_cases hfits : 10 * m + (d.toNat - '0'.toNat) < Count.bound
      · rw [if_pos hfits, ih hfits]
        exact ⟨fun h => ⟨⟨hd, h.1⟩, h.2⟩, fun h => ⟨h.1.2, h.2⟩⟩
      · rw [if_neg hfits]
        have hle := Count.le_valueFrom (10 * m + (d.toNat - '0'.toNat)) ds
        constructor
        · rintro ⟨⟩
        · rintro ⟨-, rfl, hlt⟩
          omega
    · rw [if_neg hd]
      constructor
      · rintro ⟨⟩
      · rintro ⟨⟨hdigit, -⟩, -⟩
        exact absurd hdigit hd

theorem readNumber_eq (cs : List Char) :
    readNumber cs = if Count.unsigned cs = [] then none else readDigits 0 (Count.unsigned cs) := by
  unfold readNumber
  split
  · rfl
  · rfl
  · rename_i ds hne
    have hds : ds ≠ [] := hne
    rw [Count.unsigned, if_neg hds]
  · rename_i hnil _ hplus
    have hunsigned : Count.unsigned cs = cs := by
      unfold Count.unsigned
      split
      · exact absurd rfl (hplus _)
      · rfl
    rw [hunsigned, if_neg hnil]

/-- **An option takes a text for a count in just the same cases.** -/
theorem readNumber_eq_some_iff : readNumber cs = some n ↔ Count.Spells n cs ∧ n < Count.bound := by
  rw [readNumber_eq, Count.spells_iff, Count.numeral_iff]
  split_ifs with hnil
  · simp [hnil]
  · rw [readDigits_eq_some_iff (by decide)]
    exact ⟨fun h => ⟨⟨hnil, h.1, h.2.1⟩, h.2.2⟩, fun h => ⟨h.1.2.1, h.1.2.2, h.2⟩⟩

theorem readNumber_eq_parse? (cs : List Char) : readNumber cs = Count.parse? cs :=
  Option.ext fun _ => readNumber_eq_some_iff.trans Count.parse?_eq_some_iff.symm

end Readers

/-! ## Options that take a count -/

/-- the options that take a count -/
inductive CountOption where
  | steps
  | cells

namespace CountOption

/-- the name, without the dashes -/
def name : CountOption → List Char
  | steps => "max-steps".toList
  | cells => "memory".toList

def setting : CountOption → Setting
  | steps => .maxSteps
  | cells => .memory

/-- the count given for it -/
def count : CountOption → Options → Option Nat
  | steps, o => o.maxSteps
  | cells, o => o.memory

/-- the options with this count given for it -/
def give : CountOption → Options → Nat → Options
  | steps, o, n => { o with maxSteps := some n }
  | cells, o, n => { o with memory := some n }

variable {p : Parsing} {o : Options}

theorem has_setting (f : CountOption) (o : Options) : o.has f.setting = (f.count o).isSome := by
  cases f <;> rfl

theorem ofLong?_name (f : CountOption) : Switch.ofLong? (encode f.name) = some (.setting f.setting) := by
  cases f <;> decide

theorem assign_eq (f : CountOption) (h : f.count o = none) (cs : List Char) : o.assign f.setting (encode cs) =
    (Count.parse? cs).elim (.error .invalidValue) fun n => .ok (f.give o n) := by
  have hunset : o.has f.setting = false := by rw [has_setting, h]; rfl
  rw [Options.assign, hunset, decode?_encode, ← readNumber_eq_parse?]
  cases f <;> simp only [setting, Bool.false_eq_true, if_false] <;> cases readNumber cs <;> rfl

theorem takeWhile_name (f : CountOption) {rest : List UInt8} (hrest : ∀ b, rest.head? = some b → b = Parsing.equalsSign) :
    (encode f.name ++ rest).takeWhile (· != Parsing.equalsSign) = encode f.name := by
  have hname : (encode f.name).all (· != Parsing.equalsSign) = true := by cases f <;> decide
  rw [List.takeWhile_append_of_pos (List.all_eq_true.1 hname)]
  cases rest with
  | nil => exact List.append_nil _
  | cons b rest => rw [List.takeWhile_cons_of_neg (by simp [hrest b rfl]), List.append_nil]

/-- the argument that names the option, with something behind the name -/
def argument (f : CountOption) (rest : List Char) : List UInt8 := encode ("--".toList ++ f.name ++ rest)

theorem take_argument (f : CountOption) (p : Parsing) (rest : List Char) :
    p.take (f.argument rest) = p.takeLong (encode f.name ++ encode rest) := by
  have hraw : f.argument rest = Parsing.dash :: Parsing.dash :: (encode f.name ++ encode rest) := by
    rw [argument, encode_append, encode_append, List.append_assoc]
    rfl
  rw [hraw, Parsing.take, if_pos rfl, if_pos rfl]

/-- an option with its value behind an equals sign -/
theorem take_attached (f : CountOption) (p : Parsing) (cs : List Char) :
    p.take (f.argument ('=' :: cs)) = p.takeAttached f.setting (encode cs) := by
  have hsign : encode ('=' :: cs) = Parsing.equalsSign :: encode cs := rfl
  rw [take_argument, hsign, Parsing.takeLong, takeWhile_name f (by simp), ofLong?_name, List.drop_left]

theorem take_open (f : CountOption) (p : Parsing) : p.take (f.argument []) = p.takeOpen f.setting := by
  rw [take_argument, encode_nil, Parsing.takeLong, takeWhile_name f (by simp), ofLong?_name, List.drop_left]

/-- an option with its value in the next argument, which is no option -/
theorem take_next (f : CountOption) (hp : p.settle = .ok o) {value : List UInt8}
    (hvalue : value.head? ≠ some Parsing.dash) :
    (do let q ← p.take (f.argument []); let r ← q.take value; r.settle) = o.assign f.setting value := by
  have hopen : p.take (f.argument []) = .ok ⟨o, .setting f.setting none⟩ := by
    rw [take_open, Parsing.takeOpen, hp]
    rfl
  have hplain : Parsing.take ⟨o, .setting f.setting none⟩ value = .ok ⟨o, .setting f.setting (some value)⟩ := by
    unfold Parsing.take
    split
    · rename_i a b rest
      have ha : a ≠ Parsing.dash := fun ha => hvalue (congrArg some ha)
      rw [if_neg ha]
      rfl
    · rfl
  rw [hopen]
  change Parsing.take ⟨o, .setting f.setting none⟩ value >>= Parsing.settle = _
  rw [hplain]
  rfl

/-- **What an option makes of the text behind its equals sign**, wherever it stands among the arguments: it takes the
count that was found in the text, and refuses a text in which none was found. -/
def Finds (cs : List Char) (found : Option Nat) : Prop :=
  ∀ (f : CountOption) (p : Parsing) (o : Options), p.settle = .ok o → f.count o = none →
    p.take (f.argument ('=' :: cs)) =
      found.elim (.error .invalidValue) fun n => .ok ⟨f.give o n, .nothing⟩

theorem finds_parse? (cs : List Char) : Finds cs (Count.parse? cs) := by
  intro f p o hp h
  rw [take_attached, Parsing.takeAttached, hp]
  change (o.assign f.setting (encode cs) >>= fun o => Except.ok (Parsing.mk o .nothing)) = _
  rw [assign_eq f h]
  cases Count.parse? cs <;> rfl

end CountOption

/-! ## Counts entered -/

theorem Count.Writes.head?_encode {n : Nat} {cs : List Char} (h : Count.Writes n cs) :
    (encode cs).head? ≠ some Parsing.dash := by
  intro hdash
  obtain ⟨c, hc, hval⟩ := exists_of_mem_encode (by decide) (List.mem_of_mem_head? hdash)
  have hminus : c = '-' := Char.toNat_inj.1 hval
  rcases h.isDigit_or_plus hc with hdigit | hplus
  · exact absurd (hminus ▸ hdigit) (by decide)
  · exact absurd (hminus.symm.trans hplus) (by decide)

/-- all who read counts take the text for `n` -/
structure EntersAs (n : Nat) (cs : List Char) : Prop where
  /-- as the argument behind an option -/
  option : ∀ (f : CountOption) (p : Parsing) (o : Options), p.settle = .ok o → f.count o = none →
    (do let q ← p.take (f.argument []); let r ← q.take (encode cs); r.settle) = .ok (f.give o n)
  /-- typed after y, blanks anywhere in the lines, to a question that it is not too small for -/
  answer : ∀ {σ : Type} [Sink σ] (questions : σ), Willing questions →
    ∀ (q : Question) (yes entry : List Char) (bs rest : List UInt8), (n = 0 → q.zeroFits = true) →
      squeeze yes = ['y'] → squeeze entry = cs → Typed [yes, entry] bs rest →
        ask q questions (byteLines bs) = ⟨byteLines rest, callAll questions (callsOf [q.choice, q.entry]), .ok (some n)⟩
  /-- as the steps of a config file -/
  steps : ∀ l text, Assigns stepsKey cs l → Holds [l] text → ConfigFile.limits text = ⟨some n, none⟩
  /-- as its cells -/
  cells : ∀ (m : CellCount) l text, m.1 = n → Assigns cellsKey cs l → Holds [l] text →
    ConfigFile.limits text = ⟨none, some m⟩

theorem entersAs {n : Nat} {cs : List Char} (h : Count.Spells n cs) (hn : n < Count.bound) : EntersAs n cs := by
  have hwrites := Count.spells_iff_writes.1 h
  constructor
  case option =>
    intro f p o hp hunset
    rw [CountOption.take_next f hp hwrites.head?_encode, CountOption.assign_eq f hunset,
      Count.parse?_eq_some_iff.2 ⟨h, hn⟩]
    rfl
  case answer =>
    rintro σ _ questions hwilling q yes entry bs rest hzero hyes rfl htyped
    -- no number that is too large was typed before it
    have hsettles := @settles_of_typed q yes entry [] bs rest n htyped hyes (List.forall_mem_nil _) hwrites hn hzero
    exact ask_of_settles hwilling hsettles
  case steps =>
    intro l text hassigns hholds
    refine limits_of_holds hholds ?_ ?_ (by rintro _ ⟨⟩)
    · intro l' hl'
      rw [List.mem_singleton.1 hl']
      exact Or.inr (Or.inl ⟨n, cs, hassigns, hwrites, Or.inl rfl⟩)
    · rintro _ ⟨⟩
      exact ⟨hn, l, List.mem_singleton_self l, cs, hassigns, hwrites⟩
  case cells =>
    rintro m l text rfl hassigns hholds
    refine limits_of_holds hholds ?_ (by rintro _ ⟨⟩) ?_
    · intro l' hl'
      rw [List.mem_singleton.1 hl']
      exact Or.inr (Or.inr ⟨m.1, cs, hassigns, hwrites, Or.inl rfl⟩)
    · rintro _ ⟨⟩
      exact ⟨hn, l, List.mem_singleton_self l, cs, hassigns, hwrites⟩

/-- **Counts are read by one grammar, wherever they are entered.** A text is taken for `n` just where the grammar spells
`n` in it and `n` fits a word; the rendering of every such `n` is. The reader of the options is the same function, so
that they take the same texts for the same counts and refuse all others. Such a text is the count `n` to an option, to
the dialogue and in a config file. -/
theorem counts_read_by_grammar :
    (∀ cs n, Count.parse? cs = some n ↔ Count.Spells n cs ∧ n < Count.bound) ∧
      (∀ n, n < Count.bound → Count.parse? (Count.render n) = some n) ∧
      (∀ cs, readNumber cs = Count.parse? cs ∧ CountOption.Finds cs (Count.parse? cs)) ∧
      ∀ cs n, Count.Spells n cs → n < Count.bound → EntersAs n cs :=
  ⟨fun _ _ => Count.parse?_eq_some_iff, fun _ => Count.parse?_render,
    fun cs => ⟨readNumber_eq_parse? cs, CountOption.finds_parse? cs⟩, fun _ _ => entersAs⟩

/-- the largest count, with a sign and zeros in front -/
def largestCount : List Char := "+0018446744073709551615".toList

/-- it is read as it stands and as it is rendered, and it is the one count of a config file and of the arguments -/
theorem counts_read_by_grammar_largest :
    let n := 18446744073709551615
    n < Count.bound ∧ Count.Spells n largestCount ∧ Count.parse? largestCount = some n ∧
      Count.parse? (Count.render n) = some n ∧
      ConfigFile.limits ("[limits]\nmax_steps = \"".toList ++ largestCount ++ "\"".toList) = ⟨some n, none⟩ ∧
      Parsing.take {} (CountOption.steps.argument ('=' :: largestCount)) = .ok ⟨{ maxSteps := some n }, .nothing⟩ := by
  intro n
  obtain ⟨hparse, hrender, hoptions, henters⟩ := counts_read_by_grammar
  have hn : n < Count.bound := by decide
  have hspells : Count.Spells n largestCount :=
    Count.spells_iff.2 (Count.numeral_iff.2 ⟨by decide, List.all_eq_true.1 (by decide), by decide⟩)
  have hread : Count.parse? largestCount = some n := (hparse _ _).2 ⟨hspells, hn⟩
  have hassigns : Assigns stepsKey largestCount ("max_steps = \"".toList ++ largestCount ++ "\"".toList) :=
    .quoted (a := []) (b := [' ']) (c := [' ']) (d := []) (by decide) (by decide) (by decide) (by decide)
  have hholds : Holds ["max_steps = \"".toList ++ largestCount ++ "\"".toList]
      ("[limits]\nmax_steps = \"".toList ++ largestCount ++ "\"".toList) :=
    ⟨[], "[limits]".toList, [], by decide, by decide, by decide, Or.inl rfl⟩
  refine ⟨hn, hspells, hread, hrender n hn, (henters _ _ hspells hn).steps _ _ hassigns hholds, ?_⟩
  have htake := (hoptions largestCount).2 .steps {} {} rfl rfl
  rwa [hread] at htake

end Brainfuck
