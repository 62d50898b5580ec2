/-
The lines of a config file as people write them, and what they set. `Assigns key value l`: the line `l` reads
`key = value`, with any blanks around the parts and with or without quotes. `Noise l`: the line says nothing about
limits. `Holds body text`: the one section of `text` that counts is made up of the lines `body`. Then the limits are
those that the assignments in `body` give (`limits_of_holds`), whatever stands around them.
-/
import Mathlib.Tactic
import Brainfuck.Proofs.Limits.File
import Brainfuck.Proofs.Limits.Written

namespace Brainfuck

namespace ConfigFile

open Text

/-! ## Lines -/

/-- a word that may stand as a key -/
structure Word (key : List Char) : Prop where
  ne_nil : key ≠ []
  tight : Tight key
  noEquals : '=' ∉ key
  noComment : key.head? ≠ some '#'
  noHeader : key.head? ≠ some '['

/-- `key = value` as a line, blanks around all parts, the value bare or in double quotes -/
inductive Assigns (key value : List Char) : List Char → Prop where
  | bare {a b c d : List Char} (ha : Blanks a) (hb : Blanks b) (hc : Blanks c) (hd : Blanks d) :
      Assigns key value (a ++ (key ++ b ++ '=' :: (c ++ value ++ d)))
  | quoted {a b c d : List Char} (ha : Blanks a) (hb : Blanks b) (hc : Blanks c) (hd : Blanks d) :
      Assigns key value (a ++ (key ++ b ++ '=' :: (c ++ ('"' :: (value ++ ['"'])) ++ d)))

/-- a line that says nothing about limits: blank, a comment, or an unknown key -/
inductive Noise : List Char → Prop where
  | blank {l : List Char} (h : Blanks l) : Noise l
  | comment {a : List Char} (ha : Blanks a) (rest : List Char) : Noise (a ++ '#' :: rest)
  | unknown {a key b : List Char} (ha : Blanks a) (hkey : Word key) (hsteps : key ≠ stepsKey) (hcells : key ≠ cellsKey)
      (hb : Blanks b) (rest : List Char) : Noise (a ++ (key ++ b ++ '=' :: rest))

/-- the header of a section, whatever its name -/
def IsHeader (l : List Char) : Prop := l.head? = some '[' ∧ l.getLast? = some ']'

instance (l : List Char) : Decidable (IsHeader l) := inferInstanceAs (Decidable (_ ∧ _))

/-- the header of the section that counts -/
def title : List Char := '[' :: (sectionName ++ [']'])

/-- no line outside the section, or those from the header of another section on -/
def Elsewhere (after : List (List Char)) : Prop :=
  after = [] ∨ ∃ name other rest, after = other :: rest ∧ trim other = '[' :: (name ++ [']']) ∧ name ≠ sectionName ∧
    ∀ l ∈ rest, trim l ≠ title

/-- a config file in which the lines `body` make up the one section that counts -/
def Holds (body : List (List Char)) (text : List Char) : Prop :=
  ∃ before header after, lines text = before ++ header :: (body ++ after) ∧ (∀ l ∈ before, trim l ≠ title) ∧
    trim header = title ∧ Elsewhere after

/-- a line of the section that sets no other limits than these; numbers that are too large may stand there too -/
def Allowed (steps cells : Option Nat) (l : List Char) : Prop :=
  Noise l ∨ (∃ n v, Assigns stepsKey v l ∧ Count.Writes n v ∧ (steps = some n ∨ Count.bound ≤ n)) ∨
    ∃ n v, Assigns cellsKey v l ∧ Count.Writes n v ∧ (cells = some n ∨ Count.bound ≤ n)

theorem word_stepsKey : Word stepsKey :=
  ⟨by decide, by decide, by decide, by decide, by decide⟩

theorem word_cellsKey : Word cellsKey :=
  ⟨by decide, by decide, by decide, by decide, by decide⟩

theorem trimEnd_append {c : Char} (hc : isBlank c = false) (cs rest : List Char) :
    trimEnd (cs ++ c :: rest) = cs ++ c :: trimEnd rest := by
  have hstop : (c :: cs.reverse).dropWhile isBlank = c :: cs.reverse :=
    List.dropWhile_cons_of_neg (by rw [hc]; exact Bool.false_ne_true)
  have hreverse : (cs ++ c :: rest).reverse = rest.reverse ++ c :: cs.reverse := by simp
  rw [trimEnd, hreverse, List.dropWhile_append, hstop, trimEnd]
  cases hrest : rest.reverse.dropWhile isBlank with
  | nil => simp
  | cons b bs => simp

theorem trim_setting {a key b : List Char} (ha : Blanks a) (hkey : Word key) (rest : List Char) :
    trim (a ++ (key ++ b ++ '=' :: rest)) = key ++ b ++ '=' :: trimEnd rest := by
  have hfront : trimStart (a ++ (key ++ b ++ '=' :: rest)) = key ++ b ++ '=' :: rest := by
    refine dropWhile_blanks_append ha fun c hc => hkey.tight.head c ?_
    rwa [List.append_assoc, List.head?_append_of_ne_nil _ hkey.ne_nil] at hc
  rw [trim, hfront, trimEnd_append (by decide)]

theorem enclosed_iff {c d : Char} {cs : List Char} :
    (cs.head? = some c ∧ cs.getLast? = some d ∧ 2 ≤ cs.length) ↔ ∃ inner, cs = c :: (inner ++ [d]) := by
  constructor
  · rintro ⟨hhead, hlast, hlength⟩
    obtain ⟨x, rest, rfl⟩ := List.exists_cons_of_length_pos (by omega : 0 < cs.length)
    obtain ⟨inner, y, rfl⟩ := (List.eq_nil_or_concat' rest).resolve_left (by rintro rfl; simp at hlength)
    rw [← List.cons_append, List.getLast?_concat] at hlast
    cases hhead
    cases hlast
    exact ⟨inner, rfl⟩
  · rintro ⟨inner, rfl⟩
    refine ⟨rfl, ?_, by simp⟩
    rw [← List.cons_append, List.getLast?_concat]

theorem inside_enclosed (c d : Char) (inner : List Char) : inside (c :: (inner ++ [d])) = inner := by
  rw [inside, List.tail_cons, List.dropLast_concat]

/-- a text with an equals sign, cut at the first one -/
theorem split_iff {l before after : List Char} : (l = before ++ '=' :: after ∧ '=' ∉ before) ↔
    '=' ∈ l ∧ l.takeWhile (· != '=') = before ∧ (l.dropWhile (· != '=')).tail = after := by
  constructor
  · rintro ⟨rfl, hbefore⟩
    have hall : ∀ c ∈ before, (c != '=') = true := by
      intro c hc
      rw [bne_iff_ne]
      rintro rfl
      exact hbefore hc
    refine ⟨by simp, ?_, ?_⟩
    · rw [List.takeWhile_append_of_pos hall, List.takeWhile_cons_of_neg (by simp), List.append_nil]
    · rw [List.dropWhile_append_of_pos hall, List.dropWhile_cons_of_neg (by simp), List.tail_cons]
  · rintro ⟨hmem, rfl, rfl⟩
    have hne : l.dropWhile (· != '=') ≠ [] := by
      intro hnil
      have hall := List.dropWhile_eq_nil_iff.1 hnil '=' hmem
      simp at hall
    have hhead : (l.dropWhile (· != '=')).head hne = '=' := by
      have hnot := List.head_dropWhile_not (· != '=') hne
      simpa using hnot
    have hcut : l.dropWhile (· != '=') = '=' :: (l.dropWhile (· != '=')).tail := by
      conv_lhs => rw [← List.cons_head_tail hne, hhead]
    refine ⟨?_, fun hmem' => ?_⟩
    · rw [← hcut]
      exact List.takeWhile_append_dropWhile.symm
    · have hbefore := List.mem_takeWhile_imp hmem'
      simp at hbefore

/-- **A line with a key and an equals sign is a setting.** -/
theorem ofText_setting {a key b : List Char} (ha : Blanks a) (hkey : Word key) (hb : Blanks b) (rest : List Char) :
    Line.ofText (a ++ (key ++ b ++ '=' :: rest)) = .setting key (unquote (trim (trimEnd rest))) := by
  have hhead : (key ++ b ++ '=' :: trimEnd rest).head? = key.head? := by
    rw [List.append_assoc, List.head?_append_of_ne_nil _ hkey.ne_nil]
  have hbefore : '=' ∉ key ++ b := by
    intro hmem
    rcases List.mem_append.1 hmem with hmem | hmem
    · exact hkey.noEquals hmem
    · exact absurd (hb _ hmem) (by decide)
  have htrim : trim (key ++ b) = key := trim_padded (a := []) (List.forall_mem_nil _) hkey.tight hb
  obtain ⟨hequals, hfront, hback⟩ := split_iff.1 ⟨rfl, hbefore⟩
  rw [Line.ofText, trim_setting ha hkey, Line.ofTrimmed, if_neg, if_neg, if_pos hequals, hfront, hback, htrim]
  · rw [hhead]
    exact fun h => hkey.noHeader h.1
  · rw [hhead]
    rintro (h | h)
    · exact List.append_ne_nil_of_left_ne_nil (List.append_ne_nil_of_left_ne_nil hkey.ne_nil _) _ h
    · exact hkey.noComment h

theorem trim_trimEnd_padded {c shown d : List Char} (hc : Blanks c) (hshown : Tight shown) (hne : shown ≠ [])
    (hd : Blanks d) : trim (trimEnd (c ++ shown ++ d)) = shown := by
  obtain ⟨front, z, rfl⟩ := (List.eq_nil_or_concat' shown).resolve_left hne
  have hnothing : trimEnd d = [] := by
    rw [trimEnd, List.dropWhile_eq_nil_iff.2 hd.reverse]
    rfl
  have hend : trimEnd (c ++ (front ++ [z]) ++ d) = c ++ (front ++ [z]) ++ [] :=
    calc trimEnd (c ++ (front ++ [z]) ++ d)
        = trimEnd ((c ++ front) ++ z :: d) := by simp
      _ = (c ++ front) ++ z :: trimEnd d := trimEnd_append (hshown.last z List.getLast?_concat) _ _
      _ = c ++ (front ++ [z]) ++ [] := by simp [hnothing]
  rw [hend]
  exact trim_padded hc hshown (List.forall_mem_nil _)

/-- **An assignment is the setting it looks like**, bare or in quotes. -/
theorem ofText_assigns {key value l : List Char} (hkey : Word key) (hne : value ≠ [])
    (hvalue : ∀ c ∈ value, isBlank c = false) (hquote : value.head? ≠ some '"') (h : Assigns key value l) :
    Line.ofText l = .setting key value := by
  cases h with
  | bare ha hb hc hd =>
    rw [ofText_setting ha hkey hb, trim_trimEnd_padded hc (tight_of_not_blank hvalue) hne hd, unquote,
      if_neg fun h => hquote h.1]
  | quoted ha hb hc hd =>
    have htight : Tight ('"' :: (value ++ ['"'])) := by
      refine ⟨fun c hc => ?_, fun c hc => ?_⟩
      · cases hc
        decide
      · rw [← List.cons_append, List.getLast?_concat] at hc
        cases hc
        decide
    rw [ofText_setting ha hkey hb, trim_trimEnd_padded hc htight (List.cons_ne_nil _ _) hd, unquote,
      if_pos (enclosed_iff.2 ⟨value, rfl⟩), inside_enclosed]

theorem ofText_writes {key value l : List Char} {n : Nat} (hkey : Word key) (hvalue : Count.Writes n value)
    (h : Assigns key value l) : Line.ofText l = .setting key value := by
  refine ofText_assigns hkey hvalue.ne_nil (fun c hc => hvalue.not_blank hc) (fun hq => ?_) h
  rcases hvalue.isDigit_or_plus (List.mem_of_mem_head? hq) with hdigit | hplus
  · exact absurd hdigit (by decide)
  · exact absurd hplus (by decide)

theorem ofText_noise {l : List Char} (h : Noise l) :
    Line.ofText l = .idle ∨ ∃ key value, Line.ofText l = .setting key value ∧ key ≠ stepsKey ∧ key ≠ cellsKey := by
  cases h with
  | blank h =>
    left
    have hnothing : trim l = [] := by
      rw [trim, trimStart, List.dropWhile_eq_nil_iff.2 h]
      rfl
    rw [Line.ofText, hnothing]
    rfl
  | @comment a ha rest =>
    left
    have hfront : trimStart (a ++ '#' :: rest) = '#' :: rest :=
      dropWhile_blanks_append ha fun c hc => by cases hc; decide
    have htrim : trim (a ++ '#' :: rest) = '#' :: trimEnd rest := by
      rw [trim, hfront]
      exact trimEnd_append (by decide) [] rest
    rw [Line.ofText, htrim, Line.ofTrimmed, if_pos]
    exact Or.inr rfl
  | unknown ha hkey hsteps hcells hb rest => exact Or.inr ⟨_, _, ofText_setting ha hkey hb rest, hsteps, hcells⟩

theorem isHeader_iff {l : List Char} : IsHeader l ↔ ∃ name, l = '[' :: (name ++ [']']) := by
  rw [← enclosed_iff, IsHeader]
  constructor
  · rintro ⟨hhead, hlast⟩
    refine ⟨hhead, hlast, ?_⟩
    -- one character cannot be both brackets
    match l, hhead, hlast with
    | [_], hhead, hlast => cases hhead; cases hlast
    | _ :: _ :: _, _, _ => simp
  · rintro ⟨hhead, hlast, -⟩
    exact ⟨hhead, hlast⟩

/-- a header that names a section -/
theorem ofTrimmed_header (name : List Char) : Line.ofTrimmed ('[' :: (name ++ [']'])) = .header name := by
  obtain ⟨hhead, hlast, -⟩ := enclosed_iff.2 ⟨name, rfl⟩
  rw [Line.ofTrimmed, if_neg (by simp), if_pos ⟨hhead, hlast⟩, inside_enclosed]

theorem ofText_header {name l : List Char} (h : trim l = '[' :: (name ++ [']'])) : Line.ofText l = .header name := by
  rw [Line.ofText, h, ofTrimmed_header]

theorem ofText_ne_header {l : List Char} (h : trim l ≠ title) : Line.ofText l ≠ .header sectionName := by
  intro hheader
  rw [Line.ofText, Line.ofTrimmed] at hheader
  split_ifs at hheader with _ hbrackets _
  obtain ⟨name, hl⟩ := isHeader_iff.1 hbrackets
  rw [hl, inside_enclosed] at hheader
  exact h (by rw [hl, title, Line.header.inj hheader])

/-! ## The section -/

/-- lines that do not open the section leave no settings -/
theorem settings_outside {ls : List (List Char)} (h : ∀ l ∈ ls, trim l ≠ title) (rest : List Line) :
    settings false (ls.map Line.ofText ++ rest) = settings false rest := by
  induction ls with
  | nil => rfl
  | cons l ls ih =>
    have hrest := ih fun l' hl' => h l' (List.mem_cons_of_mem _ hl')
    have hne : Line.ofText l ≠ .header sectionName := ofText_ne_header (h l List.mem_cons_self)
    rw [List.map_cons, List.cons_append]
    cases hl : Line.ofText l with
    | idle => exact hrest
    | setting key value => exact hrest
    | header name =>
      have hname : name ≠ sectionName := fun he => hne (he ▸ hl)
      rw [settings, decide_eq_false hname]
      exact hrest

theorem settings_eq_nil_of_outside {ls : List (List Char)} (h : ∀ l ∈ ls, trim l ≠ title) :
    settings false (ls.map Line.ofText) = [] := by
  have hnothing := settings_outside h []
  rwa [List.append_nil] at hnothing

/-- lines without a header leave their settings, and the section goes on -/
theorem settings_inside {ls : List Line} (h : ∀ l ∈ ls, ∀ name, l ≠ .header name) (rest : List Line) :
    settings true (ls ++ rest) = settings true ls ++ settings true rest := by
  induction ls with
  | nil => rfl
  | cons l ls ih =>
    have hrest := ih fun l' hl' => h l' (List.mem_cons_of_mem _ hl')
    cases l with
    | idle => exact hrest
    | setting key value => exact congrArg ((key, value) :: ·) hrest
    | header name => exact absurd rfl (h _ List.mem_cons_self name)

theorem mem_settings_inside {ls : List Line} (h : ∀ l ∈ ls, ∀ name, l ≠ .header name) {key value : List Char} :
    (key, value) ∈ settings true ls ↔ Line.setting key value ∈ ls := by
  induction ls with
  | nil => exact iff_of_false List.not_mem_nil List.not_mem_nil
  | cons l ls ih =>
    have hrest := ih fun l' hl' => h l' (List.mem_cons_of_mem _ hl')
    cases l with
    | idle =>
      rw [settings, hrest, List.mem_cons]
      exact ⟨Or.inr, fun h => h.resolve_left (by simp)⟩
    | setting k v =>
      rw [settings, if_pos rfl, List.mem_cons, List.mem_cons, hrest, Prod.mk.injEq, Line.setting.injEq]
    | header name => exact absurd rfl (h _ List.mem_cons_self name)

theorem mem_valuesFor {key value : List Char} {ss : List (List Char × List Char)} :
    value ∈ valuesFor key ss ↔ (key, value) ∈ ss := by
  unfold valuesFor
  rw [List.mem_filterMap]
  constructor
  · rintro ⟨⟨k, v⟩, hmem, hsome⟩
    split_ifs at hsome with hk
    cases hsome
    exact hk ▸ hmem
  · intro hmem
    exact ⟨(key, value), hmem, if_pos rfl⟩

/-- nothing after the section counts -/
theorem settings_elsewhere {after : List (List Char)} (h : Elsewhere after) :
    settings true (after.map Line.ofText) = [] := by
  rcases h with rfl | ⟨name, other, rest, rfl, hother, hname, hrest⟩
  · rfl
  · rw [List.map_cons, ofText_header hother, settings, decide_eq_false hname]
    exact settings_eq_nil_of_outside hrest

/-- **The values a key has are those the lines of the section give it.** -/
theorem mem_values_of_holds {body : List (List Char)} {text : List Char} (h : Holds body text)
    (hbody : ∀ l ∈ body, ∀ name, Line.ofText l ≠ .header name) {key value : List Char} :
    value ∈ values key text ↔ ∃ l ∈ body, Line.ofText l = .setting key value := by
  obtain ⟨before, header, after, hlines, hbefore, hheader, hafter⟩ := h
  have hinside : ∀ l ∈ body.map Line.ofText, ∀ name, l ≠ .header name := by
    intro l hl
    obtain ⟨text, htext, rfl⟩ := List.mem_map.1 hl
    exact hbody text htext
  have hall : settings false ((lines text).map Line.ofText) = settings true (body.map Line.ofText) := by
    rw [hlines, List.map_append, List.map_cons, List.map_append, settings_outside hbefore, ofText_header hheader,
      settings, decide_eq_true rfl, settings_inside hinside, settings_elsewhere hafter, List.append_nil]
  rw [values, hall, mem_valuesFor, mem_settings_inside hinside, List.mem_map]

/-- what a line of the section is -/
theorem Allowed.cases {steps cells : Option Nat} {l : List Char} (h : Allowed steps cells l) :
    (∀ name, Line.ofText l ≠ .header name) ∧
      (∀ v, Line.ofText l = .setting stepsKey v → ∃ n, Count.Writes n v ∧ (steps = some n ∨ Count.bound ≤ n)) ∧
      ∀ v, Line.ofText l = .setting cellsKey v → ∃ n, Count.Writes n v ∧ (cells = some n ∨ Count.bound ≤ n) := by
  rcases h with hnoise | ⟨n, v, hassigns, hwrites, hn⟩ | ⟨n, v, hassigns, hwrites, hn⟩
  · rcases ofText_noise hnoise with hl | ⟨key, value, hl, hsteps, hcells⟩
    · rw [hl]
      exact ⟨by simp, by simp, by simp⟩
    · rw [hl]
      refine ⟨by simp, fun v hv => ?_, fun v hv => ?_⟩
      · exact absurd (Line.setting.inj hv).1 hsteps
      · exact absurd (Line.setting.inj hv).1 hcells
  · rw [ofText_writes word_stepsKey hwrites hassigns]
    refine ⟨by simp, fun w hw => ?_, fun w hw => absurd (Line.setting.inj hw).1 stepsKey_ne_cellsKey⟩
    exact ⟨n, (Line.setting.inj hw).2 ▸ hwrites, hn⟩
  · rw [ofText_writes word_cellsKey hwrites hassigns]
    refine ⟨by simp, fun w hw => absurd (Line.setting.inj hw).1 stepsKey_ne_cellsKey.symm, fun w hw => ?_⟩
    exact ⟨n, (Line.setting.inj hw).2 ▸ hwrites, hn⟩

theorem cellCount?_of_writes {n : Nat} {v : List Char} (h : Count.Writes n v) :
    cellCount? v = if n < Count.bound then CellCount.ofNat? n else none := by
  rw [cellCount?, h.parse?_eq]
  split_ifs <;> rfl

/-- **The limits of a section are those its lines assign**; numbers that are too large are passed over. -/
theorem limits_of_holds {steps : Option Nat} {cells : Option CellCount} {body : List (List Char)} {text : List Char}
    (h : Holds body text) (hbody : ∀ l ∈ body, Allowed steps (cells.map Subtype.val) l)
    (hsteps : ∀ n, steps = some n → n < Count.bound ∧ ∃ l ∈ body, ∃ v, Assigns stepsKey v l ∧ Count.Writes n v)
    (hcells : ∀ m, cells = some m → m.1 < Count.bound ∧ ∃ l ∈ body, ∃ v, Assigns cellsKey v l ∧ Count.Writes m.1 v) :
    limits text = ⟨steps, cells⟩ := by
  have hvalues : ∀ key value, value ∈ values key text ↔ ∃ l ∈ body, Line.ofText l = .setting key value :=
    fun key value => mem_values_of_holds h fun l hl => (hbody l hl).cases.1
  rw [limits_eq]
  congr 1
  · refine lastValid_eq _ (fun v hv => ?_) fun n hn => ?_
    · obtain ⟨l, hl, hset⟩ := (hvalues _ _).1 hv
      obtain ⟨k, hk, heq | hlarge⟩ := (hbody l hl).cases.2.1 v hset
      · exact Or.inr (by rw [hk.parse?_eq, heq, if_pos (hsteps k heq).1])
      · exact Or.inl (by rw [hk.parse?_eq, if_neg (Nat.not_lt.2 hlarge)])
    · obtain ⟨hbound, l, hl, v, hassigns, hwrites⟩ := hsteps n hn
      refine ⟨v, (hvalues _ _).2 ⟨l, hl, ofText_writes word_stepsKey hwrites hassigns⟩, ?_⟩
      rw [hwrites.parse?_eq, if_pos hbound]
  · refine lastValid_eq _ (fun v hv => ?_) fun m hm => ?_
    · obtain ⟨l, hl, hset⟩ := (hvalues _ _).1 hv
      obtain ⟨k, hk, heq | hlarge⟩ := (hbody l hl).cases.2.2 v hset
      · obtain ⟨m, hm, rfl⟩ := Option.map_eq_some_iff.1 heq
        exact Or.inr (by rw [cellCount?_of_writes hk, hm, if_pos (hcells m hm).1, CellCount.ofNat?_val])
      · exact Or.inl (by rw [cellCount?_of_writes hk, if_neg (Nat.not_lt.2 hlarge)])
    · obtain ⟨hbound, l, hl, v, hassigns, hwrites⟩ := hcells m hm
      refine ⟨v, (hvalues _ _).2 ⟨l, hl, ofText_writes word_cellsKey hwrites hassigns⟩, ?_⟩
      rw [cellCount?_of_writes hwrites, if_pos hbound, CellCount.ofNat?_val]

end ConfigFile

end Brainfuck
