/-
Headers as the seams of a config file. A header forgets the section before it: what stands below it is read as if it
were a file of its own (`Headed.limits_readFrom`), and what stands above supplies only the limits left open there. So
sections that do not count can be put in or taken out, and a section said twice is said once. Texts are joined where a
line ends: `stacked a b` puts a line feed between them, a `Closed` text has one already.

Main statement: `limits_split_at_header`, for every line that is a header and all texts around it.
-/
import Mathlib.Tactic
import Brainfuck.Proofs.Limits.Section

namespace Brainfuck

namespace ConfigFile

open Text

/-! ## Texts and their seams -/

/-- a text on the lines below another -/
def stacked (above text : List Char) : List Char := above ++ '\n' :: text

/-- a text of whole lines: empty, or with a line feed at its end -/
def Closed (text : List Char) : Prop := text = [] ∨ ∃ front, text = front ++ ['\n']

/-- the text begins with the line `h` -/
def Begins (h text : List Char) : Prop := text = h ∨ ∃ rest, text = stacked h rest

/-- the first line is a header -/
def Headed (text : List Char) : Prop := ∃ l ls, lines text = l :: ls ∧ IsHeader (trim l)

/-- no line opens the section that counts; other headers may stand there -/
def Untitled (text : List Char) : Prop := ∀ l ∈ lines text, trim l ≠ title

/-- a text ends here, or goes on with a header on a line of its own -/
def Seam (text rest : List Char) : Prop := rest = [] ∨ Closed text ∧ Headed rest

theorem trim_concat_blank {c : Char} (hc : isBlank c = true) (cs : List Char) : trim (cs ++ [c]) = trim cs := by
  have hend : ∀ ds, trimEnd (ds ++ [c]) = trimEnd ds := by
    intro ds
    rw [trimEnd, List.reverse_append, List.reverse_singleton, List.singleton_append, List.dropWhile_cons_of_pos hc,
      trimEnd]
  rw [trim, trim, trimStart, trimStart, List.dropWhile_append]
  split_ifs with hblank
  · rw [List.isEmpty_iff.1 hblank, List.dropWhile_cons_of_pos hc, List.dropWhile_nil]
  · exact hend _

theorem trim_closeLine (cur : List Char) : trim (closeLine cur) = trim cur.reverse := by
  unfold closeLine
  split
  · rw [List.reverse_cons, trim_concat_blank (by decide)]
  · rfl

/-- a line feed ends a line, whatever follows -/
theorem linesFrom_lineFeed (cur a rest : List Char) :
    linesFrom cur (a ++ '\n' :: rest) = linesFrom cur (a ++ ['\n']) ++ lines rest := by
  induction a generalizing cur with
  | nil => rfl
  | cons c a ih =>
    simp only [List.cons_append, linesFrom]
    split_ifs
    · rw [ih, List.cons_append]
    · rw [ih]

theorem lines_line {h : List Char} (hline : '\n' ∉ h) (hne : h ≠ []) : lines h = [h] := by
  have hfrom := linesFrom_append hline [] []
  rw [List.append_nil, List.append_nil] at hfrom
  rw [lines, hfrom, linesFrom, if_neg (by simpa using hne), List.reverse_reverse]

theorem lines_stacked {h : List Char} (hline : '\n' ∉ h) (rest : List Char) :
    lines (stacked h rest) = closeLine h.reverse :: lines rest := by
  rw [lines, stacked, linesFrom_append hline, List.append_nil]
  rfl

theorem headed_of_begins {h text : List Char} (hline : '\n' ∉ h) (hheader : IsHeader (trim h))
    (hbegins : Begins h text) : Headed text := by
  rcases hbegins with rfl | ⟨rest, rfl⟩
  · have hne : text ≠ [] := by
      rintro rfl
      exact absurd hheader (by decide)
    exact ⟨text, [], lines_line hline hne, hheader⟩
  · refine ⟨_, _, lines_stacked hline rest, ?_⟩
    rwa [trim_closeLine, List.reverse_reverse]

theorem Closed.append {a b : List Char} (ha : Closed a) (hb : Closed b) : Closed (a ++ b) := by
  rcases hb with rfl | ⟨front, rfl⟩
  · rwa [List.append_nil]
  · exact Or.inr ⟨a ++ front, (List.append_assoc _ _ _).symm⟩

/-! ## Reading on -/

/-- read a text behind what was read before -/
def readFrom (r : Reading) (text : List Char) : Reading := ((lines text).map Line.ofText).foldl Reading.next r

theorem limits_eq_readFrom (text : List Char) : limits text = (readFrom {} text).limits := rfl

/-- a last line says the same with its line feed and without -/
theorem readFrom_lineFeed (r : Reading) (a : List Char) : readFrom r (a ++ ['\n']) = readFrom r a := by
  suffices h : ∀ cur, ((linesFrom cur (a ++ ['\n'])).map Line.ofText).foldl Reading.next r =
      ((linesFrom cur a).map Line.ofText).foldl Reading.next r from h []
  intro cur
  induction a generalizing cur r with
  | nil =>
    have hclosed : Line.ofText (closeLine cur) = Line.ofText cur.reverse := by
      rw [Line.ofText, trim_closeLine, Line.ofText]
    have hlines : linesFrom cur ([] ++ ['\n']) = [closeLine cur] := rfl
    rw [hlines, List.map_singleton, hclosed, linesFrom]
    split_ifs with hempty
    · rw [List.isEmpty_iff.1 hempty]
      rfl
    · rfl
  | cons c a ih =>
    simp only [List.cons_append, linesFrom]
    split_ifs
    · exact ih _ []
    · exact ih r (c :: cur)

/-- **What stands below is read behind what stands above.** -/
theorem readFrom_stacked (r : Reading) (a rest : List Char) :
    readFrom r (stacked a rest) = readFrom (readFrom r a) rest := by
  have hlines : lines (stacked a rest) = lines (a ++ ['\n']) ++ lines rest := linesFrom_lineFeed [] a rest
  rw [← readFrom_lineFeed r a, readFrom, hlines, List.map_append, List.foldl_append]
  rfl

theorem readFrom_append {front : List Char} (hclosed : Closed front) (r : Reading) (rest : List Char) :
    readFrom r (front ++ rest) = readFrom (readFrom r front) rest := by
  rcases hclosed with rfl | ⟨a, rfl⟩
  · rfl
  · rw [readFrom_lineFeed, List.append_assoc]
    exact readFrom_stacked r a rest

/-- **Below a header only the open limits are left to what was read before.** -/
theorem Headed.limits_readFrom {text : List Char} (h : Headed text) (r : Reading) :
    (readFrom r text).limits = (limits text).or r.limits := by
  obtain ⟨l, ls, hlines, hheader⟩ := h
  obtain ⟨name, hname⟩ := isHeader_iff.1 hheader
  have hnext : ∀ q : Reading, readFrom q text =
      (ls.map Line.ofText).foldl Reading.next { q with inSection := name = sectionName } := by
    intro q
    rw [readFrom, hlines, List.map_cons, List.foldl_cons, ofText_header hname, Reading.next]
  rw [limits_eq_readFrom, hnext, hnext, limits_foldl, limits_foldl]
  simp only [Limits.or, Limits.unset, Option.or_none]

/-- a text that does not open the section sets nothing -/
theorem Untitled.limits_eq_unset {text : List Char} (h : Untitled text) : limits text = .unset := by
  rw [limits_eq, values, values, settings_eq_nil_of_outside h]
  rfl

/-- **The limits of a text and of one below it**, where that begins with a header. -/
theorem Headed.limits_append {front text : List Char} (h : Headed text) (hfront : Closed front) :
    limits (front ++ text) = (limits text).or (limits front) := by
  rw [limits_eq_readFrom, readFrom_append hfront, h.limits_readFrom, ← limits_eq_readFrom]

theorem Headed.limits_stacked {text : List Char} (h : Headed text) (above : List Char) :
    limits (stacked above text) = (limits text).or (limits above) := by
  rw [limits_eq_readFrom, readFrom_stacked, h.limits_readFrom, ← limits_eq_readFrom]

/-- three parts of a text, the middle one a section up to the next seam -/
theorem Seam.limits_append {front s rest : List Char} (h : Seam s rest) (hfront : Closed front) (hs : Headed s) :
    limits (front ++ (s ++ rest)) = (limits rest).or ((limits s).or (limits front)) := by
  rcases h with rfl | ⟨hclosed, hrest⟩
  · have hnothing : limits [] = .unset := rfl
    rw [List.append_nil, hs.limits_append hfront, hnothing, Limits.unset_or]
  · rw [limits_eq_readFrom, readFrom_append hfront, readFrom_append hclosed, hrest.limits_readFrom,
      hs.limits_readFrom, ← limits_eq_readFrom]

/-! ## The seams of a file -/

/-- what a header line does to a file, wherever it stands -/
structure SplitsAt (h : List Char) : Prop where
  /-- what stands below is read on its own, and what stands above fills the gaps -/
  split : ∀ a b, limits (stacked a (stacked h b)) = (limits (stacked h b)).or (limits a)
  stepsBelow : ∀ a b, (limits (stacked h b)).steps ≠ none →
    (limits (stacked a (stacked h b))).steps = (limits (stacked h b)).steps
  stepsAbove : ∀ a b, (limits (stacked h b)).steps = none → (limits (stacked a (stacked h b))).steps = (limits a).steps
  cellsBelow : ∀ a b, (limits (stacked h b)).cells ≠ none →
    (limits (stacked a (stacked h b))).cells = (limits (stacked h b)).cells
  cellsAbove : ∀ a b, (limits (stacked h b)).cells = none → (limits (stacked a (stacked h b))).cells = (limits a).cells
  /-- a section that does not count says nothing in front of a header -/
  inserted : ∀ front s rest, Closed front → Closed s → Begins h s → Untitled s → Headed rest →
    limits (front ++ (s ++ rest)) = limits (front ++ rest)
  /-- nor at the end -/
  appended : ∀ front s, Closed front → Begins h s → Untitled s → limits (front ++ s) = limits front
  /-- a section said twice in a row is said once -/
  repeated : ∀ front s rest, Closed front → Closed s → Begins h s → Seam s rest →
    limits (front ++ (s ++ (s ++ rest))) = limits (front ++ (s ++ rest))
  /-- and so is the last section that counts, said again at the end -/
  copied : ∀ front s rest, Closed front → Begins h s → Seam s rest → Untitled rest →
    limits (stacked (front ++ (s ++ rest)) s) = limits (front ++ (s ++ rest))

/-- **A header splits a config file into independent parts.** -/
theorem limits_split_at_header {h : List Char} (hline : '\n' ∉ h) (hheader : IsHeader (trim h)) : SplitsAt h := by
  have hheaded : ∀ {s}, Begins h s → Headed s := headed_of_begins hline hheader
  have hparts : ∀ a b, limits (stacked a (stacked h b)) = (limits (stacked h b)).or (limits a) :=
    fun a b => (hheaded (Or.inr ⟨b, rfl⟩)).limits_stacked a
  refine ⟨hparts, ?stepsBelow, ?stepsAbove, ?cellsBelow, ?cellsAbove, ?inserted, ?appended, ?repeated, ?copied⟩
  case stepsBelow =>
    intro a b hset
    rw [hparts]
    exact Option.or_of_isSome (Option.isSome_iff_ne_none.2 hset)
  case stepsAbove =>
    intro a b hopen
    rw [hparts]
    exact Option.or_of_isNone (Option.isNone_iff_eq_none.2 hopen)
  case cellsBelow =>
    intro a b hset
    rw [hparts]
    exact Option.or_of_isSome (Option.isSome_iff_ne_none.2 hset)
  case cellsAbove =>
    intro a b hopen
    rw [hparts]
    exact Option.or_of_isNone (Option.isNone_iff_eq_none.2 hopen)
  case inserted =>
    intro front s rest hfront hs hbegins huntitled hrest
    have hseam : Seam s rest := Or.inr ⟨hs, hrest⟩
    rw [hseam.limits_append hfront (hheaded hbegins), huntitled.limits_eq_unset, Limits.unset_or,
      hrest.limits_append hfront]
  case appended =>
    intro front s hfront hbegins huntitled
    rw [(hheaded hbegins).limits_append hfront, huntitled.limits_eq_unset, Limits.unset_or]
  case repeated =>
    intro front s rest hfront hs hbegins hseam
    have hs' := hheaded hbegins
    -- the section read first is whole lines before the second
    have hwhole : Closed (front ++ s) := hfront.append hs
    have hfirst : limits (front ++ s) = (limits s).or (limits front) := hs'.limits_append hfront
    rw [← List.append_assoc, hseam.limits_append hwhole hs', hfirst, Limits.or_or_self, hseam.limits_append hfront hs']
  case copied =>
    intro front s rest hfront hbegins hseam huntitled
    have hs := hheaded hbegins
    rw [hs.limits_stacked, hseam.limits_append hfront hs, huntitled.limits_eq_unset, Limits.unset_or,
      Limits.or_or_self]

/-- a header with blanks around it and a carriage return, between two sections that set one limit each -/
theorem limits_split_at_header_carriage_return : '\n' ∉ " [limits]\r".toList ∧ IsHeader (trim " [limits]\r".toList) ∧
    limits (stacked "[limits]\nmax_steps = 5\nmemory_size = 9".toList
      (stacked " [limits]\r".toList "max_steps = 7".toList)) = ⟨some 7, some ⟨9, by decide⟩⟩ := by
  refine ⟨by decide, by decide, ?_⟩
  have hsplits : SplitsAt " [limits]\r".toList := limits_split_at_header (by decide) (by decide)
  rw [hsplits.split]
  decide

end ConfigFile

end Brainfuck
