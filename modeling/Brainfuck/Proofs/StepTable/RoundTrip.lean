/-
The step table reads back. Each field of a row holds no bar before the fifth one and neither starts nor ends with a
blank of its own, so that cutting and stripping undo the padding (`read?_text`). No row holds a line feed and none ends
in a carriage return, so that the lines of a table are its header and its rows (`lines_tableText`). A row that tells
of output is told apart from every other and gives the byte back (`outputOf?_reading`).

Main statement: `outputs?_tableText`, the bytes read off a written table are the bytes that its rows' actions emit.
-/
import Mathlib.Tactic
import Brainfuck.StepTable.Reading

namespace Brainfuck

/-- does not start with a blank, and stays on its line -/
structure Opens (cs : List Char) : Prop where
  ne_nil : cs ≠ []
  head : cs.head? ≠ some ' '
  line : '\n' ∉ cs

/-- does not end with a blank or a carriage return, and stays on its line -/
structure Ends (cs : List Char) : Prop where
  ne_nil : cs ≠ []
  last : cs.getLast? ≠ some ' '
  last_return : cs.getLast? ≠ some '\r'
  line : '\n' ∉ cs

/-! ## Texts without blanks around them -/

theorem Opens.append {a b : List Char} (h : Opens a) (hb : '\n' ∉ b) : Opens (a ++ b) where
  ne_nil := by simp [h.ne_nil]
  head := by rw [List.head?_append_of_ne_nil _ h.ne_nil]; exact h.head
  line := by simp [h.line, hb]

theorem Ends.append {a b : List Char} (hb : Ends b) (h : '\n' ∉ a) : Ends (a ++ b) where
  ne_nil := by simp [hb.ne_nil]
  last := by rw [List.getLast?_append_of_ne_nil _ hb.ne_nil]; exact hb.last
  last_return := by rw [List.getLast?_append_of_ne_nil _ hb.ne_nil]; exact hb.last_return
  line := by simp [h, hb.line]

theorem not_mem_render {c : Char} (hc : Count.isDigit c = false) (n : Nat) : c ∉ Count.render n := by
  intro h
  rw [Count.isDigit_of_mem_render h] at hc
  cases hc

theorem opens_render (n : Nat) : Opens (Count.render n) where
  ne_nil := Count.render_ne_nil n
  head h := not_mem_render (by decide) n (List.mem_of_head? h)
  line := not_mem_render (by decide) n

theorem ends_render (n : Nat) : Ends (Count.render n) where
  ne_nil := Count.render_ne_nil n
  last h := not_mem_render (by decide) n (List.mem_of_getLast? h)
  last_return h := not_mem_render (by decide) n (List.mem_of_getLast? h)
  line := not_mem_render (by decide) n

theorem tidy_change (front : List Char) (h : Opens front) (p m n : Nat) :
    Opens (front ++ Count.render p ++ "] from ".toList ++ Count.render m ++ " to ".toList ++ Count.render n) ∧
      Ends (front ++ Count.render p ++ "] from ".toList ++ Count.render m ++ " to ".toList ++ Count.render n) := by
  have hcell := (h.append (opens_render p).line).append (b := "] from ".toList) (by decide)
  have hfront := (hcell.append (opens_render m).line).append (b := " to ".toList) (by decide)
  exact ⟨hfront.append (opens_render n).line, (ends_render n).append hfront.line⟩

/-- what an action did is told without blanks around it, on one line -/
theorem tidy_describe (p : Nat) (cell : UInt8) (a : Action) : Opens (a.describe p cell) ∧ Ends (a.describe p cell) := by
  cases a with
  | move q =>
    have hopen : Opens "Moved pointer head to index ".toList := ⟨by decide, by decide, by decide⟩
    exact ⟨hopen.append (opens_render q).line, (ends_render q).append hopen.line⟩
  | increment => exact tidy_change "Increment cell[".toList ⟨by decide, by decide, by decide⟩ _ _ _
  | decrement => exact tidy_change "Decrement cell[".toList ⟨by decide, by decide, by decide⟩ _ _ _
  | write b =>
    have hopen : Opens "Output byte ".toList := ⟨by decide, by decide, by decide⟩
    have hend : Ends " (suppressed in debug)".toList := ⟨by decide, by decide, by decide, by decide⟩
    have hfront := hopen.append (opens_render b.toNat).line
    exact ⟨hfront.append hend.line, hend.append hfront.line⟩
  | read c =>
    have hopen : Opens "Read input ".toList := ⟨by decide, by decide, by decide⟩
    have hfront := (hopen.append (Text.lineFeed_not_mem_quotedChar c)).append (b := " -> ".toList) (by decide)
    exact ⟨hfront.append (opens_render _).line, (ends_render _).append hfront.line⟩
  | skipLoop close =>
    have hopen : Opens "Cell is 0; jump forward past matching ']' at IP ".toList := ⟨by decide, by decide, by decide⟩
    exact ⟨hopen.append (opens_render close).line, (ends_render close).append hopen.line⟩
  | enterLoop =>
    have hopen : Opens "Enter loop (cell != 0)".toList := ⟨by decide, by decide, by decide⟩
    have hend : Ends "Enter loop (cell != 0)".toList := ⟨by decide, by decide, by decide, by decide⟩
    exact ⟨hopen, hend⟩
  | repeatLoop start =>
    have hopen : Opens "Cell != 0; jump back to matching '[' at IP ".toList := ⟨by decide, by decide, by decide⟩
    exact ⟨hopen.append (opens_render start).line, (ends_render start).append hopen.line⟩
  | exitLoop =>
    have hopen : Opens "Exit loop (cell is 0)".toList := ⟨by decide, by decide, by decide⟩
    have hend : Ends "Exit loop (cell is 0)".toList := ⟨by decide, by decide, by decide, by decide⟩
    exact ⟨hopen, hend⟩

/-- a row whose command can be told from the table around it -/
def Row.Legible (r : Row) : Prop := r.command.toChar ∉ ['|', ' ', '\n']

/-- what a reader should get -/
def Row.reading (r : Row) : StepTable.Reading :=
  ⟨r.step, r.ip, r.pointer, r.cell.toNat, r.command.toChar, r.action.describe r.pointer r.cell⟩

namespace StepTable

/-! ## Cutting and stripping -/

theorem cutBars_append {field : List Char} (h : '|' ∉ field) (n : Nat) (rest : List Char) :
    cutBars (n + 1) (field ++ '|' :: rest) = field :: cutBars n rest := by
  have hp : ∀ c ∈ field, (c != '|') = true := fun c hc => by
    simp only [bne_iff_ne]
    rintro rfl
    exact h hc
  simp [cutBars, List.dropWhile_append_of_pos hp, List.takeWhile_append_of_pos hp]

theorem dropWhile_blanks (n : Nat) {cs : List Char} (h : cs.head? ≠ some ' ') :
    (List.replicate n ' ' ++ cs).dropWhile (· == ' ') = cs := by
  induction n with
  | zero =>
    cases cs with
    | nil => rfl
    | cons c cs =>
      have hc : (c == ' ') = false := by simpa using h
      simp [hc]
  | succ n ih => simpa [List.replicate_succ] using ih

/-- stripping undoes padding on both sides -/
theorem strip_blanks (cs : List Char) (hne : cs ≠ []) (hh : cs.head? ≠ some ' ') (hl : cs.getLast? ≠ some ' ')
    (a b : Nat) : strip (List.replicate a ' ' ++ (cs ++ List.replicate b ' ')) = cs := by
  have hh' : (cs ++ List.replicate b ' ').head? ≠ some ' ' := by rwa [List.head?_append_of_ne_nil _ hne]
  have hl' : cs.reverse.head? ≠ some ' ' := by rwa [List.head?_reverse]
  rw [strip, dropWhile_blanks a hh', List.reverse_append, List.reverse_replicate, dropWhile_blanks b hl',
    List.reverse_reverse]

theorem number?_render (n : Nat) : number? (Count.render n) = some n := by
  have hall : (Count.render n).all Count.isDigit = true := List.all_eq_true.2 fun c hc => Count.isDigit_of_mem_render hc
  have hne : (Count.render n).isEmpty = false := by simpa using Count.render_ne_nil n
  simp [number?, hall, hne, Count.value_render]

/-- a number as it stands between two bars, with `before` blanks in front of its column -/
def field (before width n : Nat) : List Char := List.replicate before ' ' ++ (column width n ++ [' '])

theorem bar_not_mem_field (before width n : Nat) : '|' ∉ field before width n := by
  simp [field, column, not_mem_render (c := '|') (by decide) n]

theorem number?_field (before width n : Nat) : number? (strip (field before width n)) = some n := by
  have hcol : column width n ++ [' '] =
      Count.render n ++ List.replicate (width - (Count.render n).length + 1) ' ' := by
    simp [column, List.replicate_succ']
  rw [field, hcol, strip_blanks _ (Count.render_ne_nil n) (opens_render n).head (ends_render n).last, number?_render]

/-! ## Rows -/

theorem text_eq (r : Row) :
    r.text = field 0 4 r.step ++ '|' :: (field 1 3 r.ip ++ '|' :: (field 1 3 r.pointer ++ '|' ::
      (field 1 4 r.cell.toNat ++ '|' :: ([' ', ' ', r.command.toChar, ' ', ' ', ' ', ' '] ++ '|' ::
        ' ' :: r.action.describe r.pointer r.cell)))) := by
  have hlast : "    | ".toList = [' ', ' ', ' ', ' ', '|', ' '] := by decide
  simp [Row.text, bar, field, hlast]

/-- **A row reads back.** -/
theorem read?_text {r : Row} (h : r.Legible) : read? r.text = some r.reading := by
  have hne : r.command.toChar ≠ '|' ∧ r.command.toChar ≠ ' ' ∧ r.command.toChar ≠ '\n' := by
    simpa [Row.Legible] using h
  obtain ⟨hopen, hend⟩ := tidy_describe r.pointer r.cell r.action
  have hbar : '|' ∉ [' ', ' ', r.command.toChar, ' ', ' ', ' ', ' '] := by simp [hne.1.symm]
  have hcut : cutBars 5 r.text = [field 0 4 r.step, field 1 3 r.ip, field 1 3 r.pointer, field 1 4 r.cell.toNat,
      [' ', ' ', r.command.toChar, ' ', ' ', ' ', ' '], ' ' :: r.action.describe r.pointer r.cell] := by
    rw [text_eq, cutBars_append (bar_not_mem_field 0 4 _), cutBars_append (bar_not_mem_field 1 3 _),
      cutBars_append (bar_not_mem_field 1 3 _), cutBars_append (bar_not_mem_field 1 4 _), cutBars_append hbar, cutBars]
  have hcommand : strip [' ', ' ', r.command.toChar, ' ', ' ', ' ', ' '] = [r.command.toChar] :=
    strip_blanks [r.command.toChar] (by simp) (by simp [hne.2.1]) (by simp [hne.2.1]) 2 4
  have haction : strip (' ' :: r.action.describe r.pointer r.cell) = r.action.describe r.pointer r.cell := by
    have h1 := strip_blanks _ hopen.ne_nil hopen.head hend.last 1 0
    simpa using h1
  simp only [read?, hcut, number?_field, hcommand, haction]
  rfl

/-- a text between the two parts that tell of output is read as a number -/
theorem outputOf?_between (r : Reading) (ds : List Char)
    (h : r.action = "Output byte ".toList ++ ds ++ " (suppressed in debug)".toList) : outputOf? r = number? ds := by
  have hfront : "Output byte ".toList.isPrefixOf r.action = true := by
    rw [List.isPrefixOf_iff_prefix, h, List.append_assoc]
    exact List.prefix_append _ _
  have hback : " (suppressed in debug)".toList.isSuffixOf r.action = true := by
    rw [List.isSuffixOf_iff_suffix, h]
    exact List.suffix_append _ _
  have hlength : r.action.length - "Output byte ".toList.length - " (suppressed in debug)".toList.length =
      ds.length := by
    simp only [h, List.length_append]
    omega
  have hbetween : (r.action.drop "Output byte ".toList.length).take ds.length = ds := by
    rw [h, List.append_assoc, List.drop_left, List.take_left]
  simp only [outputOf?, hfront, hback, and_self, if_true, hlength, hbetween]

/-- **A row tells of output exactly when its action emits a byte**, and tells which. -/
theorem outputOf?_reading (r : Row) : outputOf? r.reading = r.action.emitted.map UInt8.toNat := by
  -- only one action is told in words that start as those that tell of output do
  have hother : "Output byte ".toList.isPrefixOf r.reading.action = false → outputOf? r.reading = none := fun h => by
    simp only [outputOf?, h, Bool.false_eq_true, false_and, if_false]
  cases ha : r.action with
  | write b =>
    have hbyte : outputOf? r.reading = number? (Count.render b.toNat) :=
      outputOf?_between _ _ (by rw [Row.reading, ha]; rfl)
    rw [hbyte, number?_render]
    rfl
  | _ => exact hother (by rw [Row.reading, ha]; rfl)

/-! ## Tables -/

/-- a table as it is written -/
def tableText (rows : List Row) : List Char := (tableHeader ++ rows.map Row.text).flatMap (· ++ ['\n'])

theorem tableText_snoc (rows : List Row) (r : Row) :
    tableText (rows ++ [r]) = tableText rows ++ (r.text ++ ['\n']) := by
  simp [tableText]

theorem ends_text {r : Row} (h : r.Legible) : Ends r.text := by
  have hcommand : '\n' ≠ r.command.toChar := fun hc => h (by simp [← hc])
  have hdigits : ∀ n, '\n' ∉ Count.render n := not_mem_render (by decide)
  exact (tidy_describe r.pointer r.cell r.action).2.append (by simp [column, bar, hdigits, hcommand])

theorem ends_of_mem_table {rows : List Row} (h : ∀ r ∈ rows, r.Legible) {l : List Char}
    (hl : l ∈ tableHeader ++ rows.map Row.text) : Ends l := by
  rcases List.mem_append.1 hl with hl | hl
  · have hheader : ∀ l ∈ tableHeader, l ≠ [] ∧ l.getLast? ≠ some ' ' ∧ l.getLast? ≠ some '\r' ∧ '\n' ∉ l := by decide
    obtain ⟨h1, h2, h3, h4⟩ := hheader l hl
    exact ⟨h1, h2, h3, h4⟩
  · obtain ⟨r, hr, rfl⟩ := List.mem_map.1 hl
    exact ends_text (h r hr)

theorem lines_tableText {rows : List Row} (h : ∀ r ∈ rows, r.Legible) :
    Text.lines (tableText rows) = tableHeader ++ rows.map Row.text :=
  Text.lines_flatMap (fun _ hl => (ends_of_mem_table h hl).line) (fun _ hl => (ends_of_mem_table h hl).last_return)

theorem readAll?_tableText {rows : List Row} (h : ∀ r ∈ rows, r.Legible) :
    readAll? (tableText rows) = some (rows.map Row.reading) := by
  have hrows : (tableHeader ++ rows.map Row.text).drop 2 = rows.map Row.text := rfl
  rw [readAll?, lines_tableText h, hrows]
  clear hrows
  induction rows with
  | nil => rfl
  | cons r rows ih =>
    have htail := ih (fun r' hr' => h r' (List.mem_cons_of_mem r hr'))
    simp only [List.map_cons, List.mapM_cons, read?_text (h r List.mem_cons_self), htail]
    rfl

/-- **A written table tells the bytes that its rows' actions emit**, in their order. -/
theorem outputs?_tableText {rows : List Row} (h : ∀ r ∈ rows, r.Legible) :
    outputs? (Text.encode (tableText rows)) = some ((rows.filterMap (·.action.emitted)).map UInt8.toNat) := by
  have hfield : ∀ rs : List Row, (rs.map Row.reading).filterMap outputOf? =
      (rs.filterMap (·.action.emitted)).map UInt8.toNat := by
    intro rs
    rw [List.filterMap_map, List.map_filterMap]
    exact congrArg (List.filterMap · rs) (funext outputOf?_reading)
  rw [outputs?, Text.decode?_encode]
  simp only [Option.bind_eq_bind, Option.bind_some, readAll?_tableText h, hfield]
  rfl

theorem outputs?_nil : outputs? [] = some [] := by
  have h : Text.decode? [] = some [] := Text.decode?_encode []
  rw [outputs?, h]
  rfl

end StepTable

end Brainfuck
