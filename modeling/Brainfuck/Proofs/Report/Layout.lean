/-
How the report of an error is laid out. The window is two lines: a stretch of the program in which no character breaks
the line, and a caret in the column of the character at the position. The message is one line too, whatever character
it quotes, so that a report with a window has three lines.

Main statement: `error_reported_in_three_lines`. What a window shows is told by `Window.Frames`. A text in memory is cut
by bytes: `Window.aroundBytes?` cuts it there, and shows the same wherever there is a window (`aroundBytes?_eq`).
-/
import Mathlib.Tactic
import Brainfuck.Proofs.Report.Pointing
import Brainfuck.Text.Line
import Brainfuck.Text.Utf8

namespace Brainfuck

/-! ## Cutting a text by bytes -/

namespace Text

/-- the byte at which the character with this index starts; behind the last character, the number of bytes -/
def byteOffset : List Char → Nat → Nat
  | _, 0 => 0
  | [], _ + 1 => 0
  | c :: cs, k + 1 => c.utf8Size + byteOffset cs k

theorem byteOffset_eq (cs : List Char) (k : Nat) : byteOffset cs k = (encode (cs.take k)).length := by
  induction cs generalizing k with
  | nil => cases k <;> rfl
  | cons c cs ih =>
    cases k with
    | zero => rfl
    | succ k => rw [byteOffset, ih, List.take_succ_cons, encode_cons, List.length_append,
        String.length_utf8EncodeChar]

/-- the byte offsets are in the order of the characters -/
theorem byteOffset_le_iff (cs : List Char) (first last : Nat) :
    byteOffset cs first ≤ byteOffset cs last ↔ min first cs.length ≤ last := by
  have hclip : cs.take first = cs.take (min first cs.length) := List.take_eq_take_min
  rw [byteOffset_eq, byteOffset_eq, hclip]
  constructor
  · intro hle
    by_contra hlt
    obtain ⟨d, hd⟩ := Nat.exists_eq_add_of_lt (Nat.lt_of_not_le hlt)
    have hmore : (cs.drop last).take (d + 1) ≠ [] := by
      intro hnil
      have hlength := congrArg List.length hnil
      simp only [List.length_take, List.length_drop, List.length_nil] at hlength
      omega
    obtain ⟨c, more, hcons⟩ := List.exists_cons_of_ne_nil hmore
    have hpos := c.utf8Size_pos
    rw [hd, Nat.add_assoc, List.take_add, hcons, encode_append, encode_cons, List.length_append, List.length_append,
      String.length_utf8EncodeChar] at hle
    omega
  · intro hle
    obtain ⟨d, rfl⟩ := Nat.exists_eq_add_of_le hle
    rw [List.take_add, encode_append, List.length_append]
    exact Nat.le_add_right _ _

theorem take_append_slice {α : Type} (cs : List α) {first last : Nat} (h : first ≤ last) :
    cs.take first ++ (cs.take last).drop first = cs.take last := by
  have hfront : cs.take first = (cs.take last).take first := by rw [List.take_take, Nat.min_eq_left h]
  rw [hfront, List.take_append_drop]

theorem byteSlice?_byteOffset (cs : List Char) {first last : Nat} (h : first ≤ last) :
    byteSlice? cs (byteOffset cs first) (byteOffset cs last) = some ((cs.take last).drop first) := by
  have hlast : byteOffset cs last = (encode (cs.take first)).length + (encode ((cs.take last).drop first)).length := by
    rw [byteOffset_eq, ← List.length_append, ← encode_append, take_append_slice cs h]
  have hslice := byteSlice?_append (cs.take first) ((cs.take last).drop first) (cs.drop last)
  rw [take_append_slice cs h, List.take_append_drop] at hslice
  rw [byteOffset_eq cs first, hlast, hslice]

/-! ## Texts of one line -/

/-- a text without a line feed -/
def OneLine (s : String) : Prop := '\n' ∉ s.toList

instance (s : String) : Decidable (OneLine s) := inferInstanceAs (Decidable (¬ _))

theorem oneLine_append {s t : String} : OneLine (s ++ t) ↔ OneLine s ∧ OneLine t := by
  rw [OneLine, String.toList_append, List.mem_append, not_or, OneLine, OneLine]

theorem oneLine_repr (n : Nat) : OneLine n.repr := by
  intro h
  have hdigit : Count.isDigit '\n' = true := by
    apply Count.isDigit_of_mem_render
    rwa [Count.render, ← Nat.toList_repr]
  revert hdigit
  decide

theorem oneLine_quotedChar (c : Char) : OneLine (String.ofList (quotedChar c)) := by
  rw [OneLine, String.toList_ofList]
  exact lineFeed_not_mem_quotedChar c

end Text

/-! ## The window at a position -/

namespace Window

theorem shownAs_ne_lineFeed (c : Char) : shownAs c ≠ '\n' := by
  unfold shownAs
  split
  · decide
  · rename_i hcontrol
    rintro rfl
    exact hcontrol (by decide)

/-- the window cut out by bytes: it fails where the cut would end before it starts, or split a character -/
def aroundBytes? (code : List Char) (pos : Nat) : Option Window :=
  let first := Text.byteOffset code (start pos)
  let last := Text.byteOffset code (stop code.length pos)
  if first ≤ last then
    (Text.byteSlice? code first last).map fun slice => ⟨slice.map shownAs, pos - start pos⟩
  else none

/-- where a window starts behind the last character, it starts behind the last byte -/
theorem byteOffset_start (code : List Char) (pos : Nat) :
    Text.byteOffset code (start pos) = Text.byteOffset code (min (start pos) code.length) := by
  rw [Text.byteOffset_eq, Text.byteOffset_eq, ← List.take_eq_take_min]

/-- **A window cut out by bytes is the one cut out by characters**, for every text and every position. -/
theorem aroundBytes?_eq (code : List Char) (pos : Nat) : aroundBytes? code pos = around? code pos := by
  by_cases h : min (start pos) code.length ≤ stop code.length pos
  · have hbytes := (Text.byteOffset_le_iff code (start pos) (stop code.length pos)).2 h
    simp only [aroundBytes?, if_pos hbytes, around?, if_pos h]
    rw [byteOffset_start, Text.byteSlice?_byteOffset code h]
    rfl
  · have hbytes := mt (Text.byteOffset_le_iff code (start pos) (stop code.length pos)).1 h
    simp only [aroundBytes?, if_neg hbytes, around?, if_neg h]

/-- `slice` is cut out of a program at two bytes that lie between characters, the first not behind the last -/
structure CutAt (code : List Char) (first last : Nat) (slice : List Char) : Prop where
  ordered : first ≤ last
  between : ∃ before after, code = before ++ slice ++ after ∧ first = (Text.encode before).length ∧
    last = (Text.encode (before ++ slice)).length
  slice : Text.byteSlice? code first last = some slice

variable {code : List Char} {pos : Nat} {w : Window}

/-- every window is cut out between characters -/
theorem exists_cutAt (h : around? code pos = some w) : ∃ slice, w.shown = slice.map shownAs ∧
    CutAt code (Text.byteOffset code (start pos)) (Text.byteOffset code (stop code.length pos)) slice := by
  simp only [around?] at h
  split at h
  · rename_i hle
    cases h
    refine ⟨_, rfl, (Text.byteOffset_le_iff code _ _).2 hle, ?_, ?_⟩
    · refine ⟨code.take (min (start pos) code.length), code.drop (stop code.length pos), ?_, ?_, ?_⟩
      · rw [Text.take_append_slice code hle, List.take_append_drop]
      · rw [byteOffset_start, Text.byteOffset_eq]
      · rw [Text.byteOffset_eq, Text.take_append_slice code hle]
    · rw [byteOffset_start, Text.byteSlice?_byteOffset code hle]
  · cases h

theorem lineFeed_not_mem_shown (h : around? code pos = some w) : '\n' ∉ w.shown := by
  obtain ⟨slice, hshown, -⟩ := exists_cutAt h
  rw [hshown, List.mem_map]
  rintro ⟨c, -, hc⟩
  exact shownAs_ne_lineFeed c hc

theorem count_text (h : around? code pos = some w) : w.text.count '\n' = 2 := by
  have hcode : w.shown.count '\n' = 0 := List.count_eq_zero.2 (lineFeed_not_mem_shown h)
  have hcaret : (List.replicate w.caret ' ').count '\n' = 0 := by
    rw [List.count_eq_zero, List.mem_replicate]
    rintro ⟨-, hblank⟩
    cases hblank
  simp [text, hcode, hcaret]

/-- what a window shows of a program around a position -/
structure Frames (w : Window) (code : List Char) (pos : Nat) : Prop where
  /-- two lines, with the caret at the end of the second -/
  text_eq : w.text = ' ' :: ' ' :: w.shown ++ '\n' :: (List.replicate (2 + min pos reach) ' ' ++ ['^', '\n'])
  count_text : w.text.count '\n' = 2
  /-- the characters from `reach` before the position up to `reach` behind it, as far as the program goes -/
  length_shown : w.shown.length = min code.length (pos + reach + 1) - (pos - reach)
  getElem?_shown : ∀ k < w.shown.length, w.shown[k]? = code[pos - reach + k]?.map shownAs
  length_shown_le : w.shown.length ≤ 2 * reach + 1
  /-- the character at the position stands above the caret; behind the end of the program nothing does -/
  column : (' ' :: ' ' :: w.shown)[2 + min pos reach]? = code[pos]?.map shownAs
  cut : ∃ slice, w.shown = slice.map shownAs ∧
    CutAt code (Text.byteOffset code (start pos)) (Text.byteOffset code (stop code.length pos)) slice

/-- **The window at a position frames it**: it shows the right slice, with the caret under the right character. -/
theorem exists_frames (code : List Char) {pos : Nat} (h : pos + reach + 1 < Count.bound) :
    ∃ w, around? code pos = some w ∧ w.Frames code pos := by
  have hw := around?_eq code h
  have hcut := exists_cutAt hw
  have hcount := count_text hw
  generalize hslice : (code.take (pos + reach + 1)).drop (pos - reach) = slice at hw hcut hcount
  have hget (k : Nat) (hk : pos - reach + k < pos + reach + 1) : slice[k]? = code[pos - reach + k]? := by
    rw [← hslice, List.getElem?_drop, List.getElem?_take, if_pos hk]
  have hlength : slice.length = min code.length (pos + reach + 1) - (pos - reach) := by
    rw [← hslice, List.length_drop, List.length_take, Nat.min_comm]
  have hcaret : pos - reach + min pos reach = pos := by omega
  have hat := hget (min pos reach) (by omega)
  rw [hcaret] at hat
  exact ⟨_, hw, {
    text_eq := by
      rw [Nat.add_comm 2, List.replicate_succ, List.replicate_succ]
      simp [text]
    count_text := hcount
    length_shown := by rw [List.length_map, hlength]
    getElem?_shown := by
      intro k hk
      rw [List.length_map, hlength] at hk
      rw [List.getElem?_map, hget k (by omega)]
    length_shown_le := by
      rw [List.length_map, hlength]
      omega
    column := by
      rw [Nat.add_comm 2, List.getElem?_cons_succ, List.getElem?_cons_succ, List.getElem?_map, hat]
    cut := hcut }⟩

end Window

/-! ## The report of an error -/

open Text in
/-- every error is told in one line, unless it quotes the failure of a device -/
theorem RunError.oneLine_message {e : RunError} (h : ∀ ip cause, e ≠ .notWritten ip cause) : OneLine e.message := by
  -- unfolded before the cases: the equations of `message` are too large to rewrite with
  unfold RunError.message
  cases e with
  | notWritten ip cause => exact absurd rfl (h ip cause)
  | unmatchedBracket b ip =>
    have hquoted : OneLine b.quoted := by cases b <;> decide
    simp only [toString, oneLine_append, hquoted, oneLine_repr]
    decide
  | offTape edge ip p =>
    have hdescribe : OneLine edge.describe := by cases edge <;> decide
    simp only [toString, oneLine_append, hdescribe, oneLine_repr]
    decide
  | notACommand c ip =>
    simp only [toString, oneLine_append, oneLine_quotedChar, oneLine_repr]
    decide
  | stepLimitReached n | noInput n | tapeTooLong n =>
    simp only [toString, oneLine_append, oneLine_repr]
    decide

theorem Category.oneLine_title (c : Category) : Text.OneLine c.title := by
  cases c <;> decide

namespace Report

/-- a report of three lines: the message, the stretch of the program, and the caret -/
structure InThreeLines (report message : String) (w : Window) : Prop where
  toList_eq : report.toList = message.toList ++ '\n' :: w.text
  oneLine : Text.OneLine message
  count_report : report.toList.count '\n' = 3

variable {name : Option String} {e : RunError}

theorem oneLine_headline_iff :
    Text.OneLine (headline name e) ↔ (∀ n, name = some n → Text.OneLine n) ∧ Text.OneLine e.message := by
  have htold : Text.OneLine (e.category.title ++ ": " ++ e.message) ↔ Text.OneLine e.message := by
    rw [Text.oneLine_append, Text.oneLine_append]
    exact and_iff_right ⟨e.category.oneLine_title, by decide⟩
  have hcolon : Text.OneLine ": " := by decide
  cases name with
  | none => simp [headline, htold]
  | some n =>
    rw [headline, Text.oneLine_append, Text.oneLine_append, htold, and_iff_left hcolon]
    simp

theorem oneLine_paint_iff {terminal : Bool} {message : String} :
    Text.OneLine (paint terminal message) ↔ Text.OneLine message := by
  cases terminal with
  | false => rfl
  | true =>
    have hstart : Text.OneLine "\x1b[1;31m" := by decide
    have hstop : Text.OneLine "\x1b[0m" := by decide
    rw [paint, if_pos rfl, Text.oneLine_append, Text.oneLine_append, and_iff_left hstop, and_iff_right hstart]

/-- **An error is reported in three lines, with the caret under the character it points at.** Every position below the
top of the word range has a window that frames it, whether it is cut out by characters or by bytes. The report of an
error that points at a position, and does not quote a device, is its message, which is one line, and that window; there
is such a report wherever there is a window. -/
theorem error_reported_in_three_lines (code : List Char) :
    (∀ pos, pos + Window.reach + 1 < Count.bound →
      ∃ w, Window.around? code pos = some w ∧ Window.aroundBytes? code pos = some w ∧ w.Frames code pos) ∧
    ∀ terminal name e pos, e.position = some pos → (∀ ip cause, e ≠ .notWritten ip cause) →
      (∀ n, name = some n → Text.OneLine n) →
      (pos + Window.reach + 1 < Count.bound → (runError? terminal name code e).isSome) ∧
      ∀ report, runError? terminal name code e = some report →
        ∃ w, Window.around? code pos = some w ∧ InThreeLines report (paint terminal (headline name e)) w := by
  constructor
  · intro pos hpos
    obtain ⟨w, hw, hframes⟩ := Window.exists_frames code hpos
    exact ⟨w, hw, (Window.aroundBytes?_eq code pos).trans hw, hframes⟩
  · intro terminal name e pos hip he hname
    have hreport : runError? terminal name code e = (Window.around? code pos).map fun w =>
        paint terminal (headline name e) ++ "\n" ++ String.ofList w.text := by
      simp only [runError?, hip]
    constructor
    · intro hpos
      rw [hreport, Window.around?_eq code hpos]
      rfl
    · intro report h
      rw [hreport, Option.map_eq_some_iff] at h
      obtain ⟨w, hw, rfl⟩ := h
      have hmessage : Text.OneLine (paint terminal (headline name e)) :=
        oneLine_paint_iff.2 (oneLine_headline_iff.2 ⟨hname, RunError.oneLine_message he⟩)
      have htoList : (paint terminal (headline name e) ++ "\n" ++ String.ofList w.text).toList =
          (paint terminal (headline name e)).toList ++ '\n' :: w.text := by
        simp
      refine ⟨w, hw, htoList, hmessage, ?_⟩
      rw [htoList, List.count_append, List.count_cons_self, List.count_eq_zero.2 hmessage, Window.count_text hw]

/-- a program with a letter of two bytes and a line feed before the bracket that is at fault, reported on a terminal -/
theorem error_reported_in_three_lines_line_feed :
    2 + Window.reach + 1 < Count.bound ∧ Text.OneLine "bf" ∧
      ∃ w, Window.around? "é\n]".toList 2 = some w ∧ w.Frames "é\n]".toList 2 ∧ w.shown = "é·]".toList ∧
        ∃ report, runError? true (some "bf") "é\n]".toList (.unmatchedBracket .closing 2) = some report ∧
          InThreeLines report (paint true (headline (some "bf") (.unmatchedBracket .closing 2))) w := by
  have hbound : 2 + Window.reach + 1 < Count.bound := by decide
  have hname : Text.OneLine "bf" := by decide
  obtain ⟨hwindow, hreport⟩ := error_reported_in_three_lines "é\n]".toList
  obtain ⟨w, hw, -, hframes⟩ := hwindow 2 hbound
  obtain ⟨hsome, hlines⟩ := hreport true (some "bf") (.unmatchedBracket .closing 2) 2 rfl (fun _ _ => nofun)
    (fun n hn => Option.some.inj hn ▸ hname)
  obtain ⟨report, hr⟩ := Option.isSome_iff_exists.1 (hsome hbound)
  obtain ⟨w', hw', hthree⟩ := hlines report hr
  obtain rfl : w' = w := Option.some.inj (hw'.symm.trans hw)
  have hshown : (Window.around? "é\n]".toList 2).map Window.shown = some "é·]".toList := by decide
  rw [hw] at hshown
  exact ⟨hbound, hname, w', hw, hframes, Option.some.inj hshown, report, hr, hthree⟩

end Report

end Brainfuck
