/-
The step table is the trace of a run. On a sink that never fails each executed instruction adds one row, written from
the configuration that stands before it (`exists_rows`), and a run that ends adds nothing more. Since the next
configuration is the last one with the action applied, consecutive rows are steps of the machine (`Performs.leads`); how
much input was read by then is told by the rows too (`RowsOf.consumed_eq`).

Main statement: `table_tells_run`, for every loaded balanced program:
- the table has its two header lines and one row for each instruction that was executed, each on a line of its own;
- row `n` reads back as the machine stood before instruction `n`;
- consecutive rows keep to the step relation `StepTable.Leads`, in which a read takes the character that the number of
  reads in the rows before it points at.
-/
import Mathlib.Tactic
import Brainfuck.Proofs.Execution.Trace
import Brainfuck.Proofs.Execution.Views
import Brainfuck.Proofs.Safety.Bounds

namespace Brainfuck

open Sink

/-! ## What is to be shown -/

namespace StepTable

/-- how many of the first `n` rows tell of a read -/
def readsBefore (rows : List (List Char)) (n : Nat) : Nat :=
  (rows.take n).countP fun l => (read? l).any (·.command == ',')

/-- how a machine with `cells` cells, after it has read `consumed` characters, moves from one row to the next, as far as
rows tell it -/
inductive Moves (program input : List Char) (cells consumed : Nat) (r r' : Reading) : Prop
  | moveRight (command : r.command = '>') (ip : r'.ip = r.ip + 1) (pointer : r'.pointer = r.pointer + 1)
    (room : r'.pointer < cells)
  | moveLeft (command : r.command = '<') (ip : r'.ip = r.ip + 1) (pointer : r.pointer = r'.pointer + 1)
  | increment (command : r.command = '+') (ip : r'.ip = r.ip + 1) (pointer : r'.pointer = r.pointer)
    (cell : r'.cell = (r.cell + 1) % 256)
  | decrement (command : r.command = '-') (ip : r'.ip = r.ip + 1) (pointer : r'.pointer = r.pointer)
    (cell : r'.cell = (r.cell + 255) % 256)
  | write (command : r.command = '.') (ip : r'.ip = r.ip + 1) (pointer : r'.pointer = r.pointer)
    (cell : r'.cell = r.cell)
  | read (command : r.command = ',') (ip : r'.ip = r.ip + 1) (pointer : r'.pointer = r.pointer)
    (cell : ∃ x, input[consumed]? = some x ∧ r'.cell = x.toNat % 256)
  | skipLoop (command : r.command = '[') (zero : r.cell = 0)
    (ip : ∃ close, Closes (program.map Command.ofChar) r.ip close ∧ r'.ip = close + 1)
    (pointer : r'.pointer = r.pointer) (cell : r'.cell = r.cell)
  | enterLoop (command : r.command = '[') (nonzero : r.cell ≠ 0) (ip : r'.ip = r.ip + 1)
    (pointer : r'.pointer = r.pointer) (cell : r'.cell = r.cell)
  | exitLoop (command : r.command = ']') (zero : r.cell = 0) (ip : r'.ip = r.ip + 1)
    (pointer : r'.pointer = r.pointer) (cell : r'.cell = r.cell)
  | repeatLoop (command : r.command = ']') (nonzero : r.cell ≠ 0)
    (ip : Closes (program.map Command.ofChar) r'.ip r.ip) (pointer : r'.pointer = r.pointer) (cell : r'.cell = r.cell)

/-- the step relation of the machine between two rows -/
structure Leads (program input : List Char) (cells consumed : Nat) (r r' : Reading) : Prop where
  step : r'.step = r.step + 1
  moves : Moves program input cells consumed r r'

/-- a row tells of instruction `n`, with the machine at `c` before it -/
structure Tells (program : List Char) (n : Nat) (c : Config) (r : Reading) : Prop where
  step : r.step = n
  ip : r.ip = c.ip
  pointer : r.pointer = c.store.pointer
  cell : r.cell = c.store.cell.toNat
  command : program[c.ip]? = some r.command

end StepTable

namespace Config

variable {j : Job} {c c' : Config}

/-- where nothing is performed, the advance that ends a run leaves the sink alone -/
theorem Stops.sink_eq {σ : Type} [Sink σ] {s s' : σ} {o : Outcome} (h : c.Stops j s c' s' o)
    (hnot : ∀ command a, c.turn j ≠ .performed command a) : s' = s := by
  cases h with
  | notWritten ht => exact absurd ht (hnot _ _)
  | _ => rfl

/-- within the limit, a run that stops at it has executed as many instructions -/
theorem Stops.limit_eq {σ : Type} [Sink σ] {s s' : σ} {l : Nat} (h : c.Stops j s c' s' (.error (.stepLimitReached l)))
    (hsteps : ∀ l ∈ j.stepLimit, c.steps ≤ l) : l = c.steps := by
  cases h with
  | limitReached ht =>
    obtain ⟨hlimit, hle⟩ := Option.filter_eq_some_iff.1 (turn_eq_limitReached ht)
    exact Nat.le_antisymm (by simpa using hle) (hsteps l hlimit)
  | refused ht =>
    obtain ⟨command, -, -, hdecide⟩ := turn_eq_refused ht
    cases Job.refuses_of_decide hdecide

end Config

namespace Interpreter

open Config StepTable

variable {σ : Type} [Sink σ]

/-- the lines `rows` tell of a run of `k` instructions that ended with `f`, on a tape of `cells` cells -/
structure Traced [Lawful σ] (i : Interpreter) (program input : List Char) (cells : Nat) (sink : σ) (journal : Journal)
    (f : Finished σ) (k : Nat) (rows : List (List Char)) : Prop where
  /-- the run executed `k` instructions and then ended -/
  completed : i.EndsAfter k .table sink journal f
  steps : ∀ summary, f.outcome = .ok summary → summary.steps = k
  limit : ∀ l, f.outcome = .error (.stepLimitReached l) → l = k
  /-- any other end is that of the instruction behind them -/
  failing : ∀ e, f.outcome = .error e → (∀ l, e ≠ .stepLimitReached l) →
    ∃ command c, i.Dispatches k .table sink journal command c f.sink
  length : (tableHeader ++ rows).length = k + 2
  written : taken f.sink = taken sink ++ Text.encode ((tableHeader ++ rows).flatMap (· ++ ['\n']))
  line : ∀ l ∈ tableHeader ++ rows, '\n' ∉ l
  told : ∀ n l, rows[n]? = some l →
    ∃ command c s r, i.Dispatches n .table sink journal command c s ∧ read? l = some r ∧ Tells program n c r
  stepwise : ∀ n l l', rows[n]? = some l → rows[n + 1]? = some l' →
    ∃ r r', read? l = some r ∧ read? l' = some r' ∧ Leads program input cells (readsBefore rows n) r r'

/-! ## Rows of executed instructions -/

/-- instruction `n` of the run with brackets `m` is executed, as `command` with action `a` -/
structure Performs (i : Interpreter) (m : Matching) (n : Nat) (sink : σ) (journal : Journal) (c : Config)
    (command : Command) (a : Action) : Prop where
  reaches : ∃ s, i.Reaches n .table sink journal c s
  performed : c.turn (i.job m .table) = .performed command a
  next : ∃ s, i.Reaches (n + 1) .table sink journal (c.apply a) s

variable {i : Interpreter} {m : Matching} {n : Nat} {sink s s₀ : σ} {journal : Journal} {c d : Config}
  {command command' : Command} {a a' : Action} {program input : List Char} {limits : Limits}

theorem Performs.decides (h : i.Performs m n sink journal c command a) :
    (i.job m .table).Decides c.store c.ip command a :=
  Job.decides_of_decide (turn_eq_performed h.performed).2.2

theorem Performs.legible (h : i.Performs m n sink journal c command a) : (c.row command a).Legible :=
  Job.legible_of_decide (turn_eq_performed h.performed).2.2

theorem Performs.tells (hi : load program input limits = .ok i) (hl : i.Launched .table sink journal m s₀)
    (h : i.Performs m n sink journal c command a) : Tells program n c (c.row command a).reading := by
  obtain ⟨s, hreaches⟩ := h.reaches
  have hcommand : i.program[c.ip]? = some command := (turn_eq_performed h.performed).1
  rw [getElem?_program_of_load hi, Option.map_eq_some_iff] at hcommand
  obtain ⟨x, hx, rfl⟩ := hcommand
  refine ⟨hl.steps_eq hreaches, rfl, rfl, rfl, ?_⟩
  rw [hx, Row.reading, row, Command.toChar_ofChar]

/-- **One instruction makes one step of the machine.** -/
theorem moves_of_decides {j : Job} (hm : j.matching.Correct (program.map Command.ofChar)) (hj : j.input = input.toArray)
    (hp : (program.map Command.ofChar)[c.ip]? = some command) (hc : c.store.pointer < c.store.cells.size)
    (h : j.Decides c.store c.ip command a) (command' : Command) (a' : Action) :
    Moves program input c.store.cells.size c.store.consumed (c.row command a).reading
      ((c.apply a).row command' a').reading := by
  cases h with
  | moveRight h => exact .moveRight rfl rfl rfl h
  | moveLeft h => exact .moveLeft rfl rfl (Nat.sub_add_cancel h).symm
  | increment =>
    refine .increment rfl rfl rfl ?_
    calc ((c.store.setCell (c.store.cell + 1)).cell).toNat
        = (c.store.cell + 1).toNat := by rw [Store.cell_setCell hc]
      _ = (c.store.cell.toNat + 1) % 256 := UInt8.toNat_add ..
  | decrement =>
    refine .decrement rfl rfl rfl ?_
    calc ((c.store.setCell (c.store.cell - 1)).cell).toNat
        = (c.store.cell - 1).toNat := by rw [Store.cell_setCell hc]
      _ = (c.store.cell.toNat + 255) % 256 := by rw [UInt8.toNat_sub, Nat.add_comm]; rfl
  | write => exact .write rfl rfl rfl rfl
  | read h =>
    rename_i x
    rw [hj, List.getElem?_toArray] at h
    refine .read rfl rfl rfl ⟨x, h, ?_⟩
    calc ((c.store.setCell (lowByte x)).cell).toNat
        = (lowByte x).toNat := by rw [Store.cell_setCell hc]
      _ = x.toNat % 256 := toNat_lowByte x
  | skipLoop h =>
    exact .skipLoop rfl (by simp [Row.reading, row, h]) ⟨_, hm.starts _ hp, rfl⟩ rfl rfl
  | enterLoop h =>
    exact .enterLoop rfl (fun hz => h (UInt8.toNat_inj.1 hz)) rfl rfl rfl
  | exitLoop h => exact .exitLoop rfl (by simp [Row.reading, row, h]) rfl rfl rfl
  | repeatLoop h => exact .repeatLoop rfl (fun hz => h (UInt8.toNat_inj.1 hz)) (hm.ends _ hp) rfl rfl

/-- consecutive instructions lead from one row to the next -/
theorem Performs.leads (hi : load program input limits = .ok i) (hl : i.Launched .table sink journal m s₀)
    (h : i.Performs m n sink journal c command a) (h' : i.Performs m (n + 1) sink journal d command' a') :
    Leads program input limits.tapeLength c.store.consumed (c.row command a).reading
      (d.row command' a').reading := by
  obtain ⟨s, hreaches⟩ := h.reaches
  obtain ⟨t, hnext⟩ := h.next
  obtain ⟨t', hreaches'⟩ := h'.reaches
  obtain ⟨rfl, -⟩ := hnext.unique hreaches'
  have hbounds := inBounds_of_reaches (cells_pos_of_load hi) hreaches
  have hprogram : i.program.toList = program.map Command.ofChar := by rw [load_eq_ok hi]; rfl
  have hinput : (i.job m .table).input = input.toArray := input_of_load hi
  have hcorrect : (i.job m .table).matching.Correct (program.map Command.ofChar) := hprogram ▸ hl.correct
  have hcommand : (program.map Command.ofChar)[c.ip]? = some command := by
    rw [← hprogram, Array.getElem?_toList]
    exact (turn_eq_performed h.performed).1
  have hmoves := moves_of_decides hcorrect hinput hcommand hbounds.onTape h.decides command' a'
  rw [hbounds.size, size_of_load hi] at hmoves
  exact ⟨rfl, hmoves⟩

/-! ## The rows of a run -/

/-- the rows of the first `n` instructions of the run with brackets `m` -/
structure RowsOf (i : Interpreter) (m : Matching) (n : Nat) (sink : σ) (journal : Journal) (rows : List Row) :
    Prop where
  length : rows.length = n
  performs : ∀ k r, rows[k]? = some r → ∃ d command a, i.Performs m k sink journal d command a ∧ r = d.row command a

variable {rows : List Row}

theorem RowsOf.snoc (h : i.RowsOf m n sink journal rows) (hlast : i.Performs m n sink journal c command a) :
    i.RowsOf m (n + 1) sink journal (rows ++ [c.row command a]) := by
  refine ⟨by rw [List.length_append, h.length, List.length_singleton], fun k r hr => ?_⟩
  rcases Nat.lt_trichotomy k rows.length with hlt | rfl | hgt
  · rw [List.getElem?_append_left hlt] at hr
    exact h.performs k r hr
  · rw [List.getElem?_concat_length] at hr
    obtain rfl := Option.some.inj hr
    exact ⟨c, command, a, h.length ▸ hlast, rfl⟩
  · rw [List.getElem?_eq_none (by simpa using hgt)] at hr
    cases hr

theorem RowsOf.legible (h : i.RowsOf m n sink journal rows) : ∀ r ∈ rows, r.Legible := by
  intro r hr
  obtain ⟨k, hk⟩ := List.getElem?_of_mem hr
  obtain ⟨d, command, a, hd, rfl⟩ := h.performs k r hk
  exact hd.legible

theorem RowsOf.read (h : i.RowsOf m n sink journal rows) {k : Nat} {l : List Char}
    (hl : (rows.map Row.text)[k]? = some l) :
    ∃ d command a, i.Performs m k sink journal d command a ∧ read? l = some (d.row command a).reading := by
  rw [List.getElem?_map, Option.map_eq_some_iff] at hl
  obtain ⟨r, hr, rfl⟩ := hl
  obtain ⟨d, command, a, hd, rfl⟩ := h.performs k r hr
  exact ⟨d, command, a, hd, read?_text hd.legible⟩

theorem Performs.tells_read (h : i.Performs m n sink journal c command a) :
    (read? (c.row command a).text).any (·.command == ',') = true ↔ command = .read := by
  have hchar : (command.toChar == ',') = true ↔ command = .read := by
    cases h.decides <;> decide
  rw [read?_text h.legible]
  exact hchar

/-- **As many characters are consumed as the rows before tell of reads.** -/
theorem RowsOf.consumed_eq (h : i.RowsOf m n sink journal rows) (hl : i.Launched .table sink journal m s₀) {k : Nat}
    (hk : i.Reaches k .table sink journal c s) (hle : k ≤ n) :
    c.store.consumed = readsBefore (rows.map Row.text) k := by
  induction k generalizing c s with
  | zero =>
    obtain ⟨rfl, -⟩ := hl.reaches_zero.unique hk
    rw [readsBefore, List.take_zero, List.countP_nil]
    rfl
  | succ k ih =>
    obtain ⟨d, t, command, a, hd, ht, -, rfl⟩ := hl.exists_performed hk
    have hperforms : i.Performs m k sink journal d command a := ⟨⟨t, hd.reaches⟩, ht, ⟨s, hk⟩⟩
    have hrow : (rows.map Row.text)[k]? = some (d.row command a).text := by
      have hlt : k < rows.length := h.length ▸ hle
      obtain ⟨d', command', a', hp, hr⟩ := h.performs k rows[k] (List.getElem?_eq_getElem hlt)
      obtain ⟨t', hreaches⟩ := hp.reaches
      obtain ⟨rfl, -⟩ := hreaches.unique hd.reaches
      cases ht.symm.trans hp.performed
      rw [List.getElem?_map, List.getElem?_eq_getElem hlt, hr, Option.map_some]
    calc (d.apply a).store.consumed
        = d.store.consumed + if command = .read then 1 else 0 := hperforms.decides.consumed_eq
      _ = readsBefore (rows.map Row.text) k + if command = .read then 1 else 0 := by
          rw [ih hd.reaches (Nat.le_of_succ_le hle)]
      _ = readsBefore (rows.map Row.text) (k + 1) := by
          rw [readsBefore, readsBefore, List.take_add_one, hrow, List.countP_append, Option.toList_some,
            List.countP_singleton]
          simp only [hperforms.tells_read]

variable [Lawful σ]

/-- **Each executed instruction adds its row to the table**, and nothing else is written. -/
theorem exists_rows (hl : i.Launched .table sink journal m s₀) (hs : NeverFails s₀) {table : List UInt8}
    (htaken : taken s₀ = table ++ Text.encode (tableText [])) (h : i.Reaches n .table sink journal c s) :
    NeverFails s ∧ ∃ rows, i.RowsOf m n sink journal rows ∧ taken s = table ++ Text.encode (tableText rows) := by
  induction n generalizing c s with
  | zero =>
    obtain ⟨-, rfl⟩ := hl.reaches_zero.unique h
    exact ⟨hs, [], ⟨rfl, by simp⟩, htaken⟩
  | succ n ih =>
    obtain ⟨d, t, command, a, hd, ht, hadv, rfl⟩ := hl.exists_performed h
    obtain ⟨hnever, rows, hrows, htable⟩ := ih hd.reaches
    obtain ⟨t', hadv', hnever', htable'⟩ := advance_performed hnever ht
    cases hadv'.symm.trans hadv
    refine ⟨hnever', rows ++ [d.row command a], hrows.snoc ⟨⟨t, hd.reaches⟩, ht, ⟨_, h⟩⟩, ?_⟩
    rw [htable', htable, List.append_assoc, tableText_snoc, Text.encode_append _ ((d.row command a).text ++ _)]
    rfl

/-- **The step table is the trace of the run.** Let a balanced program be loaded and run in the table view, on a sink
that never fails, and let the run end after `k` instructions. Then its output is the two header lines and `k` rows, each
on a line of its own; row `n` reads back as the step, the position, the pointer, the cell and the command before
instruction `n`; and each row leads to the next as the machine does. -/
theorem table_tells_run (hi : load program input limits = .ok i) (hb : Balanced (program.map Command.ofChar))
    (hs : NeverFails sink) {fuel : Nat} {f : Finished σ} (hf : i.run fuel .table sink journal = some f) :
    ∃ k rows, i.Traced program input limits.tapeLength sink journal f k rows := by
  have hbalanced : Balanced i.program.toList := by
    rw [load_eq_ok hi]
    exact hb
  obtain ⟨m, hm, -⟩ := Matching.exists_of_balanced hbalanced
  obtain ⟨s₀, hlaunch, hs₀, htaken⟩ := launch_table hm hs journal
  have hl : i.Launched .table sink journal m s₀ := ⟨hm, hlaunch⟩
  obtain ⟨k, c, s, c', hr, hlast, -, hend⟩ := hl.exists_last hf
  obtain ⟨hnever, rows, hrows, htable⟩ := exists_rows hl hs₀ htaken hr
  -- every instruction that is performed goes through, so the last advance writes nothing
  have hnot : ∀ command a, c.turn (i.job m .table) ≠ .performed command a := by
    intro command a ht
    obtain ⟨t, hadv, -⟩ := advance_performed hnever ht
    cases hadv.symm.trans hlast
  have hstops := stops_of_ended hlast
  have hsink := hstops.sink_eq hnot
  refine ⟨k, rows.map Row.text, ?_⟩
  constructor
  case completed => exact hend
  case steps =>
    intro summary ho
    rw [ho] at hstops
    cases hstops with
    | finished h => exact hl.steps_eq hr
  case limit =>
    intro l ho
    rw [ho] at hstops
    exact (hstops.limit_eq (inBounds_of_reaches (cells_pos_of_load hi) hr).steps).trans (hl.steps_eq hr)
  case failing =>
    intro e ho hno
    rw [ho] at hstops
    cases hstops with
    | limitReached => exact absurd rfl (hno _)
    | notWritten h => exact absurd h (hnot _ _)
    | refused h =>
      obtain ⟨command, hcommand, hlimit, -⟩ := turn_eq_refused h
      rw [hsink]
      exact ⟨command, c, hl.dispatches hr hcommand hlimit⟩
  case length =>
    rw [List.length_append, List.length_map, hrows.length, Nat.add_comm]
    rfl
  case written =>
    rw [hsink, htable]
    rfl
  case line => exact fun l hline => (ends_of_mem_table hrows.legible hline).line
  case told =>
    intro n l hline
    obtain ⟨d, command, a, hd, hread⟩ := hrows.read hline
    obtain ⟨t, hreaches⟩ := hd.reaches
    exact ⟨command, d, t, _, hl.dispatches_of_performed hreaches hd.performed, hread, hd.tells hi hl⟩
  case stepwise =>
    intro n l l' hline hline'
    obtain ⟨d, command, a, hd, hread⟩ := hrows.read hline
    obtain ⟨d', command', a', hd', hread'⟩ := hrows.read hline'
    have hleads := hd.leads hi hl hd'
    obtain ⟨t, hreaches⟩ := hd.reaches
    have hlt : n < k := by simpa [hrows.length] using (List.getElem?_eq_some_iff.1 hline).1
    rw [hrows.consumed_eq hl hreaches hlt.le] at hleads
    exact ⟨_, _, hread, hread', hleads⟩

/-- a program that reads a bar and a line feed has a table of three rows -/
theorem table_tells_run_bar_and_line_feed :
    ∃ i f rows, load ",.,".toList "|\n".toList ⟨some 3, some ⟨1, by decide⟩⟩ = .ok i ∧
      Balanced (",.,".toList.map Command.ofChar) ∧ NeverFails Quota.unlimited ∧
      i.run 4 .table Quota.unlimited .silent = some f ∧ f.outcome = .ok ⟨3, 0⟩ ∧
      i.Traced ",.,".toList "|\n".toList 1 Quota.unlimited .silent f 3 rows := by
  have hb : Balanced (",.,".toList.map Command.ofChar) := by decide
  obtain ⟨i, hi⟩ : ∃ i, load ",.,".toList "|\n".toList ⟨some 3, some ⟨1, by decide⟩⟩ = .ok i := ⟨_, rfl⟩
  obtain ⟨f, hf, ho⟩ : ∃ f, i.run 4 .table Quota.unlimited .silent = some f ∧ f.outcome = .ok ⟨3, 0⟩ := by
    rw [load_eq_ok hi]
    exact ⟨_, rfl, rfl⟩
  obtain ⟨k, rows, htraced⟩ := table_tells_run hi hb Quota.neverFails_unlimited hf
  obtain rfl : 3 = k := htraced.steps _ ho
  exact ⟨i, f, rows, hi, hb, Quota.neverFails_unlimited, hf, ho, htraced⟩

end Interpreter

end Brainfuck
