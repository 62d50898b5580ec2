/-
The bracket table is right, and an unbalanced program is refused before anything happens.

The scan keeps a stack of open loops. `OpenLoops` says what the stack means for the text already scanned: between two
open brackets, before the first and behind the last the text is balanced. `Scanned` adds what the table says of that
text; `scan_spec` carries it to the end of the program.

Main statements:
- `scan_spec`: the scan ends with a table in which every bracket stands at its partner, or with the bracket at fault;
- `run_of_mismatch`: a run on an unbalanced program ends at once, on a blank tape, and writes nothing;
- `brackets_matched_or_refused`: both, for any interpreter in any state.
-/
import Mathlib.Tactic
import Brainfuck.Interpreter
import Brainfuck.Proofs.Brackets.Closing

namespace Brainfuck

/-! ## What is to be shown -/

/-- every bracket stands at its partner -/
structure Matching.Correct (cs : List Command) (m : Matching) : Prop where
  size : m.partners.size = cs.length
  involutive : ∀ k, m.partner (m.partner k) = k
  plain : ∀ k c, cs[k]? = some c → c.isBracket = false → m.partner k = k
  starts : ∀ k, cs[k]? = some .loopStart → Closes cs k (m.partner k)
  ends : ∀ k, cs[k]? = some .loopEnd → Closes cs (m.partner k) k
  nested : ∀ k l, cs[k]? = some .loopStart → cs[l]? = some .loopStart → k < l → l < m.partner k →
    m.partner l < m.partner k

/-- `ip` is the first position up to which more is closed than opened -/
structure FirstOverclosed (cs : List Command) (ip : Nat) : Prop where
  isEnd : cs[ip]? = some .loopEnd
  before : ∀ n ≤ ip, closed (cs.take n) ≤ opened (cs.take n)
  here : opened (cs.take (ip + 1)) < closed (cs.take (ip + 1))

/-- `ip` is the last loop without an end, in a text that is nowhere overclosed -/
structure LastUnclosed (cs : List Command) (ip : Nat) : Prop where
  neverOverclosed : NeverOverclosed cs
  isStart : cs[ip]? = some .loopStart
  behind : Balanced (cs.drop (ip + 1))
  only : ∀ k, cs[k]? = some .loopStart → Balanced (cs.drop (k + 1)) → k = ip
  unclosed : ∀ j, ¬ Closes cs ip j
  later : ∀ k, ip < k → cs[k]? = some .loopStart → ∃ j, Closes cs k j

/-- the bracket at fault in an unbalanced text -/
def Culprit (cs : List Command) : Bracket → Nat → Prop
  | .closing, ip => FirstOverclosed cs ip
  | .opening, ip => LastUnclosed cs ip

theorem FirstOverclosed.not_balanced {cs : List Command} {ip : Nat} (h : FirstOverclosed cs ip) : ¬ Balanced cs :=
  fun hb => Nat.not_lt.2 (hb.1 (ip + 1)) h.here

theorem LastUnclosed.not_balanced {cs : List Command} {ip : Nat} (h : LastUnclosed cs ip) : ¬ Balanced cs := by
  intro hb
  obtain ⟨j, hj⟩ := hb.exists_closes h.isStart
  exact h.unclosed j hj

theorem Culprit.not_balanced {cs : List Command} {b : Bracket} {ip : Nat} (h : Culprit cs b ip) : ¬ Balanced cs := by
  cases b with
  | closing => exact FirstOverclosed.not_balanced h
  | opening => exact LastUnclosed.not_balanced h

/-! ## The stack of open loops -/

/-- `os` are the loops that the text leaves open, the innermost first -/
inductive OpenLoops : List Command → List Nat → Prop where
  | none {w : List Command} (hw : Balanced w) : OpenLoops w []
  | inside {front w : List Command} {os : List Nat} (hf : OpenLoops front os) (hw : Balanced w) :
    OpenLoops (front ++ .loopStart :: w) (front.length :: os)

namespace OpenLoops

theorem balanced {done : List Command} (h : OpenLoops done []) : Balanced done := by
  cases h with
  | none hw => exact hw

theorem neverOverclosed {done : List Command} {os : List Nat} (h : OpenLoops done os) : NeverOverclosed done := by
  induction h with
  | none hw => exact hw.1
  | inside hf hw ih => exact ih.append hw.1.cons_start

theorem lt_length {done : List Command} {os : List Nat} (h : OpenLoops done os) : ∀ o ∈ os, o < done.length := by
  induction h with
  | none hw => simp
  | inside hf hw ih =>
    intro o ho
    rcases List.mem_cons.1 ho with rfl | ho
    · simp
    · have := ih o ho; simp; omega

theorem lt_head {done : List Command} {o : Nat} {os : List Nat} (h : OpenLoops done (o :: os)) : ∀ p ∈ os, p < o := by
  cases h with
  | inside hf hw => exact hf.lt_length

theorem snoc_plain {done : List Command} {os : List Nat} (h : OpenLoops done os) {c : Command}
    (hc : c.isBracket = false) : OpenLoops (done ++ [c]) os := by
  cases h with
  | none hw => exact .none (hw.append (balanced_single hc))
  | inside hf hw => simpa using inside hf (hw.append (balanced_single hc))

theorem snoc_start {done : List Command} {os : List Nat} (h : OpenLoops done os) :
    OpenLoops (done ++ [.loopStart]) (done.length :: os) :=
  .inside h balanced_nil

theorem snoc_end {done : List Command} {o : Nat} {os : List Nat} (h : OpenLoops done (o :: os)) :
    OpenLoops (done ++ [.loopEnd]) os := by
  cases h with
  | inside hf hw =>
    cases hf with
    | none hw' => simpa using OpenLoops.none (hw'.append hw.loop)
    | inside hf' hw' => simpa using inside hf' (hw'.append hw.loop)

theorem closes {done : List Command} {o : Nat} {os : List Nat} (h : OpenLoops done (o :: os)) :
    Closes (done ++ [.loopEnd]) o done.length := by
  cases h with
  | inside hf hw =>
    rename_i front w
    have h1 := closes_loop hw front []
    simpa [Nat.add_assoc] using h1

/-- a loop still open at the end of the text is its last one without an end -/
theorem lastUnclosed {done : List Command} {o : Nat} {os : List Nat} (h : OpenLoops done (o :: os)) :
    LastUnclosed done o := by
  have hnever := h.neverOverclosed
  cases h with
  | inside hf hw =>
    rename_i front w
    have hs : (front ++ Command.loopStart :: w)[front.length]? = some .loopStart := by simp
    have hd : (front ++ Command.loopStart :: w).drop (front.length + 1) = w := by simp
    refine ⟨hnever, hs, by rwa [hd], ?_, ?_, ?_⟩
    · intro k hk hb
      exact Balanced.unique_start hk hs hb (by rwa [hd])
    · intro j hj
      exact hj.overclosed (by rw [hd]; exact hw.1)
    · intro k hlt hk
      have hpos : front.length + 1 + (k - (front.length + 1)) = k := by omega
      have hk' : w[k - (front.length + 1)]? = some .loopStart := by
        rw [← hd, List.getElem?_drop, hpos]
        exact hk
      obtain ⟨j, hj⟩ := hw.exists_closes hk'
      rw [← hd] at hj
      have hshift := hj.shift
      rw [hpos] at hshift
      exact ⟨_, hshift⟩

/-- with no loop open, a closing bracket is the first one too many -/
theorem firstOverclosed {done : List Command} (h : OpenLoops done []) (rest : List Command) :
    FirstOverclosed (done ++ .loopEnd :: rest) done.length := by
  have hb := h.balanced
  refine ⟨by simp, ?_, ?_⟩
  · intro n hn
    rw [List.take_append_of_le_length hn]
    exact hb.1 n
  · have htext : done ++ .loopEnd :: rest = (done ++ [.loopEnd]) ++ rest := by simp
    have hlen : done.length + 1 = (done ++ [Command.loopEnd]).length := by simp
    rw [htext, hlen, List.take_left]
    simp [hb.2]

end OpenLoops

/-! ## The table -/

namespace Matching

theorem size_pair (partners : Array Nat) (i j : Nat) : (pair partners i j).size = partners.size := by simp [pair]

theorem partner_pair (partners : Array Nat) {i j : Nat} (hi : i < partners.size) (hj : j < partners.size) (k : Nat) :
    partner ⟨pair partners i j⟩ k = if k = j then i else if k = i then j else partner ⟨partners⟩ k := by
  simp only [partner, pair, Array.getD_eq_getD_getElem?, Array.getElem?_setIfInBounds]
  grind

theorem partner_range (n k : Nat) : partner ⟨Array.range n⟩ k = k := by
  simp only [partner, Array.getD_eq_getD_getElem?]
  grind

/-- what the table says after the text `done` was scanned and the loops `openLoops` are still open -/
structure Scanned (done : List Command) (openLoops : List Nat) (m : Matching) : Prop where
  stack : OpenLoops done openLoops
  involutive : ∀ k, m.partner (m.partner k) = k
  beyond : ∀ k, done.length ≤ k → m.partner k = k
  waiting : ∀ o ∈ openLoops, m.partner o = o
  plain : ∀ k c, done[k]? = some c → c.isBracket = false → m.partner k = k
  starts : ∀ k, done[k]? = some .loopStart → k ∈ openLoops ∨ Closes done k (m.partner k)
  ends : ∀ k, done[k]? = some .loopEnd → Closes done (m.partner k) k

theorem getElem?_snoc_eq_some {cs : List Command} {c d : Command} {k : Nat} (h : (cs ++ [c])[k]? = some d) :
    cs[k]? = some d ∨ k = cs.length ∧ d = c := by
  grind

theorem scanned_nil (n : Nat) : Scanned [] [] ⟨Array.range n⟩ where
  stack := .none balanced_nil
  involutive k := by rw [partner_range, partner_range]
  beyond k _ := partner_range n k
  waiting o ho := by simp at ho
  plain k c h := by simp at h
  starts k h := by simp at h
  ends k h := by simp at h

namespace Scanned

variable {done : List Command} {openLoops : List Nat} {m : Matching}

theorem snoc_plain (h : Scanned done openLoops m) {c : Command} (hc : c.isBracket = false) :
    Scanned (done ++ [c]) openLoops m := by
  refine ⟨h.stack.snoc_plain hc, h.involutive, ?_, h.waiting, ?_, ?_, ?_⟩
  · intro k hk
    exact h.beyond k (by simp at hk; omega)
  · intro k d hk hd
    rcases getElem?_snoc_eq_some hk with hk | ⟨rfl, rfl⟩
    · exact h.plain k d hk hd
    · exact h.beyond _ le_rfl
  · intro k hk
    rcases getElem?_snoc_eq_some hk with hk | ⟨rfl, rfl⟩
    · exact (h.starts k hk).imp id fun hk => hk.append _
    · simp [Command.isBracket] at hc
  · intro k hk
    rcases getElem?_snoc_eq_some hk with hk | ⟨rfl, rfl⟩
    · exact (h.ends k hk).append _
    · simp [Command.isBracket] at hc

theorem snoc_start (h : Scanned done openLoops m) :
    Scanned (done ++ [.loopStart]) (done.length :: openLoops) m := by
  refine ⟨h.stack.snoc_start, h.involutive, ?_, ?_, ?_, ?_, ?_⟩
  · intro k hk
    exact h.beyond k (by simp at hk; omega)
  · intro o ho
    rcases List.mem_cons.1 ho with rfl | ho
    · exact h.beyond _ le_rfl
    · exact h.waiting o ho
  · intro k d hk hd
    rcases getElem?_snoc_eq_some hk with hk | ⟨rfl, rfl⟩
    · exact h.plain k d hk hd
    · simp [Command.isBracket] at hd
  · intro k hk
    rcases getElem?_snoc_eq_some hk with hk | ⟨rfl, -⟩
    · exact (h.starts k hk).imp (List.mem_cons_of_mem _) fun hk => hk.append _
    · exact Or.inl List.mem_cons_self
  · intro k hk
    rcases getElem?_snoc_eq_some hk with hk | ⟨-, he⟩
    · exact (h.ends k hk).append _
    · cases he

/-- a pair is recorded when its closing bracket is met; positions paired before keep their partners -/
theorem snoc_end {o : Nat} (h : Scanned done (o :: openLoops) m) (hsize : done.length < m.partners.size) :
    Scanned (done ++ [.loopEnd]) openLoops ⟨pair m.partners o done.length⟩ := by
  have hlt : o < done.length := h.stack.lt_length o List.mem_cons_self
  have hp := partner_pair m.partners (i := o) (j := done.length) (by omega) hsize
  have hcl : Closes (done ++ [.loopEnd]) o done.length := h.stack.closes
  have hwo : m.partner o = o := h.waiting o List.mem_cons_self
  have hwe : m.partner done.length = done.length := h.beyond _ le_rfl
  -- nobody else had one of the two as a partner
  have hother : ∀ k, k ≠ done.length → k ≠ o → m.partner k ≠ done.length ∧ m.partner k ≠ o := by
    intro k h1 h2
    have hk := h.involutive k
    refine ⟨?_, ?_⟩
    · intro e
      rw [e, hwe] at hk
      exact h1 hk.symm
    · intro e
      rw [e, hwo] at hk
      exact h2 hk.symm
  refine ⟨h.stack.snoc_end, ?_, ?_, ?_, ?_, ?_, ?_⟩
  · intro k
    by_cases h1 : k = done.length
    · rw [hp k, if_pos h1, hp o, if_neg (by omega), if_pos rfl, h1]
    · by_cases h2 : k = o
      · rw [hp k, if_neg h1, if_pos h2, hp done.length, if_pos rfl, h2]
      · obtain ⟨h3, h4⟩ := hother k h1 h2
        rw [hp k, if_neg h1, if_neg h2, hp, if_neg h3, if_neg h4]
        exact h.involutive k
  · intro k hk
    rw [List.length_append, List.length_singleton] at hk
    rw [hp k, if_neg (by omega), if_neg (by omega)]
    exact h.beyond k (by omega)
  · intro k hk
    have h1 := h.stack.lt_head k hk
    rw [hp k, if_neg (by omega), if_neg (by omega)]
    exact h.waiting k (List.mem_cons_of_mem _ hk)
  · intro k d hk hd
    rcases getElem?_snoc_eq_some hk with hk' | ⟨rfl, rfl⟩
    · have h1 := (List.getElem?_eq_some_iff.1 hk').1
      have h2 : k ≠ o := by
        rintro rfl
        rw [hcl.start] at hk
        cases hk
        cases hd
      rw [hp k, if_neg (by omega), if_neg h2]
      exact h.plain k d hk' hd
    · cases hd
  · intro k hk
    rcases getElem?_snoc_eq_some hk with hk' | ⟨-, he⟩
    · have h1 := (List.getElem?_eq_some_iff.1 hk').1
      by_cases h2 : k = o
      · right
        rw [hp k, if_neg (by omega), if_pos h2, h2]
        exact hcl
      · rw [hp k, if_neg (by omega), if_neg h2]
        rcases h.starts k hk' with hm | hc
        · exact Or.inl ((List.mem_cons.1 hm).resolve_left h2)
        · exact Or.inr (hc.append _)
    · cases he
  · intro k hk
    rcases getElem?_snoc_eq_some hk with hk' | ⟨rfl, -⟩
    · have h1 := (List.getElem?_eq_some_iff.1 hk').1
      have h2 : k ≠ o := by
        rintro rfl
        rw [hcl.start] at hk
        cases hk
      rw [hp k, if_neg (by omega), if_neg h2]
      exact (h.ends k hk').append _
    · rw [hp done.length, if_pos rfl]
      exact hcl

theorem correct (h : Scanned done [] m) (hsize : m.partners.size = done.length) : m.Correct done := by
  have hstarts : ∀ k, done[k]? = some .loopStart → Closes done k (m.partner k) := fun k hk =>
    (h.starts k hk).resolve_left (by simp)
  refine ⟨hsize, h.involutive, h.plain, hstarts, h.ends, ?_⟩
  intro k l hk hl hkl hlk
  exact (hstarts k hk).nested (hstarts l hl) hkl hlk

end Scanned

/-- **The scan is exact**: it ends with a right table on a balanced text, and with the bracket at fault on any other. -/
theorem scan_spec (cs : List Command) {done : List Command} {openLoops : List Nat} {m : Matching}
    (h : Scanned done openLoops m) (hsize : m.partners.size = done.length + cs.length) :
    match scan cs done.length openLoops m.partners with
    | .ok m' => Balanced (done ++ cs) ∧ m'.Correct (done ++ cs)
    | .error e => ∃ b ip, e = .unmatchedBracket b ip ∧ Culprit (done ++ cs) b ip := by
  induction cs generalizing done openLoops m with
  | nil =>
    rw [List.append_nil]
    cases openLoops with
    | nil => exact ⟨h.stack.balanced, h.correct (by simpa using hsize)⟩
    | cons o os => exact ⟨.opening, o, rfl, h.stack.lastUnclosed⟩
  | cons c cs ih =>
    have hlen : (done ++ [c]).length = done.length + 1 := by simp
    have happ : done ++ c :: cs = (done ++ [c]) ++ cs := by simp
    rw [List.length_cons] at hsize
    cases c with
    | loopStart =>
      have h1 := ih h.snoc_start (by rw [hlen]; omega)
      rw [happ]
      rwa [hlen] at h1
    | loopEnd =>
      cases openLoops with
      | nil => exact ⟨.closing, done.length, rfl, h.stack.firstOverclosed cs⟩
      | cons o os =>
        have h1 := ih (h.snoc_end (by omega)) (by rw [hlen, size_pair]; omega)
        rw [happ]
        rwa [hlen] at h1
    | _ =>
      have h1 := ih (h.snoc_plain rfl) (by rw [hlen]; omega)
      rw [happ]
      rwa [hlen] at h1

theorem ofProgram_spec (p : Program) :
    match ofProgram p with
    | .ok m => Balanced p.toList ∧ m.Correct p.toList
    | .error e => ∃ b ip, e = .unmatchedBracket b ip ∧ Culprit p.toList b ip :=
  scan_spec p.toList (scanned_nil p.size) (by simp)

theorem exists_of_balanced {p : Program} (h : Balanced p.toList) : ∃ m, ofProgram p = .ok m ∧ m.Correct p.toList := by
  have hs := ofProgram_spec p
  cases hm : ofProgram p with
  | ok m => rw [hm] at hs; exact ⟨m, rfl, hs.2⟩
  | error e =>
    rw [hm] at hs
    obtain ⟨b, ip, -, hc⟩ := hs
    exact absurd h hc.not_balanced

theorem exists_of_not_balanced {p : Program} (h : ¬ Balanced p.toList) :
    ∃ b ip, ofProgram p = .error (.unmatchedBracket b ip) ∧ Culprit p.toList b ip := by
  have hs := ofProgram_spec p
  cases hm : ofProgram p with
  | ok m => rw [hm] at hs; exact absurd hs.1 h
  | error e =>
    rw [hm] at hs
    obtain ⟨b, ip, rfl, hc⟩ := hs
    exact ⟨b, ip, rfl, hc⟩

end Matching

/-! ## Before anything happens -/

namespace Interpreter

variable {σ : Type} [Sink σ]

/-- a run whose brackets do not match ends at once: the sink is as it was, the tape blank -/
theorem run_of_mismatch {i : Interpreter} {e : RunError} (h : Matching.ofProgram i.program = .error e) (fuel : Nat)
    (view : View) (sink : σ) (journal : Journal) :
    i.run fuel view sink journal = some ⟨{ i with store := i.freshStore }, sink, journal, .error e⟩ := by
  simp only [run, launch, h, Launch.runFor, finished?]

/-- **Brackets are matched or the program is refused**, whatever ran before. A balanced program gets a table in which
every bracket stands at its partner. An unbalanced one makes each run, in either view and on any sink, end with the
bracket at fault, before a byte is written and with the tape blank. -/
theorem brackets_matched_or_refused (i : Interpreter) :
    match Matching.ofProgram i.program with
    | .ok m => Balanced i.program.toList ∧ m.Correct i.program.toList
    | .error e => ¬ Balanced i.program.toList ∧ ∃ b ip, e = .unmatchedBracket b ip ∧ Culprit i.program.toList b ip ∧
        ∀ (fuel : Nat) (view : View) (sink : σ) (journal : Journal),
          i.run fuel view sink journal =
            some ⟨{ i with store := .blank i.store.cells.size }, sink, journal, .error e⟩ := by
  cases hm : Matching.ofProgram i.program with
  | ok m =>
    have hs := Matching.ofProgram_spec i.program
    rw [hm] at hs
    exact hs
  | error e =>
    have hs := Matching.ofProgram_spec i.program
    rw [hm] at hs
    obtain ⟨b, ip, rfl, hc⟩ := hs
    exact ⟨hc.not_balanced, b, ip, rfl, hc, run_of_mismatch hm⟩

end Interpreter

end Brainfuck
