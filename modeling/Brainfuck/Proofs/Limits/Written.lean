/-
How people write what is read elsewhere. `Count.Writes n cs`: the text `cs` is a decimal rendering of `n`. `Blanks a`:
the text `a` is blank. `Typed ls bs rest`: the byte stream `bs` begins with the lines `ls` and goes on with `rest`. Each
relation allows all the freedom there is in writing; the lemmas say that reading undoes it.
-/
import Mathlib.Data.List.TakeWhile
import Mathlib.Tactic
import Brainfuck.Dialogue

namespace Brainfuck

/-! ## Counts -/

namespace Count

/-- how a count may be written: its digits, zeros in front of them and a plus sign in front of all -/
inductive Writes (n : Nat) : List Char → Prop where
  | plain (zeros : Nat) : Writes n (List.replicate zeros '0' ++ render n)
  | signed (zeros : Nat) : Writes n ('+' :: (List.replicate zeros '0' ++ render n))

/-- zeros in front of a count -/
def padded (zeros n : Nat) : List Char := List.replicate zeros '0' ++ render n

theorem isDigit_iff {c : Char} : isDigit c = true ↔ 48 ≤ c.toNat ∧ c.toNat ≤ 57 := by
  simp only [isDigit, Bool.and_eq_true, decide_eq_true_eq, Char.le_def, UInt32.le_iff_toNat_le]
  exact Iff.rfl

theorem isDigit_of_mem_padded {zeros n : Nat} {c : Char} (h : c ∈ padded zeros n) : isDigit c = true := by
  rcases List.mem_append.1 h with h | h
  · rw [(List.mem_replicate.1 h).2]
    decide
  · exact isDigit_of_mem_render h

theorem padded_ne_nil (zeros n : Nat) : padded zeros n ≠ [] :=
  List.append_ne_nil_of_right_ne_nil _ (render_ne_nil n)

theorem value_padded (zeros n : Nat) : value (padded zeros n) = n := by
  have hzeros : valueFrom 0 (List.replicate zeros '0') = 0 := by
    induction zeros with
    | zero => rfl
    | succ zeros ih => exact ih
  have happend : value (padded zeros n) = valueFrom (valueFrom 0 (List.replicate zeros '0')) (render n) :=
    List.foldl_append
  rw [happend, hzeros]
  exact value_render n

theorem unsigned_of_digits {ds : List Char} (h : ∀ d ∈ ds, isDigit d = true) : unsigned ds = ds := by
  unfold unsigned
  split
  · exact absurd (h '+' List.mem_cons_self) (by decide)
  · rfl

theorem unsigned_padded (zeros n : Nat) : unsigned (padded zeros n) = padded zeros n :=
  unsigned_of_digits fun _ hd => isDigit_of_mem_padded hd

namespace Writes

variable {n : Nat} {cs : List Char}

theorem unsigned_eq (h : Writes n cs) : ∃ zeros, unsigned cs = padded zeros n := by
  cases h with
  | plain zeros => exact ⟨zeros, unsigned_padded zeros n⟩
  | signed zeros => exact ⟨zeros, rfl⟩

/-- **A written count reads back, where it fits into 64 bits.** -/
theorem parse?_eq (h : Writes n cs) : parse? cs = if n < bound then some n else none := by
  obtain ⟨zeros, hdigits⟩ := h.unsigned_eq
  have hall : (padded zeros n).all isDigit = true := List.all_eq_true.2 fun c hc => isDigit_of_mem_padded hc
  have hne : (padded zeros n).isEmpty = false := by simpa using padded_ne_nil zeros n
  rw [Count.parse?_eq, hdigits, hall, hne, value_padded]
  rfl

theorem isDigit_or_plus (h : Writes n cs) {c : Char} (hc : c ∈ cs) : isDigit c = true ∨ c = '+' := by
  cases h with
  | plain zeros => exact Or.inl (isDigit_of_mem_padded hc)
  | signed zeros =>
    rcases List.mem_cons.1 hc with rfl | hc
    · exact Or.inr rfl
    · exact Or.inl (isDigit_of_mem_padded hc)

theorem ne_nil (h : Writes n cs) : cs ≠ [] := by
  cases h with
  | plain zeros => exact padded_ne_nil zeros n
  | signed zeros => exact List.cons_ne_nil _ _

theorem not_blank (h : Writes n cs) {c : Char} (hc : c ∈ cs) : Text.isBlank c = false := by
  rcases h.isDigit_or_plus hc with hdigit | rfl
  · have hrange := isDigit_iff.1 hdigit
    simp only [Text.isBlank, Bool.or_eq_false_iff, Bool.and_eq_false_iff, decide_eq_false_iff_not, beq_eq_false_iff_ne]
    omega
  · decide

end Writes

end Count

namespace Text

/-! ## Blanks around a text -/

/-- nothing but blanks -/
def Blanks (cs : List Char) : Prop := ∀ c ∈ cs, isBlank c = true

instance (cs : List Char) : Decidable (Blanks cs) := decidable_of_iff (cs.all isBlank = true) List.all_eq_true

/-- no blank at either end -/
structure Tight (cs : List Char) : Prop where
  head : ∀ c, cs.head? = some c → isBlank c = false
  last : ∀ c, cs.getLast? = some c → isBlank c = false

theorem tight_iff (cs : List Char) : (cs.head?.any isBlank = false ∧ cs.getLast?.any isBlank = false) ↔ Tight cs := by
  have hany (o : Option Char) : o.any isBlank = false ↔ ∀ c, o = some c → isBlank c = false := by
    cases o <;> simp
  rw [hany, hany]
  exact ⟨fun h => ⟨h.1, h.2⟩, fun h => ⟨h.head, h.last⟩⟩

instance (cs : List Char) : Decidable (Tight cs) := decidable_of_iff _ (tight_iff cs)

theorem tight_of_not_blank {cs : List Char} (h : ∀ c ∈ cs, isBlank c = false) : Tight cs :=
  ⟨fun c hc => h c (List.mem_of_mem_head? hc), fun c hc => h c (List.mem_of_getLast? hc)⟩

theorem Blanks.reverse {a : List Char} (h : Blanks a) : Blanks a.reverse := fun c hc => h c (List.mem_reverse.1 hc)

theorem dropWhile_blanks_append {a cs : List Char} (ha : Blanks a) (hcs : ∀ c, cs.head? = some c → isBlank c = false) :
    (a ++ cs).dropWhile isBlank = cs := by
  rw [List.dropWhile_append_of_pos ha]
  cases cs with
  | nil => rfl
  | cons c cs => exact List.dropWhile_cons_of_neg (by rw [hcs c rfl]; exact Bool.false_ne_true)

/-- **Trimming undoes padding.** -/
theorem trim_padded {a cs b : List Char} (ha : Blanks a) (hcs : Tight cs) (hb : Blanks b) :
    trim (a ++ cs ++ b) = cs := by
  cases hc : cs with
  | nil =>
    have hall : Blanks (a ++ [] ++ b) := fun c h => by
      rcases List.mem_append.1 (List.append_nil a ▸ h) with h | h
      · exact ha c h
      · exact hb c h
    rw [trim, trimStart, List.dropWhile_eq_nil_iff.2 hall]
    rfl
  | cons c rest =>
    rw [← hc]
    have hfront : trimStart (a ++ cs ++ b) = cs ++ b := by
      rw [trimStart, List.append_assoc]
      refine dropWhile_blanks_append ha fun c' hc' => hcs.head c' ?_
      rw [hc] at hc' ⊢
      exact hc'
    have hback : (b.reverse ++ cs.reverse).dropWhile isBlank = cs.reverse :=
      dropWhile_blanks_append hb.reverse fun c' hc' => hcs.last c' (by rwa [List.getLast?_eq_head?_reverse])
    rw [trim, hfront, trimEnd, List.reverse_append, hback, List.reverse_reverse]

/-! ## Lines typed into a byte stream -/

/-- a byte stream that begins with these lines: each ends with a line feed, the last one perhaps with the stream -/
inductive Typed : List (List Char) → List UInt8 → List UInt8 → Prop where
  | nil (rest : List UInt8) : Typed [] rest rest
  | line {l : List Char} {ls : List (List Char)} {bs rest : List UInt8} (hl : '\n' ∉ l) (h : Typed ls bs rest) :
      Typed (l :: ls) (encode (l ++ ['\n']) ++ bs) rest
  | last {l : List Char} (hl : '\n' ∉ l) (hne : l ≠ []) : Typed [l] (encode l) []

theorem ne_ofNat_of_lt {b : UInt8} {k : Nat} (hb : b.toNat < 128) (hlow : 128 ≤ k) (hhigh : k < 256) :
    b ≠ UInt8.ofNat k := by
  rintro rfl
  rw [UInt8.toNat_ofNat_of_lt' (by exact hhigh)] at hb
  omega

/-- a byte below 128 comes from the one character with its number -/
theorem toNat_eq_of_mem_utf8EncodeChar {b : UInt8} {c : Char} (hb : b.toNat < 128) (h : b ∈ String.utf8EncodeChar c) :
    c.toNat = b.toNat := by
  simp only [String.utf8EncodeChar] at h
  split_ifs at h with h1 h2 h3
  · rw [List.mem_singleton.1 h, UInt8.toNat_ofNat_of_lt' (by change c.val.toNat < 256; omega)]
    rfl
  · simp only [List.mem_cons, List.not_mem_nil, or_false] at h
    rcases h with h | h <;> exact absurd h (ne_ofNat_of_lt hb (by omega) (by omega))
  · simp only [List.mem_cons, List.not_mem_nil, or_false] at h
    rcases h with h | h | h <;> exact absurd h (ne_ofNat_of_lt hb (by omega) (by omega))
  · simp only [List.mem_cons, List.not_mem_nil, or_false] at h
    rcases h with h | h | h | h <;> exact absurd h (ne_ofNat_of_lt hb (by omega) (by omega))

theorem exists_of_mem_encode {b : UInt8} {cs : List Char} (hb : b.toNat < 128) (h : b ∈ encode cs) :
    ∃ c ∈ cs, c.toNat = b.toNat := by
  obtain ⟨c, hc, hbyte⟩ := List.mem_flatMap.1 h
  exact ⟨c, hc, toNat_eq_of_mem_utf8EncodeChar hb hbyte⟩

theorem lineFeed_not_mem_encode {l : List Char} (h : '\n' ∉ l) : lineFeed ∉ encode l := by
  intro hmem
  obtain ⟨c, hc, hval⟩ := exists_of_mem_encode (by decide) hmem
  have hfeed : c = '\n' := Char.toNat_inj.1 hval
  exact h (hfeed ▸ hc)

theorem byteLinesFrom_append {bs : List UInt8} (h : lineFeed ∉ bs) (line rest : List UInt8) :
    byteLinesFrom line (bs ++ rest) = byteLinesFrom (bs.reverse ++ line) rest := by
  induction bs generalizing line with
  | nil => rfl
  | cons b bs ih =>
    have hb : b ≠ lineFeed := fun he => h (he ▸ List.mem_cons_self)
    have hbs : lineFeed ∉ bs := fun m => h (List.mem_cons_of_mem _ m)
    simp [byteLinesFrom, hb, ih hbs]

theorem byteLines_line {l : List Char} (hl : '\n' ∉ l) (bs : List UInt8) :
    byteLines (encode (l ++ ['\n']) ++ bs) = encode (l ++ ['\n']) :: byteLines bs := by
  have hfeed : encode ['\n'] = [lineFeed] := rfl
  rw [byteLines, encode_append, hfeed, List.append_assoc, byteLinesFrom_append (lineFeed_not_mem_encode hl),
    List.append_nil, List.singleton_append, byteLinesFrom, if_pos rfl, List.reverse_cons, List.reverse_reverse]
  rfl

theorem byteLines_last {l : List Char} (hl : '\n' ∉ l) (hne : l ≠ []) : byteLines (encode l) = [encode l] := by
  have hbytes : encode l ≠ [] := fun h => hne (by
    have hread := decode?_encode l
    rw [h] at hread
    exact (Option.some.inj hread).symm)
  have hfrom := byteLinesFrom_append (lineFeed_not_mem_encode hl) [] []
  rw [List.append_nil, List.append_nil, byteLinesFrom, List.reverse_reverse] at hfrom
  rw [byteLines, hfrom, if_neg (by simpa using hbytes)]

/-- **Typed lines are read as answers one by one**, blanks dropped, and the rest is left. -/
theorem Typed.exists_answers {ls : List (List Char)} {bs rest : List UInt8} (h : Typed ls bs rest) :
    ∃ answers, byteLines bs = answers ++ byteLines rest ∧
      List.Forall₂ (fun l line => Dialogue.answer? line = some (squeeze l)) ls answers := by
  induction h with
  | nil rest => exact ⟨[], rfl, .nil⟩
  | @line l ls bs rest hl _ ih =>
    obtain ⟨answers, hbytes, hanswers⟩ := ih
    refine ⟨encode (l ++ ['\n']) :: answers, by rw [byteLines_line hl, hbytes]; rfl, .cons ?_ hanswers⟩
    have hsqueeze : squeeze (l ++ ['\n']) = squeeze l := by
      rw [squeeze_append]
      exact List.append_nil _
    rw [Dialogue.answer?, decode?_encode, Option.map_some, hsqueeze]
  | @last l hl hne =>
    refine ⟨[encode l], byteLines_last hl hne, .cons ?_ .nil⟩
    rw [Dialogue.answer?, decode?_encode, Option.map_some]

end Text

end Brainfuck
