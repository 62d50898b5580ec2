/-
Balanced programs, said without a stack: no stretch from the start closes more loops than it opens, and in the end as
many are closed as were opened. Main statements: `Balanced.append`, balanced programs follow one another, and
`Balanced.loop`, a loop around a balanced program is balanced.
-/
import Brainfuck.Command

namespace Brainfuck

/-- loops opened -/
def opened (cs : List Command) : Nat := cs.count .loopStart

/-- loops closed -/
def closed (cs : List Command) : Nat := cs.count .loopEnd

/-- every loop that is closed was opened before -/
def NeverOverclosed (cs : List Command) : Prop := ∀ n, closed (cs.take n) ≤ opened (cs.take n)

def Balanced (cs : List Command) : Prop := NeverOverclosed cs ∧ closed cs = opened cs

@[simp] theorem opened_append (a b : List Command) : opened (a ++ b) = opened a + opened b :=
  List.count_append ..

@[simp] theorem closed_append (a b : List Command) : closed (a ++ b) = closed a + closed b :=
  List.count_append ..

@[simp] theorem opened_cons_start (cs : List Command) : opened (.loopStart :: cs) = opened cs + 1 := by simp [opened]

@[simp] theorem closed_cons_start (cs : List Command) : closed (.loopStart :: cs) = closed cs := by simp [closed]

@[simp] theorem opened_cons_end (cs : List Command) : opened (.loopEnd :: cs) = opened cs := by simp [opened]

@[simp] theorem closed_cons_end (cs : List Command) : closed (.loopEnd :: cs) = closed cs + 1 := by simp [closed]

@[simp] theorem opened_nil : opened [] = 0 := rfl

@[simp] theorem closed_nil : closed [] = 0 := rfl

theorem opened_cons_plain {c : Command} (hc : c.isBracket = false) (cs : List Command) :
    opened (c :: cs) = opened cs := by
  cases c <;> simp_all [opened, Command.isBracket]

theorem closed_cons_plain {c : Command} (hc : c.isBracket = false) (cs : List Command) :
    closed (c :: cs) = closed cs := by
  cases c <;> simp_all [closed, Command.isBracket]

theorem neverOverclosed_iff (cs : List Command) :
    NeverOverclosed cs ↔ ∀ n ≤ cs.length, closed (cs.take n) ≤ opened (cs.take n) := by
  refine ⟨fun h n _ => h n, fun h n => ?_⟩
  by_cases hn : n ≤ cs.length
  · exact h n hn
  · have := h cs.length (Nat.le_refl _)
    rwa [List.take_length, ← List.take_of_length_le (l := cs) (i := n) (by omega)] at this

instance (cs : List Command) : Decidable (NeverOverclosed cs) :=
  decidable_of_iff _ (neverOverclosed_iff cs).symm

instance (cs : List Command) : Decidable (Balanced cs) := by
  unfold Balanced; infer_instance

theorem NeverOverclosed.append {a b : List Command} (ha : NeverOverclosed a) (hb : NeverOverclosed b) :
    NeverOverclosed (a ++ b) := by
  intro n
  have h1 := ha n
  have h2 := hb (n - a.length)
  rw [List.take_append, opened_append, closed_append]
  omega

theorem NeverOverclosed.cons_start {cs : List Command} (h : NeverOverclosed cs) :
    NeverOverclosed (.loopStart :: cs) := by
  intro n
  cases n with
  | zero => simp
  | succ n =>
    have := h n
    rw [List.take_succ_cons, closed_cons_start, opened_cons_start]
    omega

theorem Balanced.append {a b : List Command} (ha : Balanced a) (hb : Balanced b) : Balanced (a ++ b) :=
  ⟨ha.1.append hb.1, by simp [ha.2, hb.2]⟩

theorem balanced_nil : Balanced [] := ⟨fun n => by simp, rfl⟩

theorem Balanced.loop {body : List Command} (h : Balanced body) : Balanced (.loopStart :: body ++ [.loopEnd]) := by
  refine ⟨fun n => ?_, ?_⟩
  · cases n with
    | zero => simp
    | succ n =>
      -- the closing bracket adds one at most, and the opening one stands before it
      have hbody := h.1 n
      have hend : closed ([Command.loopEnd].take (n - body.length)) ≤ 1 := by
        cases n - body.length <;> simp
      rw [List.cons_append, List.take_succ_cons, List.take_append, opened_cons_start, closed_cons_start,
        opened_append, closed_append]
      omega
  · rw [opened_append, closed_append, opened_cons_start, closed_cons_start]
    simp [h.2]

end Brainfuck
