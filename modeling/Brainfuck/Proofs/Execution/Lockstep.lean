/-
Two runs side by side. `Progress.Together R` says that two runs both go on, or both end with the same outcome, and that
`R` relates their configurations and sinks. What one advance of each keeps, runs of any length keep
(`runFor_together`); only the configurations that the first run comes to matter (`runFor_together_on_way`), and where
the relation is equality the two runs are one (`runFor_congr`). Beside them stands a fact about a single run: where it
ended it was running just before (`exists_last_running`).
-/
import Mathlib.Tactic
import Brainfuck.Proofs.Execution.Writes

namespace Brainfuck

open Sink

variable {σ τ : Type}

/-- both runs go on, or both end in the same way -/
inductive Progress.Together (R : Config → σ → Config → τ → Prop) : Progress σ → Progress τ → Prop where
  | running {c d : Config} {s : σ} {t : τ} (h : R c s d t) : Together R (.running c s) (.running d t)
  | ended {c d : Config} {s : σ} {t : τ} (o : Outcome) (h : R c s d t) : Together R (.ended c s o) (.ended d t o)

namespace Progress.Together

variable {R : Config → σ → Config → τ → Prop} {c : Config} {s : σ} {q : Progress τ}

theorem exists_running (h : Together R (.running c s) q) : ∃ d t, q = .running d t ∧ R c s d t := by
  cases h with
  | running hR => exact ⟨_, _, rfl, hR⟩

theorem exists_ended {o : Outcome} (h : Together R (.ended c s o) q) : ∃ d t, q = .ended d t o ∧ R c s d t := by
  cases h with
  | ended o hR => exact ⟨_, _, rfl, hR⟩

end Progress.Together

namespace Config

variable [Sink σ] [Sink τ]

/-- **Runs stay together** as long as the advances on the way of the first one keep them together. -/
theorem runFor_together_on_way {R : Config → σ → Config → τ → Prop} {j k : Job} {n : Nat} {c d : Config} {s : σ} {t : τ}
    (hstep : ∀ m < n, ∀ c' s' d' t', c.runFor j m s = .running c' s' → R c' s' d' t' →
      Progress.Together R (c'.advance j s') (d'.advance k t'))
    (h : R c s d t) : Progress.Together R (c.runFor j n s) (d.runFor k n t) := by
  induction n generalizing c s d t with
  | zero => exact .running h
  | succ n ih =>
    have h1 := hstep 0 n.succ_pos c s d t rfl h
    rw [runFor_succ, runFor_succ]
    cases hc : c.advance j s with
    | running c' s' =>
      rw [hc] at h1
      cases hd : d.advance k t with
      | running d' t' =>
        rw [hd] at h1
        cases h1 with
        | running h2 =>
          refine ih (fun m hm c₁ s₁ d₁ t₁ hrun => ?_) h2
          exact hstep (m + 1) (Nat.succ_lt_succ hm) c₁ s₁ d₁ t₁ ((runFor_of_advance hc m).trans hrun)
      | ended d' t' o => rw [hd] at h1; cases h1
    | ended c' s' o =>
      rw [hc] at h1
      cases hd : d.advance k t with
      | running d' t' => rw [hd] at h1; cases h1
      | ended d' t' o' => rw [hd] at h1; exact h1

/-- and as long as any advances do; `bound` is how many instructions they are followed -/
theorem runFor_together {R : Config → σ → Config → τ → Prop} {j k : Job} (bound : Nat)
    (hstep : ∀ {c s d t}, R c s d t → c.steps < bound → Progress.Together R (c.advance j s) (d.advance k t))
    {n : Nat} {c d : Config} {s : σ} {t : τ} (h : R c s d t) (hn : c.steps + n ≤ bound) :
    Progress.Together R (c.runFor j n s) (d.runFor k n t) := by
  refine runFor_together_on_way (fun m hm c' s' d' t' hrun hR => hstep hR ?_) h
  have hsteps := steps_of_running hrun
  omega

/-- two jobs run alike from a configuration as long as they advance alike on the way -/
theorem runFor_congr {j k : Job} {n : Nat} {c : Config} {s : σ}
    (h : ∀ m < n, ∀ d t, c.runFor j m s = .running d t → d.advance j t = d.advance k t) :
    c.runFor j n s = c.runFor k n s := by
  have htog : Progress.Together (fun c s d t => c = d ∧ s = t) (c.runFor j n s) (c.runFor k n s) := by
    refine runFor_together_on_way ?_ ⟨rfl, rfl⟩
    rintro m hm d t _ _ hrun ⟨rfl, rfl⟩
    rw [← h m hm d t hrun]
    cases d.advance j t with
    | running d' t' => exact .running ⟨rfl, rfl⟩
    | ended d' t' o => exact .ended o ⟨rfl, rfl⟩
  generalize c.runFor j n s = p at htog ⊢
  generalize c.runFor k n s = q at htog ⊢
  cases htog with
  | running hR => rw [hR.1, hR.2]
  | ended o hR => rw [hR.1, hR.2]

theorem exists_last_running {j : Job} {n : Nat} {c c' : Config} {s s' : σ} {o : Outcome}
    (h : c.runFor j n s = .ended c' s' o) :
    ∃ m d t, m < n ∧ c.runFor j m s = .running d t ∧ d.advance j t = .ended c' s' o := by
  induction n generalizing c s with
  | zero => cases h
  | succ n ih =>
    rw [runFor_succ] at h
    cases ha : c.advance j s with
    | running d t =>
      rw [ha] at h
      obtain ⟨m, d', t', hm, hrun, hlast⟩ := ih h
      exact ⟨m + 1, d', t', by omega, (runFor_of_advance ha m).trans hrun, hlast⟩
    | ended d t o' =>
      rw [ha] at h
      exact ⟨0, c, s, by omega, rfl, ha.trans h⟩

end Config

end Brainfuck
