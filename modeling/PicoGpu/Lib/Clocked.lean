import Mathlib.Tactic.Common

/- Clocked systems. A state is everything a clock edge can read: the program
   points and locals of the processes and the values their signals show. One
   clock is a function of the state; `run step s n` is the state after `n`
   clocks. A process reads the old state and writes the new one, so a signal
   written at a clock is seen at the next one. The clock number is an argument
   of `step`, for what the environment does at that clock. -/
namespace Clocked

variable {S : Type*}

def run (step : Nat → S → S) (s : S) : Nat → S
  | 0 => s
  | n + 1 => step n (run step s n)

@[simp] theorem run_zero (step : Nat → S → S) (s : S) : run step s 0 = s := rfl

theorem run_succ (step : Nat → S → S) (s : S) (n : Nat) :
    run step s (n + 1) = step n (run step s n) := rfl

/-- What every clock preserves while its guard holds is true as long as all
    guards before it held. -/
theorem run_inv {step : Nat → S → S} {Inv : S → Prop} {Ok : Nat → S → Prop} {s : S}
    (h0 : Inv s) (hstep : ∀ n s, Inv s → Ok n s → Inv (step n s)) :
    ∀ n, (∀ m < n, Ok m (run step s m)) → Inv (run step s n)
  | 0, _ => h0
  | n + 1, h =>
    hstep n _ (run_inv h0 hstep n fun m hm => h m (by omega)) (h n (by omega))

/-- A run knows nothing of the clocks to come. -/
theorem run_agree {step step' : Nat → S → S} {s : S} :
    ∀ n, (∀ m < n, step m = step' m) → run step s n = run step' s n
  | 0, _ => rfl
  | n + 1, h => by
    rw [run_succ, run_succ, run_agree n fun m hm => h m (by omega), h n (by omega)]

theorem run_always {step : Nat → S → S} {Inv : S → Prop} {s : S} (h0 : Inv s)
    (hstep : ∀ n s, Inv s → Inv (step n s)) (n : Nat) : Inv (run step s n) :=
  @run_inv S step Inv (fun _ _ => True) s h0 (fun n s h _ => hstep n s h) n fun _ _ => trivial

/-- A rank that drops at every clock before the goal bounds the clocks to it. -/
theorem run_reaches {step : Nat → S → S} {s : S} {Inv Goal : S → Prop} {rank : S → Nat}
    (hstep : ∀ n s, Inv s → ¬ Goal s → Inv (step n s) ∧ rank (step n s) < rank s) :
    ∀ k n, Inv (run step s n) → rank (run step s n) ≤ k →
      ∃ d ≤ k, Inv (run step s (n + d)) ∧ Goal (run step s (n + d))
  | k, n, hi, hk => by
    by_cases hg : Goal (run step s n)
    · exact ⟨0, Nat.zero_le _, hi, hg⟩
    · obtain ⟨hi', hlt⟩ := hstep n _ hi hg
      rw [← run_succ step s n] at hi' hlt
      cases k with
      | zero => omega
      | succ k =>
        obtain ⟨d, hd, hgoal⟩ := run_reaches hstep k (n + 1) hi' (by omega)
        refine ⟨d + 1, by omega, ?_⟩
        rwa [Nat.add_right_comm] at hgoal

/-- What stays as it is until it is served is found as it was when it is served. -/
theorem run_waits {step : Nat → S → S} {s : S} {Waits : S → Prop} {Served : Nat → Prop}
    (hstay : ∀ n s, Waits s → ¬ Served n → Waits (step n s)) :
    ∀ d n, Waits (run step s n) → Served (n + d) →
      ∃ m ≥ n, Waits (run step s m) ∧ Served m
  | d, n, h, hserved => by
    by_cases hnow : Served n
    · exact ⟨n, Nat.le_refl _, h, hnow⟩
    · cases d with
      | zero => exact absurd hserved hnow
      | succ d =>
        have hnext : Waits (run step s (n + 1)) := hstay n _ h hnow
        rw [← Nat.add_assoc, Nat.add_right_comm] at hserved
        obtain ⟨m, hm, hfound⟩ := run_waits hstay d (n + 1) hnext hserved
        exact ⟨m, by omega, hfound⟩

/-- A rank that drops again and again until the goal leads to the goal. -/
theorem run_descends {step : Nat → S → S} {s : S} {Goal : S → Prop} {rank : S → Nat}
    (hdrop : ∀ n, ¬ Goal (run step s n) →
      ∃ m ≥ n, rank (run step s m) < rank (run step s n)) (n : Nat) :
    ∃ m ≥ n, Goal (run step s m) := by
  induction hrank : rank (run step s n) using Nat.strongRecOn generalizing n with
  | ind k ih =>
    by_cases hgoal : Goal (run step s n)
    · exact ⟨n, Nat.le_refl _, hgoal⟩
    · obtain ⟨m, hm, hlt⟩ := hdrop n hgoal
      obtain ⟨m', hm', hfound⟩ := ih _ (hrank ▸ hlt) m rfl
      exact ⟨m', by omega, hfound⟩

end Clocked
