import Mathlib.Logic.Function.Basic

/- Slices of arrays. `place i = some k` says that position `i` of an array is place `k` of
   a slice; `overwrite` copies values into the first `count` places of the slice. A loop
   that goes through the places one after the other overwrites one more at each turn. -/
namespace Slice

variable {ι α : Type*}

def overwrite (place : ι → Option Nat) (count : Nat) (values : Nat → α) (xs : ι → α) : ι → α :=
  fun i =>
    match place i with
    | some k => if k < count then values k else xs i
    | none => xs i

/-- The position is none of the first `count` places. -/
def Outside (place : ι → Option Nat) (count : Nat) (i : ι) : Prop :=
  ∀ k < count, place i ≠ some k

variable {place : ι → Option Nat} {count k : Nat} {values : Nat → α} {xs : ι → α} {i : ι}

theorem overwrite_at (hi : place i = some k) (hk : k < count) :
    overwrite place count values xs i = values k := by
  simp only [overwrite, hi, if_pos hk]

theorem overwrite_outside (h : Outside place count i) :
    overwrite place count values xs i = xs i := by
  unfold overwrite
  cases hi : place i with
  | none => rfl
  | some k =>
    have hk : ¬ k < count := fun hlt => h k hlt hi
    dsimp only
    rw [if_neg hk]

theorem overwrite_zero : overwrite place 0 values xs = xs := by
  funext i
  exact overwrite_outside fun k hk => absurd hk (Nat.not_lt_zero k)

/-- A turn of the loop. -/
theorem overwrite_succ [DecidableEq ι] (hplace : ∀ j, place j = some count ↔ j = i) :
    overwrite place (count + 1) values xs =
      Function.update (overwrite place count values xs) i (values count) := by
  funext j
  rw [Function.update_apply]
  by_cases hj : j = i
  · rw [if_pos hj, overwrite_at ((hplace j).mpr hj) (Nat.lt_succ_self count)]
  · rw [if_neg hj]
    have hne : place j ≠ some count := fun hsome => hj ((hplace j).mp hsome)
    unfold overwrite
    cases hk : place j with
    | none => rfl
    | some k =>
      have hk' : k ≠ count := by
        rintro rfl
        exact hne hk
      dsimp only
      by_cases hlt : k < count
      · rw [if_pos (by omega), if_pos hlt]
      · rw [if_neg (by omega), if_neg hlt]

end Slice
