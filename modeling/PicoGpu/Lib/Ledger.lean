import Mathlib.Data.List.Basic
import Mathlib.Logic.Function.Basic

/- A ledger of work: items are issued in order, each to a worker that is free, handed
   in one at a time, and settled. An item is a number in the list of those issued, and
   it is at one place only: with one worker, in hand, or settled. -/
namespace Ledgers

/-- The places of the items that were issued, with what keeps them apart. -/
structure Ledger (Worker Item : Type) where
  issued : List Item
  job : Worker → Option Nat
  inHand : Option Nat
  settled : List Nat
  job_lt : ∀ w i, job w = some i → i < issued.length
  job_unique : ∀ v w i, job v = some i → job w = some i → v = w
  job_inHand : ∀ w i, job w = some i → inHand ≠ some i
  job_settled : ∀ w i, job w = some i → i ∉ settled
  inHand_lt : ∀ i, inHand = some i → i < issued.length
  inHand_settled : ∀ i, inHand = some i → i ∉ settled
  settled_lt : ∀ i ∈ settled, i < issued.length
  nodup : settled.Nodup

variable {Worker Item : Type}

def Ledger.empty : Ledger Worker Item where
  issued := []
  job := fun _ => none
  inHand := none
  settled := []
  job_lt := by simp
  job_unique := by simp
  job_inHand := by simp
  job_settled := by simp
  inHand_lt := by simp
  inHand_settled := by simp
  settled_lt := by simp
  nodup := .nil

variable [DecidableEq Worker]

theorem update_eq_some {job : Worker → Option Nat} {v w : Worker} {place : Option Nat} {i : Nat} :
    Function.update job w place v = some i ↔ v = w ∧ place = some i ∨ v ≠ w ∧ job v = some i := by
  by_cases hv : v = w
  · subst hv
    simp
  · simp [hv]

/-- Issue an item to a worker that has none. Its number is not used yet. -/
def Ledger.assign (l : Ledger Worker Item) (w : Worker) (item : Item) :
    Ledger Worker Item where
  issued := l.issued ++ [item]
  job := Function.update l.job w (some l.issued.length)
  inHand := l.inHand
  settled := l.settled
  job_lt := by
    intro v i h
    rw [List.length_append, List.length_singleton]
    obtain ⟨-, h⟩ | ⟨-, h⟩ := update_eq_some.mp h
    · cases h
      exact Nat.lt_succ_self _
    · exact Nat.lt_succ_of_lt (l.job_lt v i h)
  job_unique := by
    intro u v i hu hv
    obtain ⟨huw, hu⟩ | ⟨-, hu⟩ := update_eq_some.mp hu <;>
      obtain ⟨hvw, hv⟩ | ⟨-, hv⟩ := update_eq_some.mp hv
    · rw [huw, hvw]
    · cases hu
      exact absurd (l.job_lt v _ hv) (Nat.lt_irrefl _)
    · cases hv
      exact absurd (l.job_lt u _ hu) (Nat.lt_irrefl _)
    · exact l.job_unique u v i hu hv
  job_inHand := by
    intro v i h hhand
    obtain ⟨-, h⟩ | ⟨-, h⟩ := update_eq_some.mp h
    · cases h
      exact Nat.lt_irrefl _ (l.inHand_lt _ hhand)
    · exact l.job_inHand v i h hhand
  job_settled := by
    intro v i h hsettled
    obtain ⟨-, h⟩ | ⟨-, h⟩ := update_eq_some.mp h
    · cases h
      exact Nat.lt_irrefl _ (l.settled_lt _ hsettled)
    · exact l.job_settled v i h hsettled
  inHand_lt := by
    intro i h
    rw [List.length_append]
    exact Nat.lt_add_right _ (l.inHand_lt i h)
  inHand_settled := l.inHand_settled
  settled_lt := by
    intro i h
    rw [List.length_append]
    exact Nat.lt_add_right _ (l.settled_lt i h)
  nodup := l.nodup

/-- Take what a worker has finished. -/
def Ledger.collect (l : Ledger Worker Item) (w : Worker) : Ledger Worker Item where
  issued := l.issued
  job := Function.update l.job w none
  inHand := l.job w
  settled := l.settled
  job_lt := by
    intro v i h
    obtain ⟨-, h⟩ | ⟨-, h⟩ := update_eq_some.mp h
    · exact nomatch h
    · exact l.job_lt v i h
  job_unique := by
    intro u v i hu hv
    obtain ⟨-, hu⟩ | ⟨-, hu⟩ := update_eq_some.mp hu
    · exact nomatch hu
    obtain ⟨-, hv⟩ | ⟨-, hv⟩ := update_eq_some.mp hv
    · exact nomatch hv
    exact l.job_unique u v i hu hv
  job_inHand := by
    intro v i h hhand
    obtain ⟨-, h⟩ | ⟨hv, h⟩ := update_eq_some.mp h
    · exact nomatch h
    · exact hv (l.job_unique v w i h hhand)
  job_settled := by
    intro v i h
    obtain ⟨-, h⟩ | ⟨-, h⟩ := update_eq_some.mp h
    · exact nomatch h
    · exact l.job_settled v i h
  inHand_lt := l.job_lt w
  inHand_settled := l.job_settled w
  settled_lt := l.settled_lt
  nodup := l.nodup

/-- Settle what is in hand. -/
def Ledger.settle (l : Ledger Worker Item) : Ledger Worker Item where
  issued := l.issued
  job := l.job
  inHand := none
  settled := l.settled ++ l.inHand.toList
  job_lt := l.job_lt
  job_unique := l.job_unique
  job_inHand := by simp
  job_settled := by
    intro w i h hi
    rw [List.mem_append, Option.mem_toList] at hi
    exact hi.elim (l.job_settled w i h) (l.job_inHand w i h)
  inHand_lt := by simp
  inHand_settled := by simp
  settled_lt := by
    intro i hi
    rw [List.mem_append, Option.mem_toList] at hi
    exact hi.elim (l.settled_lt i) (l.inHand_lt i)
  nodup := by
    refine List.nodup_append.mpr ⟨l.nodup, ?_, fun i hi j hj => ?_⟩
    · cases l.inHand <;> simp
    · rintro rfl
      exact l.inHand_settled i (Option.mem_toList.mp hj) hi

end Ledgers
