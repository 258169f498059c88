import Mathlib.Tactic.Common

/- Atomic objects. An object with state `σ` answers operations one at a time;
   `served` is the order in which it served the operations of its clients. What
   a client sees of the object is its own part of the operations and of the
   results, in that order. A client that alone changes the state sees what it
   would see with the object to itself. -/
namespace Atomic

variable {σ O R C X : Type*}

/-- The state after the served operations. -/
def state (apply : σ → O → σ × R) (s : σ) (served : List (C × O)) : σ :=
  served.foldl (fun s x => (apply s x.2).1) s

/-- The results of the served operations. -/
def results (apply : σ → O → σ × R) : σ → List (C × O) → List (C × R)
  | _, [] => []
  | s, (c, o) :: served => (c, (apply s o).2) :: results apply (apply s o).1 served

/-- What belongs to client `c`. -/
def ofClient [DecidableEq C] (c : C) (served : List (C × X)) : List X :=
  served.filterMap fun x => if x.1 = c then some x.2 else none

theorem state_concat (apply : σ → O → σ × R) (s : σ) (served : List (C × O)) (c : C) (o : O) :
    state apply s (served ++ [(c, o)]) = (apply (state apply s served) o).1 := by
  simp [state]

theorem results_concat (apply : σ → O → σ × R) (c : C) (o : O) : ∀ (s : σ) (served : List (C × O)),
    results apply s (served ++ [(c, o)]) =
      results apply s served ++ [(c, (apply (state apply s served) o).2)]
  | s, [] => rfl
  | s, (d, p) :: served => by
    have ih := results_concat apply c o (apply s p).1 served
    simp only [List.cons_append, results, ih]
    rfl

@[simp] theorem ofClient_nil [DecidableEq C] (c : C) : ofClient c ([] : List (C × X)) = [] := rfl

@[simp] theorem ofClient_concat_self [DecidableEq C] (c : C) (x : X) (served : List (C × X)) :
    ofClient c (served ++ [(c, x)]) = ofClient c served ++ [x] := by
  simp [ofClient]

theorem ofClient_concat_ne [DecidableEq C] {c d : C} (h : d ≠ c) (x : X) (served : List (C × X)) :
    ofClient c (served ++ [(d, x)]) = ofClient c served := by
  simp [ofClient, h]

theorem mem_ofClient [DecidableEq C] {c : C} {x : X} {served : List (C × X)} :
    x ∈ ofClient c served ↔ (c, x) ∈ served := by
  simp [ofClient]

/-! ## A client with the object to itself -/

/-- The state after some operations. -/
def stateAfter (apply : σ → O → σ × R) (s : σ) (ops : List O) : σ :=
  ops.foldl (fun s o => (apply s o).1) s

/-- What they answer. -/
def replies (apply : σ → O → σ × R) : σ → List O → List R
  | _, [] => []
  | s, o :: ops => (apply s o).2 :: replies apply (apply s o).1 ops

theorem stateAfter_concat (apply : σ → O → σ × R) (s : σ) (ops : List O) (o : O) :
    stateAfter apply s (ops ++ [o]) = (apply (stateAfter apply s ops) o).1 := by
  simp [stateAfter]

theorem replies_concat (apply : σ → O → σ × R) (s : σ) (ops : List O) (o : O) :
    replies apply s (ops ++ [o]) =
      replies apply s ops ++ [(apply (stateAfter apply s ops) o).2] := by
  induction ops generalizing s with
  | nil => rfl
  | cons p ops ih =>
    simp only [List.cons_append, replies, ih]
    rfl

/-- If the operations of the others change nothing, the state and the results of client
    `c` are those of its own operations. -/
theorem only_client [DecidableEq C] (apply : σ → O → σ × R) (c : C) {served : List (C × O)}
    (hothers : ∀ x ∈ served, x.1 ≠ c → ∀ s, (apply s x.2).1 = s) (s : σ) :
    state apply s served = stateAfter apply s (ofClient c served) ∧
      ofClient c (results apply s served) = replies apply s (ofClient c served) := by
  induction served generalizing s with
  | nil => exact ⟨rfl, rfl⟩
  | cons x served ih =>
    obtain ⟨d, o⟩ := x
    obtain ⟨hstate, hresults⟩ := ih (fun x hx => hothers x (List.mem_cons_of_mem _ hx)) (apply s o).1
    have hhead : state apply s ((d, o) :: served) = state apply (apply s o).1 served := rfl
    by_cases hd : d = c
    · subst hd
      rw [hhead, hstate]
      unfold ofClient at hresults ⊢
      simp [results, replies, stateAfter, hresults]
    · have hsame := hothers (d, o) List.mem_cons_self hd s
      rw [hhead, hstate, hsame]
      rw [hsame] at hresults
      unfold ofClient at hresults ⊢
      simp [results, hd, hsame, hresults]

/-! ## What no operation changes -/

/-- If the operations keep an invariant of the state, and the invariant alone says what the
    operations of client `c` are answered, these are its results. -/
theorem ofClient_results [DecidableEq C] {apply : σ → O → σ × R} {c : C} {served : List (C × O)}
    {invariant : σ → Prop} {reply : O → R}
    (hkeeps : ∀ x ∈ served, ∀ s, invariant s → invariant (apply s x.2).1)
    (hreply : ∀ x ∈ served, x.1 = c → ∀ s, invariant s → (apply s x.2).2 = reply x.2) {s : σ}
    (h : invariant s) : ofClient c (results apply s served) = (ofClient c served).map reply := by
  induction served generalizing s with
  | nil => rfl
  | cons x served ih =>
    obtain ⟨d, o⟩ := x
    have ih' := ih (fun x hx => hkeeps x (List.mem_cons_of_mem _ hx))
      (fun x hx => hreply x (List.mem_cons_of_mem _ hx)) (hkeeps (d, o) List.mem_cons_self s h)
    unfold ofClient at ih' ⊢
    by_cases hd : d = c
    · subst hd
      have hanswer := hreply (d, o) List.mem_cons_self rfl s h
      simp [results, hanswer, ih']
    · simp [results, hd, ih']

end Atomic
