import Mathlib.Data.List.Nodup
import Mathlib.Data.List.TakeDrop

/- Keys in the order of their last use. A list of uses, the last one first, names each
   key at its first occurrence, and `n` places hold the first `n` of these keys. A use moves
   its key to the first place: if it had a place the keys before it give way, if not the
   key of the last place is lost. Places without a key hold a blank. -/
namespace Recency

variable {K : Type*} [DecidableEq K]

/-- The keys that were used, each once. -/
def distinct : List K → List K
  | [] => []
  | key :: used => key :: (distinct used).filter (· ≠ key)

/-- The `n` keys that were used last. -/
def recent (n : Nat) (used : List K) : List K := (distinct used).take n

/-- The keys in `n` places. -/
def places (n : Nat) (blank : K) (used : List K) : List K := (distinct used).takeD n blank

variable {n : Nat} {blank key x : K} {used l : List K}

theorem nodup_distinct (used : List K) : (distinct used).Nodup := by
  induction used with
  | nil => exact List.nodup_nil
  | cons key used ih =>
    apply List.nodup_cons.mpr
    refine ⟨?_, ih.filter _⟩
    intro h
    simp at h

/-! ## Padded lists -/

omit [DecidableEq K] in
theorem mem_takeD (hx : x ≠ blank) : x ∈ l.takeD n blank ↔ x ∈ l.take n := by
  induction n generalizing l with
  | zero => simp
  | succ n ih =>
    cases l with
    | nil => simp [hx]
    | cons y l =>
      rw [List.takeD, List.take_succ_cons, List.mem_cons, List.mem_cons]
      exact or_congr Iff.rfl ih

omit [DecidableEq K] in
theorem takeD_dropLast : (l.takeD (n + 1) blank).dropLast = l.takeD n blank := by
  induction n generalizing l with
  | zero => rfl
  | succ n ih =>
    rw [List.takeD, List.dropLast_cons_of_ne_nil, ih]
    · rfl
    · simp

/-- What is not among the first may be left out behind them. -/
theorem takeD_filter (h : key ∉ l.take n) :
    (l.filter (· ≠ key)).takeD n blank = l.takeD n blank := by
  induction n generalizing l with
  | zero => rfl
  | succ n ih =>
    cases l with
    | nil => rfl
    | cons y l =>
      rw [List.take_succ_cons, List.mem_cons, not_or] at h
      have hy : decide (y ≠ key) = true := decide_eq_true (Ne.symm h.1)
      rw [List.filter_cons, if_pos hy, List.takeD, List.takeD]
      exact congrArg (List.cons y) (ih h.2)

omit [DecidableEq K] in
/-- A key is in one place only. -/
theorem takeD_inj (hnodup : l.Nodup) (hx : x ≠ blank) {i j : Nat}
    (hi : (l.takeD n blank)[i]? = some x) (hj : (l.takeD n blank)[j]? = some x) : i = j := by
  induction n generalizing l i j with
  | zero => simp at hi
  | succ n ih =>
    have hmem : ∀ {k : Nat}, (l.tail.takeD n blank)[k]? = some x → x ∈ l.tail := by
      intro k hk
      exact List.mem_of_mem_take ((mem_takeD hx).mp (List.mem_of_getElem? hk))
    have hhead : l.headD blank = x → x ∉ l.tail := by
      cases l with
      | nil => simp
      | cons y l =>
        rintro rfl
        exact (List.nodup_cons.mp hnodup).1
    rw [List.takeD] at hi hj
    cases i with
    | zero =>
      cases j with
      | zero => rfl
      | succ j =>
        rw [List.getElem?_cons_zero, Option.some_inj] at hi
        rw [List.getElem?_cons_succ] at hj
        exact absurd (hmem hj) (hhead hi)
    | succ i =>
      rw [List.getElem?_cons_succ] at hi
      cases j with
      | zero =>
        rw [List.getElem?_cons_zero, Option.some_inj] at hj
        exact absurd (hmem hi) (hhead hj)
      | succ j =>
        rw [List.getElem?_cons_succ] at hj
        rw [ih hnodup.tail hi hj]

/-- To take a key out of its place moves those behind it forward. -/
theorem takeD_eraseIdx (hnodup : l.Nodup) (hkey : key ≠ blank) {i : Nat}
    (hi : (l.takeD (n + 1) blank)[i]? = some key) :
    (l.takeD (n + 1) blank).eraseIdx i = (l.filter (· ≠ key)).takeD n blank := by
  induction n generalizing l i with
  | zero =>
    have hlt := (List.getElem?_eq_some_iff.mp hi).1
    simp only [List.takeD_length] at hlt
    obtain rfl : i = 0 := by omega
    rfl
  | succ n ih =>
    cases l with
    | nil =>
      have hmem := List.mem_of_getElem? hi
      rw [mem_takeD hkey] at hmem
      simp at hmem
    | cons y l =>
      obtain ⟨hy, hnodup⟩ := List.nodup_cons.mp hnodup
      rw [List.takeD] at hi ⊢
      cases i with
      | zero =>
        rw [List.getElem?_cons_zero, Option.some_inj] at hi
        obtain rfl : y = key := hi
        -- the key is found at the head, and it is nowhere else
        have hnot : y ∉ l.take (n + 1) := fun h => hy (List.mem_of_mem_take h)
        rw [List.filter_cons, if_neg (by simp), takeD_filter hnot]
        rfl
      | succ i =>
        rw [List.getElem?_cons_succ] at hi
        have hmem : key ∈ l :=
          List.mem_of_mem_take ((mem_takeD hkey).mp (List.mem_of_getElem? hi))
        -- the key is further back, so the head stays where it is
        have hne : decide (y ≠ key) = true := by
          apply decide_eq_true
          rintro rfl
          exact hy hmem
        rw [List.filter_cons, if_pos hne, List.takeD, List.eraseIdx_cons_succ]
        exact congrArg (List.cons y) (ih hnodup hi)

/-! ## Places -/

theorem mem_places (hx : x ≠ blank) : x ∈ places n blank used ↔ x ∈ recent n used := mem_takeD hx

theorem places_nil : places n blank [] = List.replicate n blank := List.takeD_nil n blank

theorem places_inj (hx : x ≠ blank) {i j : Nat} (hi : (places n blank used)[i]? = some x)
    (hj : (places n blank used)[j]? = some x) : i = j := takeD_inj (nodup_distinct used) hx hi hj

/-- A key that has a place is used. -/
theorem places_hit (hkey : key ≠ blank) {i : Nat} (hi : (places (n + 1) blank used)[i]? = some key) :
    places (n + 1) blank (key :: used) = key :: (places (n + 1) blank used).eraseIdx i := by
  rw [places, places, takeD_eraseIdx (nodup_distinct used) hkey hi]
  rfl

/-- A key that has no place is used. -/
theorem places_miss (hkey : key ≠ blank) (h : key ∉ places (n + 1) blank used) :
    places (n + 1) blank (key :: used) = key :: (places (n + 1) blank used).dropLast := by
  rw [mem_places hkey] at h
  have hnot : key ∉ (distinct used).take n := by
    intro hmem
    exact h (List.take_subset_take_left _ (Nat.le_succ n) hmem)
  rw [places, places, takeD_dropLast, ← takeD_filter hnot]
  rfl

end Recency
