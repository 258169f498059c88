import Mathlib.Data.List.MinMax
import Mathlib.Data.List.Nodup

/- Cells that keep the nearest of what comes by. A cell is replaced by an element that
   is strictly nearer, so what is left at the end is the first of the nearest, with
   the cell itself before all others. -/
namespace Nearest

variable {X K : Type*} [LinearOrder K] (key : X → K)

/-- The cell after one element. -/
def keep (cell x : X) : X := if key x < key cell then x else cell

/-- The cell after a list: the first of its nearest elements, if that is nearer. -/
def nearest (cell : X) (xs : List X) : X :=
  match xs.argmin key with
  | some x => keep key cell x
  | none => cell

variable {key} {cell : X} {xs ys : List X}

theorem keep_nearer {x : X} (h : key x < key cell) : keep key cell x = x := if_pos h

theorem keep_farther {x : X} (h : key cell ≤ key x) : keep key cell x = cell :=
  if_neg (not_lt.mpr h)

theorem nearest_concat (cell : X) (xs : List X) (x : X) :
    nearest key cell (xs ++ [x]) = keep key (nearest key cell xs) x := by
  unfold nearest
  rw [List.argmin_concat]
  cases xs.argmin key with
  | none => rfl
  | some least =>
    dsimp only
    by_cases hx : key x < key least
    · rw [if_pos hx]
      dsimp only
      by_cases hcell : key least < key cell
      · rw [keep_nearer hcell, keep_nearer hx, keep_nearer (hx.trans hcell)]
      · rw [keep_farther (not_lt.mp hcell)]
    · rw [if_neg hx]
      dsimp only
      by_cases hcell : key least < key cell
      · rw [keep_nearer hcell, keep_farther (not_lt.mp hx)]
      · rw [keep_farther (not_lt.mp hcell),
          keep_farther ((not_lt.mp hcell).trans (not_lt.mp hx))]

theorem nearest_mem (cell : X) (xs : List X) : nearest key cell xs ∈ cell :: xs := by
  unfold nearest
  cases hmin : xs.argmin key with
  | none => exact List.mem_cons_self
  | some x =>
    dsimp only
    unfold keep
    split
    · exact List.mem_cons_of_mem _ (List.argmin_mem hmin)
    · exact List.mem_cons_self

/-- Nothing is nearer than the cell at the end. -/
theorem nearest_le {x : X} (hx : x ∈ cell :: xs) : key (nearest key cell xs) ≤ key x := by
  induction xs using List.reverseRecOn generalizing x with
  | nil =>
    rw [List.mem_singleton.mp hx]
    exact le_refl _
  | append_singleton xs y ih =>
    rw [nearest_concat]
    unfold keep
    rw [← List.cons_append, List.mem_append, List.mem_singleton] at hx
    split
    next hlt =>
      obtain hx | rfl := hx
      · exact le_of_lt (lt_of_lt_of_le hlt (ih hx))
      · exact le_refl _
    next hle =>
      obtain hx | rfl := hx
      · exact ih hx
      · exact not_lt.mp hle

/-- Either nothing is nearer than the cell was, or it is replaced by the first of the nearest. -/
theorem nearest_first (cell : X) (xs : List X) :
    (nearest key cell xs = cell ∧ ∀ x ∈ xs, key cell ≤ key x) ∨
      ∃ before x after, xs = before ++ x :: after ∧ nearest key cell xs = x ∧ key x < key cell ∧
        (∀ y ∈ before, key x < key y) ∧ ∀ y ∈ after, key x ≤ key y := by
  induction xs using List.reverseRecOn with
  | nil => exact .inl ⟨rfl, by intro x hx; cases hx⟩
  | append_singleton xs y ih =>
    rw [nearest_concat]
    by_cases hlt : key y < key (nearest key cell xs)
    · rw [keep_nearer hlt]
      refine .inr ⟨xs, y, [], rfl, rfl, ?_, fun z hz => ?_, by intro z hz; cases hz⟩
      · exact lt_of_lt_of_le hlt (nearest_le List.mem_cons_self)
      · exact lt_of_lt_of_le hlt (nearest_le (List.mem_cons_of_mem _ hz))
    · have hle := not_lt.mp hlt
      rw [keep_farther hle]
      obtain ⟨hcell, hall⟩ | ⟨before, x, after, rfl, hx, hnearer, hbefore, hafter⟩ := ih
      · rw [hcell] at hle ⊢
        refine .inl ⟨rfl, fun z hz => ?_⟩
        obtain hz | hz := List.mem_append.mp hz
        · exact hall z hz
        · rwa [List.mem_singleton.mp hz]
      · rw [hx] at hle ⊢
        refine .inr ⟨before, x, after ++ [y], by simp, rfl, hnearer, hbefore, fun z hz => ?_⟩
        obtain hz | hz := List.mem_append.mp hz
        · exact hafter z hz
        · rwa [List.mem_singleton.mp hz]

/-- Where no two elements are equally near, their order does not matter. -/
theorem nearest_perm (h : xs.Perm ys) (hnodup : (xs.map key).Nodup) (cell : X) :
    nearest key cell xs = nearest key cell ys := by
  have hmin : xs.argmin key = ys.argmin key := by
    cases hx : xs.argmin key with
    | none =>
      rw [List.argmin_eq_none.mp hx] at h
      rw [List.nil_perm.mp h, List.argmin_nil]
    | some x =>
      have hxmem := List.argmin_mem hx
      cases hy : ys.argmin key with
      | none =>
        rw [List.argmin_eq_none.mp hy] at h
        rw [h.eq_nil] at hxmem
        cases hxmem
      | some y =>
        have hymem := h.mem_iff.mpr (List.argmin_mem hy)
        have hkeys : key x = key y := by
          apply le_antisymm
          · exact List.le_of_mem_argmin hymem hx
          · exact List.le_of_mem_argmin (h.mem_iff.mp hxmem) hy
        rw [List.inj_on_of_nodup_map hnodup hxmem hymem hkeys]
  unfold nearest
  rw [hmin]

end Nearest
