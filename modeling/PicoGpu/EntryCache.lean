import PicoGpu.Util
import Mathlib.Logic.Function.Basic

/- entry_cache.h: a cache with a fixed number of slots and the order in which they
   were used last. `cacheSize` is `last + 1`. The pointer that `get` and `put`
   return is the slot it points into. -/
namespace PicoGpu

structure Entry (K V : Type) where
  key : K
  value : V

structure EntryCache (K V : Type) (last : Nat) where
  entries : Fin (last + 1) → Entry K V
  /-- First the slot that was used last, at the end the one that is replaced next. -/
  lru : Fin (last + 1) → Fin (last + 1)

namespace EntryCache

variable {K V : Type} {last : Nat}

/-- The constructor; `value` is what `{}` initialises a value to. -/
def new (last : Nat) (invalidKey : K) (value : V) : EntryCache K V last where
  entries := fun _ => ⟨invalidKey, value⟩
  lru := id

/-- The rotation of the order from its start to `index`. -/
def promoteInLru (c : EntryCache K V last) (index : Fin (last + 1)) : EntryCache K V last :=
  { c with
    lru := fun i =>
      if i.val = 0 then c.lru index
      else if i ≤ index then c.lru ⟨i.val - 1, by omega⟩
      else c.lru i }

def get [DecidableEq K] (c : EntryCache K V last) (key : K) :
    Option (Fin (last + 1) × EntryCache K V last) :=
  match (List.finRange (last + 1)).find? fun lruIndex => (c.entries (c.lru lruIndex)).key = key with
  | some lruIndex => some (c.lru lruIndex, c.promoteInLru lruIndex)
  | none => none

def put (c : EntryCache K V last) (key : K) (value : V) :
    Fin (last + 1) × EntryCache K V last :=
  let c := c.promoteInLru (Fin.last last)
  let indexInCache := c.lru ⟨0, Nat.succ_pos last⟩
  (indexInCache, { c with entries := Function.update c.entries indexInCache ⟨key, value⟩ })

/-- Write through the pointer to a value. -/
def modify (c : EntryCache K V last) (slot : Fin (last + 1)) (f : V → V) : EntryCache K V last :=
  { c with
    entries := Function.update c.entries slot ⟨(c.entries slot).key, f (c.entries slot).value⟩ }

/-- The order always names every slot. -/
theorem promoteInLru_surjective {c : EntryCache K V last} (h : Function.Surjective c.lru)
    (index : Fin (last + 1)) : Function.Surjective (c.promoteInLru index).lru := by
  intro slot
  obtain ⟨i, rfl⟩ := h slot
  rcases Nat.lt_trichotomy i.val index.val with hlt | heq | hgt
  · -- the slots before `index` move up by one
    refine ⟨⟨i.val + 1, by omega⟩, ?_⟩
    have hle : (⟨i.val + 1, by omega⟩ : Fin (last + 1)) ≤ index := hlt
    simp only [promoteInLru, Nat.succ_ne_zero, if_false, if_pos hle]
    rfl
  · refine ⟨⟨0, Nat.succ_pos last⟩, ?_⟩
    rw [Fin.ext heq]
    rfl
  · refine ⟨i, ?_⟩
    have hne : i.val ≠ 0 := by omega
    have hnle : ¬ i ≤ index := Nat.not_le_of_lt hgt
    simp only [promoteInLru, hne, if_false, hnle]

/-- A key that is in the cache is found. -/
theorem get_isSome [DecidableEq K] {c : EntryCache K V last} (h : Function.Surjective c.lru)
    (slot : Fin (last + 1)) : ∃ found, c.get (c.entries slot).key = some found := by
  obtain ⟨i, rfl⟩ := h slot
  unfold get
  cases hfind : (List.finRange (last + 1)).find? fun lruIndex =>
      (c.entries (c.lru lruIndex)).key = (c.entries (c.lru i)).key with
  | some lruIndex => exact ⟨_, rfl⟩
  | none => exact absurd (List.find?_eq_none.mp hfind i (List.mem_finRange i)) (by simp)

theorem get_surjective [DecidableEq K] {c c' : EntryCache K V last} {key : K}
    {slot : Fin (last + 1)} (hc : Function.Surjective c.lru) (h : c.get key = some (slot, c')) :
    Function.Surjective c'.lru := by
  unfold get at h
  split at h
  · cases h
    exact promoteInLru_surjective hc _
  · exact nomatch h

theorem get_some [DecidableEq K] {c c' : EntryCache K V last} {key : K} {slot : Fin (last + 1)}
    (h : c.get key = some (slot, c')) : (c.entries slot).key = key ∧ c'.entries = c.entries := by
  unfold get at h
  split at h
  · next lruIndex hfind =>
    cases h
    exact ⟨by simpa using List.find?_some hfind, rfl⟩
  · exact nomatch h

theorem put_entries {c c' : EntryCache K V last} {key : K} {value : V} {slot : Fin (last + 1)}
    (h : c.put key value = (slot, c')) :
    c'.entries = Function.update c.entries slot ⟨key, value⟩ := by
  cases h
  rfl

end EntryCache

end PicoGpu
