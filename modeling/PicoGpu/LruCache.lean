import PicoGpu.Lib.Recency
import PicoGpu.ShaderFrontend
import Mathlib.Data.Fintype.EquivFin
import Mathlib.Data.List.Induction
import Mathlib.Data.List.OfFn

/- The cache as a cache of the keys that were used last. The keys of its slots, in the
   order of use, are those of the last uses (`Kept`): a hit and a `put` after a miss both
   move the key that they use to the first place. -/
namespace PicoGpu
open Recency

namespace EntryCache

variable {K V : Type} {last : Nat}

/-- The keys of the slots in the order of their use. -/
def order (c : EntryCache K V last) : List K := List.ofFn fun i => (c.entries (c.lru i)).key

variable {c c' : EntryCache K V last} {key : K} {value : V} {slot : Fin (last + 1)}

theorem order_length (c : EntryCache K V last) : c.order.length = last + 1 := List.length_ofFn

theorem order_getElem? (c : EntryCache K V last) (i : Fin (last + 1)) :
    c.order[i.val]? = some (c.entries (c.lru i)).key := by
  unfold order
  rw [List.getElem?_ofFn, dif_pos i.isLt]

theorem mem_order (slot : Fin (last + 1)) (h : Function.Surjective c.lru) :
    (c.entries slot).key ∈ c.order := by
  obtain ⟨i, rfl⟩ := h slot
  exact List.mem_of_getElem? (c.order_getElem? i)

/-- A promotion takes the key out of its place and puts it first. -/
theorem order_promoteInLru (c : EntryCache K V last) (index : Fin (last + 1)) :
    (c.promoteInLru index).order =
      (c.entries (c.lru index)).key :: c.order.eraseIdx index.val := by
  have hlength : ((c.entries (c.lru index)).key :: c.order.eraseIdx index.val).length = last + 1 := by
    rw [List.length_cons, List.length_eraseIdx_of_lt (by rw [order_length]; exact index.isLt),
      order_length]
    rfl
  apply List.ext_getElem?
  intro j
  by_cases hj : j < last + 1
  · rw [(c.promoteInLru index).order_getElem? ⟨j, hj⟩]
    cases j with
    | zero => rfl
    | succ j =>
      rw [List.getElem?_cons_succ, List.getElem?_eraseIdx]
      -- up to `index` the keys move back by one place, behind it they stay
      by_cases hle : j < index.val
      · have hbefore : (⟨j + 1, hj⟩ : Fin (last + 1)) ≤ index := hle
        rw [if_pos hle, c.order_getElem? ⟨j, by omega⟩]
        simp only [promoteInLru, Nat.succ_ne_zero, if_false, if_pos hbefore]
        rfl
      · have hbehind : ¬ (⟨j + 1, hj⟩ : Fin (last + 1)) ≤ index := hle
        rw [if_neg hle, c.order_getElem? ⟨j + 1, hj⟩]
        simp only [promoteInLru, Nat.succ_ne_zero, if_false, if_neg hbehind]
  · rw [List.getElem?_eq_none (by rw [order_length]; omega),
      List.getElem?_eq_none (by rw [hlength]; omega)]

/-- `put` gives the slot that was used least lately to the key. -/
theorem order_put (h : Function.Injective c.lru) (key : K) (value : V) :
    (c.put key value).2.order = key :: c.order.dropLast := by
  have hpromoted := c.order_promoteInLru (Fin.last last)
  have htail : (c.order).eraseIdx last = c.order.dropLast := by
    rw [List.dropLast_eq_take, order_length, List.eraseIdx_eq_take_drop_succ]
    simp [order_length]
  -- the slot that is written is only in the first place
  have hother : ∀ i : Fin (last + 1), i.val ≠ 0 →
      (c.promoteInLru (Fin.last last)).lru i ≠ c.lru (Fin.last last) := by
    intro i hi
    have hle : i ≤ Fin.last last := Fin.le_last i
    simp only [promoteInLru, hi, if_false, if_pos hle]
    intro heq
    have hval := congrArg Fin.val (h heq)
    simp only [Fin.val_last] at hval
    omega
  have hentries : (c.put key value).2.entries =
      Function.update c.entries (c.lru (Fin.last last)) ⟨key, value⟩ := rfl
  have hlru : (c.put key value).2.lru = (c.promoteInLru (Fin.last last)).lru := rfl
  have hfirst : (c.promoteInLru (Fin.last last)).lru ⟨0, Nat.succ_pos last⟩ =
      c.lru (Fin.last last) := rfl
  rw [show (Fin.last last).val = last from rfl, htail] at hpromoted
  apply List.ext_getElem?
  intro j
  by_cases hj : j < last + 1
  · rw [(c.put key value).2.order_getElem? ⟨j, hj⟩, hentries, hlru]
    cases j with
    | zero =>
      rw [hfirst, Function.update_self]
      rfl
    | succ j =>
      have hkept := (c.promoteInLru (Fin.last last)).order_getElem? ⟨j + 1, hj⟩
      rw [hpromoted] at hkept
      rw [List.getElem?_cons_succ] at hkept ⊢
      rw [hkept, Function.update_of_ne (hother ⟨j + 1, hj⟩ (Nat.succ_ne_zero j))]
      rfl
  · rw [List.getElem?_eq_none (by rw [order_length]; omega),
      List.getElem?_eq_none (by simp [order_length]; omega)]

variable [DecidableEq K]

/-- `get` finds a place of the key, if it has one. -/
theorem get_cases (c : EntryCache K V last) (key : K) :
    (∃ i, c.get key = some (c.lru i, c.promoteInLru i) ∧ c.order[i.val]? = some key) ∨
      (c.get key = none ∧ key ∉ c.order) := by
  unfold get
  cases hfind : (List.finRange (last + 1)).find? fun lruIndex =>
      (c.entries (c.lru lruIndex)).key = key with
  | some i =>
    refine .inl ⟨i, rfl, ?_⟩
    rw [c.order_getElem? i]
    exact congrArg some (by simpa using List.find?_some hfind)
  | none =>
    refine .inr ⟨rfl, ?_⟩
    intro hmem
    obtain ⟨i, hi⟩ := List.mem_ofFn.mp hmem
    exact absurd (List.find?_eq_none.mp hfind i (List.mem_finRange i)) (by simpa using hi)

end EntryCache

/-! ## Runs -/

inductive CacheOperation (K V : Type) where
  | get (key : K)
  | put (key : K) (value : V)

def CacheOperation.key {K V : Type} : CacheOperation K V → K
  | get key | put key _ => key

/-- A cache, and what a recorder notes about the operations on it. -/
structure CacheLog (K V : Type) (last : Nat) where
  cache : EntryCache K V last
  /-- the keys that were used, by a hit or by a `put`, the last one first -/
  used : List K
  /-- the value that was put last for a key -/
  lastPut : K → Option V

namespace CacheLog

variable {K V : Type} [DecidableEq K] {last : Nat}

def step (log : CacheLog K V last) : CacheOperation K V → CacheLog K V last
  | .get key =>
    match log.cache.get key with
    | some (_, cache) => { log with cache := cache, used := key :: log.used }
    | none => log
  | .put key value =>
    { cache := (log.cache.put key value).2
      used := key :: log.used
      lastPut := Function.update log.lastPut key (some value) }

variable (last) (invalidKey : K) (value : V)

def new : CacheLog K V last := ⟨.new last invalidKey value, [], fun _ => none⟩

def after (operations : List (CacheOperation K V)) : CacheLog K V last :=
  operations.foldl step (new last invalidKey value)

/-- Each `put` follows directly on a `get` of its key that missed. -/
def PutsAfterMiss (operations : List (CacheOperation K V)) : Prop :=
  ∀ i key v, operations[i]? = some (.put key v) →
    ∃ j, i = j + 1 ∧ operations[j]? = some (.get key) ∧
      (after last invalidKey value (operations.take j)).cache.get key = none

/-- What every operation keeps. -/
structure Kept (log : CacheLog K V last) : Prop where
  lru : Function.Surjective log.cache.lru
  order : log.cache.order = places (last + 1) invalidKey log.used
  values : ∀ slot, (log.cache.entries slot).key ≠ invalidKey →
    log.lastPut (log.cache.entries slot).key = some (log.cache.entries slot).value

variable {last} {invalidKey value} {log : CacheLog K V last} {key : K}

theorem kept_new : Kept last invalidKey (new last invalidKey value) where
  lru := Function.surjective_id
  order := by
    rw [new, places_nil]
    exact List.ofFn_const (last + 1) invalidKey
  values := by
    intro slot h
    exact absurd rfl h

theorem step_hit {slot : Fin (last + 1)} {cache : EntryCache K V last}
    (h : log.cache.get key = some (slot, cache)) :
    log.step (.get key) = { log with cache := cache, used := key :: log.used } := by
  unfold step
  dsimp only
  rw [h]

theorem step_miss (h : log.cache.get key = none) : log.step (.get key) = log := by
  unfold step
  dsimp only
  rw [h]

theorem kept_get (h : Kept last invalidKey log) (hkey : key ≠ invalidKey) :
    Kept last invalidKey (log.step (.get key)) := by
  obtain ⟨i, hget, hplace⟩ | ⟨hget, -⟩ := log.cache.get_cases key
  · rw [step_hit hget]
    have hlast : (log.cache.entries (log.cache.lru i)).key = key :=
      Option.some_inj.mp ((log.cache.order_getElem? i).symm.trans hplace)
    refine ⟨EntryCache.promoteInLru_surjective h.lru i, ?_, h.values⟩
    show (log.cache.promoteInLru i).order = _
    rw [h.order] at hplace
    rw [EntryCache.order_promoteInLru, hlast, h.order, places_hit hkey hplace]
  · rw [step_miss hget]
    exact h

theorem kept_put (h : Kept last invalidKey log) (hkey : key ≠ invalidKey)
    (hmiss : log.cache.get key = none) (v : V) : Kept last invalidKey (log.step (.put key v)) := by
  have hnot : key ∉ log.cache.order := by
    obtain ⟨i, hget, -⟩ | ⟨-, hnot⟩ := log.cache.get_cases key
    · rw [hmiss] at hget
      cases hget
    · exact hnot
  refine ⟨EntryCache.promoteInLru_surjective h.lru (Fin.last last), ?_, fun slot hvalid => ?_⟩
  · -- a key without a place takes the last one
    show (log.cache.put key v).2.order = _
    rw [EntryCache.order_put (Finite.injective_iff_surjective.mpr h.lru), h.order]
    rw [h.order] at hnot
    exact (places_miss hkey hnot).symm
  · have hentries : (log.cache.put key v).2.entries =
        Function.update log.cache.entries (log.cache.lru (Fin.last last)) ⟨key, v⟩ := rfl
    unfold step at hvalid ⊢
    dsimp only at hvalid ⊢
    rw [hentries] at hvalid ⊢
    by_cases hslot : slot = log.cache.lru (Fin.last last)
    · subst hslot
      rw [Function.update_self, Function.update_self]
    · rw [Function.update_of_ne hslot] at hvalid ⊢
      -- no other slot has the key
      have hne : (log.cache.entries slot).key ≠ key := by
        intro heq
        apply hnot
        rw [← heq]
        exact EntryCache.mem_order slot h.lru
      rw [Function.update_of_ne hne]
      exact h.values slot hvalid

theorem after_concat (operations : List (CacheOperation K V)) (operation : CacheOperation K V) :
    after last invalidKey value (operations ++ [operation]) =
      (after last invalidKey value operations).step operation := by
  unfold after
  rw [List.foldl_append, List.foldl_cons, List.foldl_nil]

/-- What is required of a run is required of what comes before its last operation. -/
theorem PutsAfterMiss.init {operations : List (CacheOperation K V)} {operation : CacheOperation K V}
    (h : PutsAfterMiss last invalidKey value (operations ++ [operation])) :
    PutsAfterMiss last invalidKey value operations := by
  intro i key v hput
  have hi := (List.getElem?_eq_some_iff.mp hput).1
  obtain ⟨j, rfl, hget, hmiss⟩ := h i key v (by rw [List.getElem?_append_left hi]; exact hput)
  have hj : j < operations.length := Nat.lt_of_succ_lt hi
  rw [List.getElem?_append_left hj] at hget
  rw [List.take_append_of_le_length (Nat.le_of_lt hj)] at hmiss
  exact ⟨j, rfl, hget, hmiss⟩

/-- Where a `put` may come its key is not in the cache. -/
theorem PutsAfterMiss.miss {operations : List (CacheOperation K V)} {v : V}
    (h : PutsAfterMiss last invalidKey value (operations ++ [.put key v])) :
    (after last invalidKey value operations).cache.get key = none := by
  obtain ⟨j, hj, hget, hmiss⟩ := h operations.length key v (by simp)
  have hlt : j < operations.length := by omega
  rw [List.getElem?_append_left hlt] at hget
  rw [List.take_append_of_le_length (Nat.le_of_lt hlt)] at hmiss
  -- the run ends with the `get` that missed, which has changed nothing
  have hsplit : operations = operations.take j ++ [.get key] := by
    have hall : operations.take (j + 1) = operations := by rw [← hj, List.take_length]
    rw [List.take_add_one, hget] at hall
    exact hall.symm
  rw [hsplit, after_concat, step_miss hmiss]
  exact hmiss

theorem kept_after {operations : List (CacheOperation K V)}
    (hkeys : ∀ operation ∈ operations, operation.key ≠ invalidKey)
    (hputs : PutsAfterMiss last invalidKey value operations) :
    Kept last invalidKey (after last invalidKey value operations) := by
  induction operations using List.reverseRecOn with
  | nil => exact kept_new
  | append_singleton operations operation ih =>
    have hkept := ih (fun o ho => hkeys o (List.mem_append_left _ ho)) hputs.init
    have hkey := hkeys operation (by simp)
    rw [after_concat]
    cases operation with
    | get key => exact kept_get hkept hkey
    | put key v => exact kept_put hkept hkey hputs.miss v

/-- Two slots never hold one valid key. -/
theorem Kept.entries_inj (h : Kept last invalidKey log) {slot slot' : Fin (last + 1)}
    (hsame : (log.cache.entries slot).key = (log.cache.entries slot').key)
    (hvalid : (log.cache.entries slot).key ≠ invalidKey) : slot = slot' := by
  obtain ⟨i, rfl⟩ := h.lru slot
  obtain ⟨i', rfl⟩ := h.lru slot'
  have hi := log.cache.order_getElem? i
  have hi' := log.cache.order_getElem? i'
  rw [← hsame] at hi'
  rw [h.order] at hi hi'
  rw [Fin.ext (places_inj hvalid hi hi')]

/-- The keys that are found are those of the last uses. -/
theorem Kept.get_iff (h : Kept last invalidKey log) (hkey : key ≠ invalidKey) :
    (∃ slot cache, log.cache.get key = some (slot, cache)) ↔ key ∈ recent (last + 1) log.used := by
  rw [← mem_places hkey, ← h.order]
  obtain ⟨i, hget, hplace⟩ | ⟨hget, hnot⟩ := log.cache.get_cases key
  · constructor
    · intro _
      exact List.mem_of_getElem? hplace
    · intro _
      exact ⟨_, _, hget⟩
  · constructor
    · rintro ⟨slot, cache, hsome⟩
      rw [hget] at hsome
      cases hsome
    · intro hmem
      exact absurd hmem hnot

/-- A value that is found was put last. -/
theorem Kept.get_value (h : Kept last invalidKey log) (hkey : key ≠ invalidKey)
    {slot : Fin (last + 1)} {cache : EntryCache K V last}
    (hget : log.cache.get key = some (slot, cache)) :
    log.lastPut key = some (cache.entries slot).value := by
  obtain ⟨hslot, hentries⟩ := EntryCache.get_some hget
  subst hslot
  rw [hentries]
  exact h.values slot hkey

/-- **The cache is an LRU cache.** After every run in which each `put` follows directly on
    a miss of its key, the order names each slot once, two slots never hold one valid key,
    and a key is found if and only if it is among the last `cacheSize` keys that were
    used, with the value that was put last for it. -/
theorem entryCache_is_lru (last : Nat) (invalidKey : K) (value : V)
    (operations : List (CacheOperation K V))
    (hkeys : ∀ operation ∈ operations, operation.key ≠ invalidKey)
    (hputs : PutsAfterMiss last invalidKey value operations) :
    let log := after last invalidKey value operations
    Function.Bijective log.cache.lru ∧
    (∀ slot slot', (log.cache.entries slot).key = (log.cache.entries slot').key →
      (log.cache.entries slot).key ≠ invalidKey → slot = slot') ∧
    ∀ key, key ≠ invalidKey →
      ((∃ slot cache, log.cache.get key = some (slot, cache)) ↔ key ∈ recent (last + 1) log.used) ∧
      ∀ slot cache, log.cache.get key = some (slot, cache) →
        log.lastPut key = some (cache.entries slot).value := by
  intro log
  have hkept := kept_after hkeys hputs
  refine ⟨⟨Finite.injective_iff_surjective.mpr hkept.lru, hkept.lru⟩, ?_, fun key hkey => ⟨?_, ?_⟩⟩
  · intro slot slot' hsame hvalid
    exact hkept.entries_inj hsame hvalid
  · exact hkept.get_iff hkey
  · intro slot cache hget
    exact hkept.get_value hkey hget

/-- Two slots, and three programs. The second `get` of `1` keeps it, and `2` is replaced. -/
theorem entryCache_is_lru_two_slots :
    let log := after 1 0 0
      [.get 1, .put 1 10, .get 2, .put 2 20, .get 1, .get 3, .put 3 (30 : Nat)]
    (∃ slot cache, log.cache.get (1 : Nat) = some (slot, cache)) ∧
      ¬ (∃ slot cache, log.cache.get 2 = some (slot, cache)) ∧
      ∃ slot cache, log.cache.get 3 = some (slot, cache) ∧ (cache.entries slot).value = 30 := by
  intro log
  have hputs : PutsAfterMiss 1 0 0
      [.get 1, .put 1 10, .get 2, .put 2 20, .get 1, .get (3 : Nat), .put 3 (30 : Nat)] := by
    intro i key v hput
    match i with
    | 0 | 2 | 4 | 5 | i + 7 => simp at hput
    | 1 | 3 | 6 =>
      simp only [List.getElem?_cons_succ, List.getElem?_cons_zero, Option.some.injEq,
        CacheOperation.put.injEq] at hput
      obtain ⟨rfl, rfl⟩ := hput
      exact ⟨_, rfl, rfl, by decide +kernel⟩
  obtain ⟨-, -, hget⟩ := entryCache_is_lru 1 0 0 _ (by decide) hputs
  refine ⟨(hget 1 (by decide)).1.mpr (by decide +kernel), ?_, ?_⟩
  · intro hfound
    exact absurd ((hget 2 (by decide)).1.mp hfound) (by decide +kernel)
  · obtain ⟨slot, cache, hfound⟩ := (hget 3 (by decide)).1.mpr (by decide +kernel)
    have hput : log.lastPut 3 = some 30 := rfl
    have hvalue := (hget 3 (by decide)).2 slot cache hfound
    rw [hput] at hvalue
    exact ⟨slot, cache, hfound, (Option.some_inj.mp hvalue).symm⟩

end CacheLog

/-! ## Programs -/

/-- `getIsa` uses the cache as required: a `put` only directly after the miss of its key. -/
theorem getIsa_operations {memory : MemoryAddressType → MemoryDataType}
    {log : CacheLog MemoryAddressType IsaCacheEntry 1} {isaAddress : MemoryAddressType}
    {slot : Fin 2} {cache : IsaCache} (h : getIsa memory log.cache isaAddress = .ok (slot, cache)) :
    (log.step (.get isaAddress)).cache = cache ∨
      (log.cache.get isaAddress = none ∧
        ∃ isa, ((log.step (.get isaAddress)).step (.put isaAddress isa)).cache = cache) := by
  unfold getIsa at h
  split at h
  next found hget =>
    cases h
    rw [CacheLog.step_hit hget]
    exact .inl rfl
  next hget =>
    obtain ⟨header, -, h⟩ := bind_ok.mp h
    obtain ⟨-, -, h⟩ := bind_ok.mp h
    obtain ⟨-, -, h⟩ := bind_ok.mp h
    obtain ⟨data, -, h⟩ := bind_ok.mp h
    have hput : log.cache.put isaAddress ⟨data⟩ = (slot, cache) := Except.ok.inj h
    refine .inr ⟨hget, ⟨data⟩, ?_⟩
    rw [CacheLog.step_miss hget, CacheLog.step, hput]

end PicoGpu
