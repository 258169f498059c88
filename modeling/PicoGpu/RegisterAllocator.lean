import PicoGpu.Isa
import Mathlib.Data.List.Nodup

/- register_allocator.cpp. The assembler and the shader units allocate registers
   for themselves and have to get the same ones; both start from the registers of
   the inputs. What `allocate` returns is the next one of the free registers. -/
namespace PicoGpu

structure RegisterAllocator where
  usedRegistersMask : BitVec 16
  startRegisterToAllocate : Nat
  deriving DecidableEq, Repr

namespace RegisterAllocator

def ofMask (mask : BitVec 16) : RegisterAllocator := ⟨mask, 0⟩

def constructUsedRegistersMaskFromIsaMetadata (isaMetadata : CommandStoreIsa) : BitVec 16 :=
  let inputsCount := nonZeroCountToInt isaMetadata.inputsCount
  let mask := if inputsCount > 0 then setBit 0 isaMetadata.inputs.register0.val else 0
  let mask := if inputsCount > 1 then setBit mask isaMetadata.inputs.register1.val else mask
  if inputsCount > 2 then setBit mask isaMetadata.inputs.register2.val else mask

def ofIsaMetadata (isaMetadata : CommandStoreIsa) : RegisterAllocator :=
  ⟨constructUsedRegistersMaskFromIsaMetadata isaMetadata, 0⟩

def allocate (a : RegisterAllocator) : Except FatalError (RegisterIndex × RegisterAllocator) :=
  match findBit a.usedRegistersMask false a.startRegisterToAllocate with
  | none => .error "Failed to find free register"
  | some index => .ok (Fin.ofNat 16 index, ⟨setBit a.usedRegistersMask index, index + 1⟩)

/-- `count` calls of `allocate`. -/
def allocateMany : Nat → RegisterAllocator →
    Except FatalError (List RegisterIndex × RegisterAllocator)
  | 0, a => .ok ([], a)
  | count + 1, a => do
    let (index, a) ← a.allocate
    let (indices, a) ← allocateMany count a
    return (index :: indices, a)

/-! ## The free registers -/

/-- The clear bits of a mask from `start` on. -/
def clearBits (mask : BitVec 16) (start : Nat) : List Nat :=
  (List.range' start (16 - start)).filter fun bitIndex => !isBitSet mask bitIndex

/-- The registers that are left to allocate. -/
def free (a : RegisterAllocator) : List RegisterIndex :=
  (clearBits a.usedRegistersMask a.startRegisterToAllocate).map (Fin.ofNat 16)

theorem isBitSet_setBit (mask : BitVec 16) (i : Nat) {j : Nat} (hj : j < 16) :
    isBitSet (setBit mask i) j = (isBitSet mask j || decide (j = i)) := by
  unfold isBitSet setBit
  rw [BitVec.getLsbD_or, BitVec.getLsbD_ofNat, Nat.one_shiftLeft, Nat.testBit_two_pow]
  simp [hj, eq_comm]

/-- What follows the first element of a filtered interval. -/
theorem filter_range'_cons {p : Nat → Bool} {x : Nat} {rest : List Nat} (count start : Nat)
    (h : (List.range' start count).filter p = x :: rest) :
    start ≤ x ∧ x < start + count ∧ p x = true ∧
      rest = (List.range' (x + 1) (start + count - (x + 1))).filter p := by
  induction count generalizing start with
  | zero => exact nomatch h
  | succ count ih =>
    rw [List.range'_succ, List.filter_cons] at h
    split at h
    · next hp =>
      obtain ⟨rfl, rfl⟩ := List.cons.inj h
      refine ⟨Nat.le_refl _, by omega, hp, ?_⟩
      rw [show start + (count + 1) - (start + 1) = count by omega]
    · obtain ⟨hle, hlt, hp, hrest⟩ := ih (start + 1) h
      refine ⟨by omega, by omega, hp, ?_⟩
      rw [hrest, show start + 1 + count = start + (count + 1) by omega]

/-- The bits above the one that is set stay as they are. -/
theorem clearBits_cons {mask : BitVec 16} {start x : Nat} {rest : List Nat} (hs : start ≤ 16)
    (h : clearBits mask start = x :: rest) :
    x < 16 ∧ isBitSet mask x = false ∧ rest = clearBits (setBit mask x) (x + 1) := by
  obtain ⟨hle, hlt, hp, hrest⟩ := filter_range'_cons _ _ h
  refine ⟨by omega, by simpa using hp, ?_⟩
  rw [hrest, show start + (16 - start) - (x + 1) = 16 - (x + 1) by omega]
  apply List.filter_congr
  intro j hj
  obtain ⟨hj1, hj2⟩ := List.mem_range'_1.mp hj
  have hne : j ≠ x := by omega
  rw [isBitSet_setBit mask x (by omega), decide_eq_false hne, Bool.or_false]

theorem findBit_clear (mask : BitVec 16) (start : Nat) :
    findBit mask false start = (clearBits mask start).head? := by
  unfold findBit clearBits
  rw [List.head?_filter, List.range_eq_range', List.drop_range']
  simp

/-- `allocate` takes the first of the free registers. -/
theorem allocate_ok {a : RegisterAllocator} {r : RegisterIndex} {rest : List RegisterIndex}
    (hstart : a.startRegisterToAllocate ≤ 16) (h : a.free = r :: rest) :
    ∃ a', a.allocate = .ok (r, a') ∧ a'.free = rest ∧ a'.startRegisterToAllocate ≤ 16 := by
  unfold free at h
  cases hclear : clearBits a.usedRegistersMask a.startRegisterToAllocate with
  | nil =>
    rw [hclear] at h
    exact nomatch h
  | cons x xs =>
    rw [hclear] at h
    obtain ⟨rfl, rfl⟩ := List.cons.inj h
    obtain ⟨hlt, -, hxs⟩ := clearBits_cons hstart hclear
    refine ⟨⟨setBit a.usedRegistersMask x, x + 1⟩, ?_, ?_, hlt⟩
    · unfold allocate
      rw [findBit_clear, hclear]
      rfl
    · unfold free
      rw [hxs]

/-- `count` calls return the first `count` free registers. -/
theorem allocateMany_ok (count : Nat) {a : RegisterAllocator}
    (hstart : a.startRegisterToAllocate ≤ 16) (h : count ≤ a.free.length) :
    ∃ a', a.allocateMany count = .ok (a.free.take count, a') ∧ a'.free = a.free.drop count ∧
      a'.startRegisterToAllocate ≤ 16 := by
  induction count generalizing a with
  | zero => exact ⟨a, rfl, rfl, hstart⟩
  | succ count ih =>
    cases hfree : a.free with
    | nil =>
      rw [hfree] at h
      exact nomatch h
    | cons r rest =>
      obtain ⟨a1, h1, hfree1, hstart1⟩ := allocate_ok hstart hfree
      rw [hfree] at h
      obtain ⟨a', h', hfree', hstart'⟩ := ih hstart1 (by rw [hfree1]; exact Nat.le_of_succ_le_succ h)
      refine ⟨a', ?_, ?_, hstart'⟩
      · simp only [allocateMany, h1, ok_bind, h', hfree1, List.take_succ_cons]
        rfl
      · rw [hfree', hfree1, List.drop_succ_cons]

/-- After `k` calls `allocate` takes free register `k`. -/
theorem allocate_drop {free : List RegisterIndex} {k : Nat} (hk : k < free.length)
    {a : RegisterAllocator} (hstart : a.startRegisterToAllocate ≤ 16) (h : a.free = free.drop k) :
    ∃ a', a.allocate = .ok (free.getD k 0, a') ∧ a'.free = free.drop (k + 1) ∧
      a'.startRegisterToAllocate ≤ 16 := by
  rw [List.drop_eq_getElem_cons hk, List.getElem_eq_getD 0] at h
  exact allocate_ok hstart h

/-! ## The free registers of a mask -/

theorem mem_clearBits {mask : BitVec 16} {i : Nat} :
    i ∈ clearBits mask 0 ↔ i < 16 ∧ isBitSet mask i = false := by
  unfold clearBits
  rw [List.mem_filter, List.mem_range'_1]
  simp

theorem clearBits_nodup (mask : BitVec 16) : (clearBits mask 0).Nodup :=
  List.Nodup.filter _ List.nodup_range'

theorem free_nodup (mask : BitVec 16) : (ofMask mask).free.Nodup := by
  refine List.Nodup.map_on ?_ (clearBits_nodup mask)
  intro x hx y hy hxy
  have hxlt := (mem_clearBits.mp hx).1
  have hylt := (mem_clearBits.mp hy).1
  have hval := congrArg Fin.val hxy
  simpa [Fin.ofNat, Nat.mod_eq_of_lt hxlt, Nat.mod_eq_of_lt hylt] using hval

theorem mem_free {mask : BitVec 16} {r : RegisterIndex} :
    r ∈ (ofMask mask).free ↔ isBitSet mask r.val = false := by
  unfold free
  rw [List.mem_map]
  constructor
  · rintro ⟨x, hx, rfl⟩
    obtain ⟨hlt, hclear⟩ := mem_clearBits.mp hx
    show isBitSet mask (x % 16) = false
    rw [Nat.mod_eq_of_lt hlt]
    exact hclear
  · intro h
    refine ⟨r.val, mem_clearBits.mpr ⟨r.isLt, h⟩, ?_⟩
    apply Fin.ext
    simp [Fin.ofNat, Nat.mod_eq_of_lt r.isLt]

/-- Setting a bit takes one register away. -/
theorem length_free_setBit {mask : BitVec 16} {r : RegisterIndex}
    (h : isBitSet mask r.val = false) :
    (ofMask (setBit mask r.val)).free.length + 1 = (ofMask mask).free.length := by
  have hmem : r.val ∈ clearBits mask 0 := mem_clearBits.mpr ⟨r.isLt, h⟩
  have herase : clearBits (setBit mask r.val) 0 = (clearBits mask 0).erase r.val := by
    rw [(clearBits_nodup mask).erase_eq_filter]
    unfold clearBits
    rw [List.filter_filter]
    apply List.filter_congr
    intro j hj
    have hlt : j < 16 := by have := List.mem_range'_1.mp hj; omega
    rw [isBitSet_setBit mask r.val hlt]
    by_cases he : j = r.val <;> simp [he]
  unfold free
  rw [List.length_map, List.length_map]
  show (clearBits (setBit mask r.val) 0).length + 1 = (clearBits mask 0).length
  rw [herase, List.length_erase_of_mem hmem]
  have hpos := List.length_pos_of_mem hmem
  omega

end RegisterAllocator

end PicoGpu
