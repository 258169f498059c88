import PicoGpu.FragmentDirectives
import PicoGpu.InputRegisters
import PicoGpu.Interpolation
import PicoGpu.RoundTrip

/- The interpolation preamble of a fragment shader, from the directives to the
   registers of the lanes. The assembler and the shader unit allocate registers for
   the attributes independently, and the assembler places temporaries in registers of
   inputs that are not interpolated yet. With the registers in one order, those of
   the inputs before the free ones, every register of the preamble has a number that
   depends on the number of inputs only, and different numbers are different
   registers; three inputs take all sixteen. -/
namespace PicoGpu
open PicoGpuBinary

/-! ## The registers of the preamble -/

/-- The free registers beside the inputs. -/
def freeRegisters (inputs : List (RegisterIndex × Dword)) : List RegisterIndex :=
  (RegisterAllocator.ofMask (collected inputs).usedRegsMask).free

/-- The registers of the inputs, then the free ones in the order of their allocation. -/
def registerAt (inputs : List (RegisterIndex × Dword)) (k : Nat) : RegisterIndex :=
  (inputs.map Prod.fst ++ freeRegisters inputs).getD k 0

section
variable {inputs : List (RegisterIndex × Dword)}

theorem length_freeRegisters (hnd : (inputs.map Prod.fst).Nodup) :
    (freeRegisters inputs).length + inputs.length = 16 := by
  induction inputs using List.reverseRecOn with
  | nil => decide
  | append_singleton inputs input ih =>
    rw [List.map_append, List.nodup_append] at hnd
    obtain ⟨hnd, -, hdisjoint⟩ := hnd
    have hclear : isBitSet (collected inputs).usedRegsMask input.1.val = false := by
      refine Bool.eq_false_iff.mpr fun hset => ?_
      exact hdisjoint _ (collected_isBitSet.mp hset) _ (List.mem_singleton.mpr rfl) rfl
    have htaken := RegisterAllocator.length_free_setBit hclear
    have ih := ih hnd
    unfold freeRegisters at ih ⊢
    rw [collected_append, List.length_append, List.length_singleton]
    show (RegisterAllocator.ofMask (setBit (collected inputs).usedRegsMask input.1.val)).free.length +
      (inputs.length + 1) = 16
    omega

theorem nodup_registers (hnd : (inputs.map Prod.fst).Nodup) :
    (inputs.map Prod.fst ++ freeRegisters inputs).Nodup := by
  refine List.nodup_append.mpr ⟨hnd, RegisterAllocator.free_nodup _, ?_⟩
  rintro r hr q hq rfl
  exact Bool.eq_false_iff.mp (RegisterAllocator.mem_free.mp hq) (collected_isBitSet.mpr hr)

theorem registerAt_inj (hnd : (inputs.map Prod.fst).Nodup) {j k : Nat} (hj : j < 16) (hk : k < 16) :
    registerAt inputs j = registerAt inputs k ↔ j = k := by
  have hlen : (inputs.map Prod.fst ++ freeRegisters inputs).length = 16 := by
    rw [List.length_append, List.length_map, Nat.add_comm, length_freeRegisters hnd]
  unfold registerAt
  rw [← List.getElem_eq_getD (h := by omega) 0, ← List.getElem_eq_getD (h := by omega) 0]
  exact (nodup_registers hnd).getElem_inj_iff

theorem registerAt_input {i : Nat} (hi : i < inputs.length) :
    registerAt inputs i = (inputs.getD i (0, 0)).1 := by
  unfold registerAt
  rw [List.getD_append _ _ _ _ (by rw [List.length_map]; exact hi)]
  exact List.getD_map _ (0, 0) Prod.fst

theorem registerAt_free (inputs : List (RegisterIndex × Dword)) (k : Nat) :
    registerAt inputs (inputs.length + k) = (freeRegisters inputs).getD k 0 := by
  unfold registerAt
  rw [List.getD_append_right _ _ _ _ (by rw [List.length_map]; omega), List.length_map,
    Nat.add_sub_cancel_left]

/-- The numbers of the registers of the preamble, for `n` inputs. -/
structure Placed (inputs : List (RegisterIndex × Dword)) (n : Nat) (r : InterpolationRegisters) :
    Prop where
  attrib : ∀ v < verticesInPrimitive, ∀ i < n, r.attrib v i = registerAt inputs (n + (v * n + i))
  edgeAB : r.edgeAB = registerAt inputs (if n > 1 then 1 else 4)
  edgeAC : r.edgeAC = registerAt inputs (if n > 2 then 2 else 3 * n + 2)
  edgeAP : r.edgeAP = registerAt inputs (3 * n + 3)
  areaABP : r.areaABP = registerAt inputs (3 * n + 4)
  areaACP : r.areaACP = registerAt inputs (3 * n + 5)
  areaABC : r.areaABC = registerAt inputs (3 * n + 6)

/-- The index of an input. -/
theorem withPosition_index (hcount : inputs.length ≤ 3) {i : Fin 3} (hi : i.val < inputs.length) :
    ((collected inputs).withPosition.regs i).index = registerAt inputs i := by
  have hcollected : ((collected inputs).regs i).index = registerAt inputs i := by
    rw [collected_regs hcount, registerAt_input hi, collectedRegister,
      List.getElem?_eq_getElem hi, ← List.getElem_eq_getD (h := hi) (0, 0)]
  show (Function.update (collected inputs).regs 0 _ i).index = _
  rw [Function.update_apply]
  split
  · next h =>
    rw [h] at hcollected
    rw [h]
    exact hcollected
  · exact hcollected

/-- The first `k` free registers have been allocated. -/
structure Allocated (inputs : List (RegisterIndex × Dword)) (k : Nat) (a : RegisterAllocator) :
    Prop where
  free : a.free = (freeRegisters inputs).drop k
  start : a.startRegisterToAllocate ≤ 16

theorem Allocated.allocate {k : Nat} {a : RegisterAllocator} (h : Allocated inputs k a)
    (hk : k < (freeRegisters inputs).length) :
    ∃ a', a.allocate = .ok (registerAt inputs (inputs.length + k), a') ∧
      Allocated inputs (k + 1) a' := by
  obtain ⟨a', hallocate, hfree, hstart⟩ := RegisterAllocator.allocate_drop hk h.start h.free
  rw [← registerAt_free] at hallocate
  exact ⟨a', hallocate, hfree, hstart⟩

theorem attrib_registerAt {v i : Nat} (hv : v < verticesInPrimitive) (hi : i < inputs.length) :
    ((freeRegisters inputs).take (3 * inputs.length)).getD (v * inputs.length + i) 0 =
      registerAt inputs (inputs.length + (v * inputs.length + i)) := by
  have hk : v * inputs.length + i < 3 * inputs.length := by
    have hmul : (v + 1) * inputs.length ≤ 3 * inputs.length := Nat.mul_le_mul_right _ hv
    rw [Nat.add_mul, Nat.one_mul] at hmul
    omega
  rw [registerAt_free, List.getD_eq_getElem?_getD, List.getElem?_take_of_lt hk,
    List.getD_eq_getElem?_getD]

section
variable (hcollectable : Collectable inputs) (hpos : 1 ≤ inputs.length) {a : RegisterAllocator}
include hcollectable hpos

/-- The first edge takes the register of an input, or a free one. -/
theorem Allocated.edgeAB (h : Allocated inputs (3 * inputs.length) a) : ∃ a',
    (if inputs.length > 1 then .ok (((collected inputs).withPosition.regs 1).index, a)
      else a.allocate) = .ok (registerAt inputs (if inputs.length > 1 then 1 else 4), a') ∧
    Allocated inputs (if inputs.length > 1 then 3 * inputs.length else 4) a' := by
  have hn := hcollectable.count
  have hlen := length_freeRegisters hcollectable.nodup
  by_cases h1 : inputs.length > 1
  · simp only [if_pos h1]
    exact ⟨a, by rw [withPosition_index hn h1]; rfl, h⟩
  · have hone : inputs.length = 1 := by omega
    simp only [if_neg h1]
    rw [hone] at h
    have hallocate := h.allocate (by omega)
    rw [hone] at hallocate
    exact hallocate

/-- And so does the second one. -/
theorem Allocated.edgeAC
    (h : Allocated inputs (if inputs.length > 1 then 3 * inputs.length else 4) a) : ∃ a',
    (if inputs.length > 2 then .ok (((collected inputs).withPosition.regs 2).index, a)
      else a.allocate) =
      .ok (registerAt inputs (if inputs.length > 2 then 2 else 3 * inputs.length + 2), a') ∧
    Allocated inputs (2 * inputs.length + 3) a' := by
  have hn := hcollectable.count
  have hlen := length_freeRegisters hcollectable.nodup
  by_cases h2 : inputs.length > 2
  · have hthree : 3 * inputs.length = 2 * inputs.length + 3 := by omega
    simp only [if_pos h2, if_pos (show inputs.length > 1 by omega)] at h ⊢
    rw [hthree] at h
    exact ⟨a, by rw [withPosition_index hn h2]; rfl, h⟩
  · simp only [if_neg h2]
    have hk : (if inputs.length > 1 then 3 * inputs.length else 4) = 2 * inputs.length + 2 := by
      split <;> omega
    rw [hk] at h
    obtain ⟨a', hallocate, h'⟩ := h.allocate (by omega)
    refine ⟨a', ?_, h'⟩
    rw [hallocate]
    congr 3
    omega

/-- The allocations of the preamble do not fail. -/
theorem interpolationRegisters_placed :
    ∃ r, interpolationRegisters (collected inputs).withPosition = .ok r ∧
      Placed inputs inputs.length r := by
  have hn := hcollectable.count
  have hcount : (collected inputs).withPosition.usedRegsCount = inputs.length :=
    collected_count inputs
  have hlen := length_freeRegisters hcollectable.nodup
  obtain ⟨a, ha, hfree, hstart⟩ := @RegisterAllocator.allocateMany_ok (3 * inputs.length)
    (.ofMask (collected inputs).usedRegsMask) (Nat.zero_le _) (by
      show _ ≤ (freeRegisters inputs).length
      omega)
  have hallocated : Allocated inputs (3 * inputs.length) a := ⟨hfree, hstart⟩
  obtain ⟨a1, h1, hallocated⟩ := hallocated.edgeAB hcollectable hpos
  obtain ⟨a2, h2, hallocated⟩ := hallocated.edgeAC hcollectable hpos
  obtain ⟨a3, h3, hallocated⟩ := hallocated.allocate (by omega)
  obtain ⟨a4, h4, hallocated⟩ :=
    @Allocated.allocate inputs (2 * inputs.length + 4) a3 hallocated (by omega)
  obtain ⟨a5, h5, hallocated⟩ :=
    @Allocated.allocate inputs (2 * inputs.length + 5) a4 hallocated (by omega)
  obtain ⟨a6, h6, -⟩ :=
    @Allocated.allocate inputs (2 * inputs.length + 6) a5 hallocated (by omega)
  have hnumber : ∀ k, inputs.length + (2 * inputs.length + k) = 3 * inputs.length + k := by omega
  rw [hnumber] at h3 h4 h5 h6
  let r : InterpolationRegisters := {
    attrib := fun v i => if i < inputs.length then
      ((freeRegisters inputs).take (3 * inputs.length)).getD (v * inputs.length + i) 0 else 0
    edgeAB := registerAt inputs (if inputs.length > 1 then 1 else 4)
    edgeAC := registerAt inputs (if inputs.length > 2 then 2 else 3 * inputs.length + 2)
    edgeAP := registerAt inputs (3 * inputs.length + 3)
    areaABP := registerAt inputs (3 * inputs.length + 4)
    areaACP := registerAt inputs (3 * inputs.length + 5)
    areaABC := registerAt inputs (3 * inputs.length + 6) }
  refine ⟨r, ?_, ?_, rfl, rfl, rfl, rfl, rfl, rfl⟩
  · unfold interpolationRegisters
    rw [hcount]
    show (RegisterAllocator.allocateMany _ (.ofMask (collected inputs).usedRegsMask) >>= _) = _
    rw [ha, ok_bind]
    simp only [h1, h2, h3, h4, h5, h6, ok_bind]
    rfl
  · intro v hv i hi
    show (if i < inputs.length then _ else _) = _
    rw [if_pos hi]
    exact attrib_registerAt hv hi

end

/-! ## Which registers are different -/

/-- The numbers of the registers that the depth is computed in. -/
def depthNumbers (n : Nat) : List Nat :=
  [0, n, 2 * n, 3 * n, if n > 1 then 1 else 4, if n > 2 then 2 else 3 * n + 2, 3 * n + 3, 3 * n + 4,
    3 * n + 5, 3 * n + 6]

/-- The numbers of the registers that attribute `i` is computed from. -/
def attributeNumbers (n i : Nat) : List Nat :=
  [3 * n + 6, 3 * n + 5, 3 * n + 4, n + i, 2 * n + i, 3 * n + i, n]

theorem depthNumbers_nodup {n : Nat} (h1 : 1 ≤ n) (h3 : n ≤ 3) :
    (depthNumbers n).Nodup ∧ ∀ k ∈ depthNumbers n, k < 16 := by
  obtain rfl | rfl | rfl : n = 1 ∨ n = 2 ∨ n = 3 := by omega
  all_goals decide

/-- The attributes of the other inputs are out of the way. -/
theorem attribute_not_depthNumber {n : Nat} (h3 : n ≤ 3) {v i : Nat}
    (hv : v < verticesInPrimitive) (h1 : 1 ≤ i) (hi : i < n) :
    n + (v * n + i) < 16 ∧ n + (v * n + i) ∉ depthNumbers n := by
  have hvertex : v = 0 ∨ v = 1 ∨ v = 2 := by unfold verticesInPrimitive at hv; omega
  have hinput : (n = 2 ∧ i = 1) ∨ (n = 3 ∧ i = 1) ∨ (n = 3 ∧ i = 2) := by omega
  obtain ⟨rfl, rfl⟩ | ⟨rfl, rfl⟩ | ⟨rfl, rfl⟩ := hinput <;>
    rcases hvertex with rfl | rfl | rfl <;> decide

theorem registerAt_mem_map (hnd : (inputs.map Prod.fst).Nodup) {k : Nat} (hk : k < 16)
    {l : List Nat} (hl : ∀ j ∈ l, j < 16) : registerAt inputs k ∈ l.map (registerAt inputs) ↔ k ∈ l := by
  rw [List.mem_map]
  constructor
  · rintro ⟨j, hj, hjk⟩
    rwa [(registerAt_inj hnd (hl j hj) hk).mp hjk] at hj
  · exact fun h => ⟨k, h, rfl⟩

variable {r : InterpolationRegisters}

theorem Placed.depthRegisters (h : Placed inputs inputs.length r) (hpos : 1 ≤ inputs.length) :
    depthRegisters (registerAt inputs 0) r =
      (depthNumbers inputs.length).map (registerAt inputs) := by
  have ha := h.attrib 0 (by decide) 0 hpos
  have hb := h.attrib 1 (by decide) 0 hpos
  have hc := h.attrib 2 (by decide) 0 hpos
  rw [show inputs.length + (0 * inputs.length + 0) = inputs.length by omega] at ha
  rw [show inputs.length + (1 * inputs.length + 0) = 2 * inputs.length by omega] at hb
  rw [show inputs.length + (2 * inputs.length + 0) = 3 * inputs.length by omega] at hc
  unfold PicoGpu.depthRegisters depthNumbers
  rw [ha, hb, hc, h.edgeAB, h.edgeAC, h.edgeAP, h.areaABP, h.areaACP, h.areaABC]
  rfl

theorem Placed.attributeSources (h : Placed inputs inputs.length r) (hpos : 1 ≤ inputs.length)
    {i : Nat} (hi : i < inputs.length) :
    attributeSources r i = (attributeNumbers inputs.length i).map (registerAt inputs) := by
  have ha := h.attrib 0 (by decide) i hi
  have hb := h.attrib 1 (by decide) i hi
  have hc := h.attrib 2 (by decide) i hi
  have hz := h.attrib 0 (by decide) 0 hpos
  rw [show inputs.length + (0 * inputs.length + i) = inputs.length + i by omega] at ha
  rw [show inputs.length + (1 * inputs.length + i) = 2 * inputs.length + i by omega] at hb
  rw [show inputs.length + (2 * inputs.length + i) = 3 * inputs.length + i by omega] at hc
  rw [show inputs.length + (0 * inputs.length + 0) = inputs.length by omega] at hz
  unfold PicoGpu.attributeSources attributeNumbers
  rw [ha, hb, hc, hz, h.areaABP, h.areaACP, h.areaABC]
  rfl

/-- An input is no source of an attribute. -/
theorem Placed.input_not_source (h : Placed inputs inputs.length r) (hin : Collectable inputs)
    {i j : Nat} (hi : i < inputs.length) (hj : j < inputs.length) :
    registerAt inputs j ∉ PicoGpu.attributeSources r i := by
  have hcount := hin.count
  have hl : ∀ k ∈ attributeNumbers inputs.length i, j < k ∧ k < 16 := by
    unfold attributeNumbers
    simp only [List.forall_mem_cons]
    refine ⟨?_, ?_, ?_, ?_, ?_, ?_, ?_, fun k hk => nomatch hk⟩ <;> omega
  rw [h.attributeSources (by omega) hi, registerAt_mem_map hin.nodup (by omega) fun k hk => (hl k hk).2]
  exact fun hmem => Nat.lt_irrefl _ (hl j hmem).1

/-! ## One lane -/

variable {V : Type} {alu : Alu V}

/-- The instructions for attribute `i`, if there is one. -/
def attributePart (inputs : List (RegisterIndex × Dword)) (r : InterpolationRegisters) (i : Fin 3) :
    List Instruction :=
  if ((collected inputs).withPosition.regs i).usage = .custom then
    attributeInstructions ((collected inputs).withPosition.regs i) r i
  else []

/-- What becomes of component `j` of attribute `i`. -/
def attributeValue (alu : Alu V) (destMask : BitVec 4) (r : InterpolationRegisters)
    (file : LaneFile V) (i : Nat) (j : Fin 4) : V :=
  if selects destMask j then
    alu.interpolated ((file r.areaABC).get j) ((file r.areaACP).get j)
      ((file r.areaABP).get j) ((file (r.attrib 0 0)).get j) ((file (r.attrib 0 i)).get j)
      ((file (r.attrib 1 i)).get j) ((file (r.attrib 2 i)).get j)
  else alu.fmul (alu.ofDword 0) ((file (r.attrib 0 0)).get j)

theorem attributeValue_congr {file file' : LaneFile V} {i : Nat}
    (h : ∀ q ∈ attributeSources r i, file q = file' q) (destMask : BitVec 4) (j : Fin 4) :
    attributeValue alu destMask r file i j = attributeValue alu destMask r file' i j := by
  simp only [attributeSources, List.forall_mem_cons] at h
  obtain ⟨hwa, hwb, hwc, ha, hb, hc, hz, -⟩ := h
  unfold attributeValue
  rw [hwa, hwb, hwc, ha, hb, hc, hz]

/-- Attribute `i` only changes the register of its input. -/
theorem attributePart_run (hr : Placed inputs inputs.length r) (hin : Collectable inputs) {i : Fin 3}
    (hi : 1 ≤ i.val) (file : LaneFile V) :
    (∀ q ≠ registerAt inputs i, runLane alu (attributePart inputs r i) file q = file q) ∧
    (i.val < inputs.length → ∀ j,
      (runLane alu (attributePart inputs r i) file (registerAt inputs i)).get j =
        attributeValue alu ((inputs.getD i (0, 0)).2.setWidth 4) r file i j) := by
  have hregs : (collected inputs).withPosition.regs i = collectedRegister inputs i := by
    show Function.update (collected inputs).regs 0 _ i = _
    rw [Function.update_of_ne (by rintro rfl; exact absurd hi (by decide)), collected_regs hin.count]
  unfold attributePart
  rw [hregs]
  by_cases hlt : i.val < inputs.length
  · have hregister : collectedRegister inputs i =
        ⟨registerAt inputs i, .custom, (inputs.getD i (0, 0)).2.setWidth 4,
          countBits (inputs.getD i (0, 0)).2⟩ := by
      rw [registerAt_input hlt, collectedRegister, List.getElem?_eq_getElem hlt,
        ← List.getElem_eq_getD (h := hlt) (0, 0)]
    rw [hregister, if_pos rfl]
    obtain ⟨hframe, hvalue⟩ := @run_attribute _ alu
      ⟨registerAt inputs i, .custom, (inputs.getD i (0, 0)).2.setWidth 4,
        countBits (inputs.getD i (0, 0)).2⟩ r i (hr.input_not_source hin hlt hlt) file
    exact ⟨hframe, fun _ => hvalue⟩
  · have hnone : (collectedRegister inputs i).usage ≠ .custom := by
      rw [collectedRegister, List.getElem?_eq_none (by omega)]
      exact nofun
    rw [if_neg hnone]
    exact ⟨fun _ _ => rfl, fun h => absurd h hlt⟩

theorem preamble_run (hr : Placed inputs inputs.length r) (hin : Collectable inputs)
    (hpos : 1 ≤ inputs.length) (file : LaneFile V) {p a b c : VectorRegister V}
    (hp : file (registerAt inputs 0) = p) (ha : file (r.attrib 0 0) = a)
    (hb : file (r.attrib 1 0) = b) (hc : file (r.attrib 2 0) = c) {file' : LaneFile V}
    (hrun : runLane alu (depthInstructions (registerAt inputs 0) r ++ attributePart inputs r 1 ++
      attributePart inputs r 2) file = file') :
    file' (registerAt inputs 0) = { p with z := alu.depth p a b c } ∧
    ∀ i, 1 ≤ i → i < inputs.length → ∀ j, (file' (registerAt inputs i)).get j =
      if selects ((inputs.getD i (0, 0)).2.setWidth 4) j then
        alu.interpolated (alu.fdiv (alu.weightA p a b c) a.z) (alu.fdiv (alu.weightB p a b c) b.z)
          (alu.fdiv (alu.weightC p a b c) c.z) (alu.depth p a b c) ((file (r.attrib 0 i)).get j)
          ((file (r.attrib 1 i)).get j) ((file (r.attrib 2 i)).get j)
      else alu.fmul (alu.ofDword 0) (alu.depth p a b c) := by
  have hcount := hin.count
  obtain ⟨hnd, hbound⟩ := depthNumbers_nodup hpos hin.count
  have hdepth := @run_depth _ alu (registerAt inputs 0) r (by
    rw [hr.depthRegisters hpos]
    refine hnd.map_on fun j hj k hk hjk => ?_
    exact (registerAt_inj hin.nodup (hbound j hj) (hbound k hk)).mp hjk) file
  rw [hp, ha, hb, hc] at hdepth
  rw [runLane_append, runLane_append] at hrun
  generalize runLane alu (depthInstructions (registerAt inputs 0) r) file = file1 at hdepth hrun
  obtain ⟨hframe1, hvalue1⟩ := @attributePart_run _ r _ alu hr hin 1 (by decide) file1
  generalize runLane alu (attributePart inputs r 1) file1 = file2 at hframe1 hvalue1 hrun
  obtain ⟨hframe2, hvalue2⟩ := @attributePart_run _ r _ alu hr hin 2 (by decide) file2
  rw [hrun] at hframe2 hvalue2
  have hne : ∀ {j k}, j < 16 → k < 16 → j ≠ k → registerAt inputs j ≠ registerAt inputs k :=
    fun hj hk h he => h ((registerAt_inj hin.nodup hj hk).mp he)
  refine ⟨?_, fun i h1 hi j => ?_⟩
  · rw [hframe2 _ (hne (by decide) (by decide) (by decide)),
      hframe1 _ (hne (by decide) (by decide) (by decide)), hdepth.position]
  · -- the attributes are as the depth left them, which are those before it
    have hattrib : ∀ v < verticesInPrimitive, file1 (r.attrib v i) = file (r.attrib v i) := by
      intro v hv
      obtain ⟨hk, hnot⟩ := attribute_not_depthNumber hin.count hv h1 hi
      refine hdepth.frame _ ?_
      rw [hr.attrib v hv i hi, hr.depthRegisters hpos, registerAt_mem_map hin.nodup hk hbound]
      exact hnot
    have hget : (file' (registerAt inputs i)).get j =
        attributeValue alu ((inputs.getD i (0, 0)).2.setWidth 4) r file1 i j := by
      obtain rfl | rfl : i = 1 ∨ i = 2 := by omega
      · rw [hframe2 _ (hne (by decide) (by decide) (by decide))]
        exact hvalue1 hi j
      · rw [show (file' (registerAt inputs 2)).get j = _ from hvalue2 hi j]
        refine attributeValue_congr (fun q hq => ?_) _ j
        refine hframe1 q fun he => ?_
        rw [he] at hq
        exact hr.input_not_source hin hi (show 1 < inputs.length by omega) hq
    rw [hget]
    unfold attributeValue
    rw [hattrib 0 (by decide), hattrib 1 (by decide), hattrib 2 (by decide), hdepth.depth,
      hdepth.weightA, hdepth.weightB, hdepth.weightC]
    simp only [VectorRegister.replicate_get]

end

/-! ## The unit -/

section
variable {V : Type} {alu : Alu V}

/-- After `k` iterations of the loop every lane has run `k` instructions, when all of
    them have operands. -/
theorem lanes_run {program : List Instruction} {u0 : ShaderUnit V} {isaSize : Nat}
    (hpc : u0.pc = 0) (hu : u0.CountsFit)
    (hisa : ∀ j, ∀ hj : j < (programDwords program).length, u0.isa j = (programDwords program)[j])
    (hsize : (programDwords program).length ≤ isaSize)
    (hd : ∀ i ∈ program, i.Dispatched alu) (hfit : ∀ i ∈ program, i.operands.ImmediatesFit)
    (hn : ∀ i ∈ program, i.operands.layout ≠ .nullary) (threadCount : Nat) : ∀ k ≤ program.length,
    ∃ u, u0.executeInstructions alu isaSize (threadCount + 1) k = .ok u ∧
      AtInstruction program u0 k u ∧
      ∀ l < threadCount + 1, u.gpr l = runLane alu (program.take k) (u0.gpr l) := by
  intro k hk
  induction k with
  | zero => exact ⟨u0, rfl, ⟨rfl, rfl, by simp [hpc, programDwords]⟩, fun _ _ => rfl⟩
  | succ k ih =>
    obtain ⟨u, hrun, hat, hlanes⟩ := ih (by omega)
    have hmem : program[k] ∈ program := List.getElem_mem (by omega)
    obtain ⟨hf, u', hstep, hat', -⟩ := atInstruction_step hat (by omega) hu hisa
      ((hd _ hmem).readable (hfit _ hmem)) threadCount
    rw [(hd _ hmem).decoded (hfit _ hmem)] at hf
    have hlt : u.pc < isaSize := by
      have h0 := @dwords_at program k (by omega) 0 (Nat.succ_pos _)
      obtain ⟨hlt, -⟩ := List.getElem?_eq_some_iff.mp h0
      rw [hat.pc]
      omega
    refine ⟨u', ShaderUnit.executeInstructions_succ hrun hlt hstep, hat', fun l hl => ?_⟩
    have heq := ShaderUnit.executeInstruction_lanes hf (hd _ hmem) (hn _ hmem) threadCount
    rw [hstep] at heq
    cases heq
    show (if l < threadCount + 1 then _ else _) = _
    rw [if_pos hl, hlanes l hl, List.take_add_one, List.getElem?_eq_getElem (by omega),
      Option.toList_some, runLane_append]
    rfl

/-- The inputs with the number of components that the unit receives of each for a vertex. -/
def fragmentInputs (inputs : List (RegisterIndex × Dword)) : List (RegisterIndex × Nat) :=
  inputs.mapIdx fun i input => (input.1, if i = 0 then 3 else countBits input.2)

theorem toFields_select (io : InputOutputRegisters) (caller : String) (i : Fin 3) :
    (InputOutputRegisters.toFields io).select caller i =
      .ok (intToNonZeroCount 2 (io.regs i).componentsCount, (io.regs i).index) := by
  match i with
  | 0 | 1 | 2 => rfl

theorem withPosition_componentsCount {inputs : List (RegisterIndex × Dword)}
    (hcount : inputs.length ≤ 3) {i : Fin 3} (hi : i.val < inputs.length) :
    ((collected inputs).withPosition.regs i).componentsCount = countBits inputs[i.val].2 := by
  have hcollected : ((collected inputs).regs i).componentsCount = countBits inputs[i.val].2 := by
    rw [collected_regs hcount, collectedRegister, List.getElem?_eq_getElem hi]
  show (Function.update (collected inputs).regs 0 _ i).componentsCount = _
  rw [Function.update_apply]
  split
  · next h =>
    subst h
    exact hcollected
  · exact hcollected

/-- The inputs as the shader unit reads them from the header. -/
theorem inputRegisters_collected {inputs : List (RegisterIndex × Dword)} (hin : Collectable inputs)
    (hpos : 1 ≤ inputs.length) {u : ShaderUnit V} (hfs : u.isFs = true)
    (hinputs : u.isaMetadata.inputs =
      InputOutputRegisters.toFields (collected inputs).withPosition)
    (hcount : u.isaMetadata.inputsCount = intToNonZeroCount 2 inputs.length) :
    u.inputRegisters = .ok (fragmentInputs inputs) := by
  have hn := hin.count
  have hread : ∀ i ∈ List.range inputs.length, (do
      let registerIndex ← u.getInputRegisterIndex i
      if u.isFs ∧ i = 0 then return (registerIndex, 3)
      else return (registerIndex, nonZeroCountToInt (← u.getInputSize i))) =
        (.ok ((fragmentInputs inputs).getD i (0, 0)) : Except FatalError (RegisterIndex × Nat)) := by
    intro i hi
    have hi := List.mem_range.mp hi
    have hselect : ∀ caller, u.isaMetadata.inputs.select caller i =
        .ok (intToNonZeroCount 2 (countBits inputs[i].2), inputs[i].1) := by
      intro caller
      have hindex := @withPosition_index inputs hn ⟨i, by omega⟩ hi
      rw [registerAt_input hi, ← List.getElem_eq_getD (h := hi) (0, 0)] at hindex
      have hcomponents := @withPosition_componentsCount inputs hn ⟨i, by omega⟩ hi
      rw [hinputs]
      exact (toFields_select _ caller ⟨i, by omega⟩).trans (by rw [hindex, hcomponents])
    have hmask := prefixMask_count (hin.masks inputs[i] (List.getElem_mem hi))
    have hcomponents : nonZeroCountToInt (intToNonZeroCount 2 (countBits inputs[i].2)) =
        countBits inputs[i].2 := nonZeroCount_roundtrip hmask.1 hmask.2
    have hget : (fragmentInputs inputs).getD i (0, 0) =
        (inputs[i].1, if i = 0 then 3 else countBits inputs[i].2) := by
      unfold fragmentInputs
      rw [← List.getElem_eq_getD (h := by rw [List.length_mapIdx]; exact hi), List.getElem_mapIdx]
    unfold ShaderUnit.getInputRegisterIndex ShaderUnit.getInputSize
    rw [hselect, hselect, hget]
    by_cases h0 : i = 0
    · simp only [h0, hfs, map_ok, ok_bind, and_self, if_true]
      rfl
    · simp only [h0, map_ok, ok_bind, and_false, if_false, hcomponents]
      rfl
  unfold ShaderUnit.inputRegisters
  rw [hcount, nonZeroCount_roundtrip hpos (by omega), mapM_ok hread]
  congr 1
  have hlength : (fragmentInputs inputs).length = inputs.length := List.length_mapIdx
  refine List.ext_getElem (by rw [List.length_map, List.length_range, hlength]) fun i _ h2 => ?_
  rw [List.getElem_map, List.getElem_range, ← List.getElem_eq_getD (h := h2)]

/-- The unit allocates from the same registers as the assembler. -/
theorem ofIsaMetadata_collected {inputs : List (RegisterIndex × Dword)} (hin : Collectable inputs)
    (hpos : 1 ≤ inputs.length) {isaMetadata : CommandStoreIsa}
    (hinputs : isaMetadata.inputs = InputOutputRegisters.toFields (collected inputs).withPosition)
    (hcount : isaMetadata.inputsCount = intToNonZeroCount 2 inputs.length) :
    RegisterAllocator.ofIsaMetadata isaMetadata = .ofMask (collected inputs).usedRegsMask := by
  have hn := hin.count
  have hregister : ∀ i : Fin 3, ∀ hi : i.val < inputs.length,
      ((collected inputs).withPosition.regs i).index = inputs[i.val].1 := by
    intro i hi
    rw [withPosition_index hn hi, registerAt_input hi, ← List.getElem_eq_getD (h := hi) (0, 0)]
  unfold RegisterAllocator.ofIsaMetadata RegisterAllocator.constructUsedRegistersMaskFromIsaMetadata
  rw [hinputs, hcount, nonZeroCount_roundtrip hpos (by omega)]
  rcases inputs with _ | ⟨i0, _ | ⟨i1, _ | ⟨i2, _ | ⟨i3, inputs⟩⟩⟩⟩
  · exact absurd hpos (by decide)
  · have h0 : (InputOutputRegisters.toFields (collected [i0]).withPosition).register0 = i0.1 :=
      hregister 0 (show 0 < _ by simp)
    rw [h0]
    rfl
  · have h0 : (InputOutputRegisters.toFields (collected [i0, i1]).withPosition).register0 = i0.1 :=
      hregister 0 (show 0 < _ by simp)
    have h1 : (InputOutputRegisters.toFields (collected [i0, i1]).withPosition).register1 = i1.1 :=
      hregister 1 (show 1 < _ by simp)
    rw [h0, h1]
    rfl
  · have h0 : (InputOutputRegisters.toFields (collected [i0, i1, i2]).withPosition).register0 =
      i0.1 := hregister 0 (show 0 < _ by simp)
    have h1 : (InputOutputRegisters.toFields (collected [i0, i1, i2]).withPosition).register1 =
      i1.1 := hregister 1 (show 1 < _ by simp)
    have h2 : (InputOutputRegisters.toFields (collected [i0, i1, i2]).withPosition).register2 =
      i2.1 := hregister 2 (show 2 < _ by simp)
    rw [h0, h1, h2]
    rfl
  · exact absurd hn (by simp)

end

/-! ## The preamble -/

/-- One to three registers of which the first is the position. -/
structure FragmentInputs (inputs : List (RegisterIndex × Dword)) : Prop extends Collectable inputs where
  position : (inputs.map Prod.snd).head? = some 0b1111

theorem FragmentInputs.cons {inputs : List (RegisterIndex × Dword)} (h : FragmentInputs inputs) :
    ∃ register rest, inputs = (register, 0b1111) :: rest := by
  obtain ⟨-, hposition⟩ := h
  match inputs with
  | (register, mask) :: rest =>
    cases hposition
    exact ⟨register, rest, rfl⟩

section
variable {V : Type}

/-- Component `j` of attribute `i` of vertex `v`, when the attributes are in the stream
    from dword `start` on. -/
def attributeAt (inputs : List (RegisterIndex × Dword)) (stream : Nat → V) (start v i j : Nat) : V :=
  stream (start + (v * ((fragmentInputs inputs).map Prod.snd).sum +
    (((fragmentInputs inputs).take i).map Prod.snd).sum + j))

/-- The position of vertex `v`; its fourth component is not sent. -/
def positionAt (alu : Alu V) (inputs : List (RegisterIndex × Dword)) (stream : Nat → V)
    (start v : Nat) : VectorRegister V :=
  ⟨attributeAt inputs stream start v 0 0, attributeAt inputs stream start v 0 1,
    attributeAt inputs stream start v 0 2, alu.zero⟩

theorem interpolationInstructions_placed {inputs : List (RegisterIndex × Dword)}
    (hin : Collectable inputs) (hpos : 1 ≤ inputs.length) :
    ∃ r, Placed inputs inputs.length r ∧
      interpolationInstructions (collected inputs).withPosition =
        .ok (depthInstructions (registerAt inputs 0) r ++ attributePart inputs r 1 ++
          attributePart inputs r 2) := by
  obtain ⟨r, hr, hplaced⟩ := interpolationRegisters_placed hin hpos
  refine ⟨r, hplaced, ?_⟩
  unfold interpolationInstructions
  rw [hr, ok_bind, withPosition_index hin.count (show (0 : Fin 3).val < _ from hpos)]
  rfl

theorem depthInstructions_fit (p : RegisterIndex) (r : InterpolationRegisters) :
    (∀ i ∈ depthInstructions p r, i.operands.ImmediatesFit ∧ i.operands.layout ≠ .nullary) ∧
      (programDwords (depthInstructions p r)).length = 26 := by
  refine ⟨?_, rfl⟩
  simp only [depthInstructions, List.forall_mem_cons]
  refine ⟨?_, ?_, ?_, ?_, ?_, ?_, ?_, ?_, ?_, ?_, ?_, ?_, ?_, ?_, ?_, ?_, ?_, ?_, ?_, ?_, ?_, ?_,
    fun _ hi => absurd hi List.not_mem_nil⟩ <;> simp [Operands.ImmediatesFit, Operands.layout]

theorem attributeInstructions_fit (input : InputOutputRegister) (r : InterpolationRegisters)
    (i : Nat) :
    (∀ x ∈ attributeInstructions input r i,
      x.operands.ImmediatesFit ∧ x.operands.layout ≠ .nullary) ∧
      (programDwords (attributeInstructions input r i)).length = 6 := by
  refine ⟨?_, rfl⟩
  simp only [attributeInstructions, List.forall_mem_cons]
  refine ⟨?_, ?_, ?_, ?_, ?_, fun _ hi => absurd hi List.not_mem_nil⟩ <;>
    simp [Operands.ImmediatesFit, Operands.layout]

/-- The instructions of a preamble have operands, and not many. -/
theorem interpolation_fit (p : RegisterIndex) (r : InterpolationRegisters)
    (custom : Fin 3 → Prop) [∀ i, Decidable (custom i)] (input : Fin 3 → InputOutputRegister) :
    let part := fun i => if custom i then attributeInstructions (input i) r i else []
    (∀ i ∈ depthInstructions p r ++ part 1 ++ part 2,
      i.operands.ImmediatesFit ∧ i.operands.layout ≠ .nullary) ∧
    (programDwords (depthInstructions p r ++ part 1 ++ part 2)).length ≤ 38 := by
  obtain ⟨hdepth, hlen⟩ := depthInstructions_fit p r
  have hattribute : ∀ k : Fin 3, let part := if custom k then attributeInstructions (input k) r k else []
      (∀ i ∈ part, i.operands.ImmediatesFit ∧ i.operands.layout ≠ .nullary) ∧
      (programDwords part).length ≤ 6 := by
    intro k
    dsimp only
    split
    · exact ⟨(attributeInstructions_fit _ r k).1, Nat.le_of_eq (attributeInstructions_fit _ r k).2⟩
    · exact ⟨fun _ hi => absurd hi List.not_mem_nil, Nat.zero_le _⟩
  constructor
  · intro i hi
    rcases List.mem_append.mp hi with hi | hi
    · rcases List.mem_append.mp hi with hi | hi
      · exact hdepth i hi
      · exact (hattribute 1).1 i hi
    · exact (hattribute 2).1 i hi
  · have h1 := (hattribute 1).2
    have h2 := (hattribute 2).2
    unfold programDwords at hlen h1 h2 ⊢
    rw [List.flatMap_append, List.flatMap_append, List.length_append, List.length_append, hlen]
    exact Nat.add_le_add (Nat.add_le_add_left h1 26) h2

theorem preamble_instructions (inputs : List (RegisterIndex × Dword)) (p : RegisterIndex)
    (r : InterpolationRegisters) :
    (∀ i ∈ depthInstructions p r ++ attributePart inputs r 1 ++ attributePart inputs r 2,
      i.operands.ImmediatesFit ∧ i.operands.layout ≠ .nullary) ∧
    (programDwords (depthInstructions p r ++ attributePart inputs r 1 ++
      attributePart inputs r 2)).length ≤ 38 :=
  interpolation_fit p r (fun i => ((collected inputs).withPosition.regs i).usage = .custom)
    (collected inputs).withPosition.regs

/-- The pixel of lane `l`. -/
def pixelAt (alu : Alu V) (stream : Nat → V) (l : Nat) : VectorRegister V :=
  ⟨stream (l * 2 + 0), stream (l * 2 + 1), alu.zero, alu.zero⟩

/-- What the unit puts into the registers of its lanes before the preamble. -/
structure Initialized (alu : Alu V) (inputs : List (RegisterIndex × Dword)) (stream : Nat → V)
    (start l : Nat) (file : LaneFile V) : Prop where
  pixel : file (registerAt inputs 0) = pixelAt alu stream l
  attributes : ∀ v < verticesInPrimitive, ∀ i, ∀ hi : i < inputs.length, ∀ j : Fin 4,
    (file (registerAt inputs (inputs.length + (v * inputs.length + i)))).get j =
      if j.val < (if i = 0 then 3 else countBits inputs[i].2) then
        attributeAt inputs stream start v i j
      else alu.zero

theorem Initialized.position {alu : Alu V} {inputs : List (RegisterIndex × Dword)}
    {stream : Nat → V} {start l : Nat} {file : LaneFile V}
    (h : Initialized alu inputs stream start l file) (hpos : 1 ≤ inputs.length) {v : Nat}
    (hv : v < verticesInPrimitive) :
    file (registerAt inputs (inputs.length + (v * inputs.length + 0))) =
      positionAt alu inputs stream start v := by
  apply VectorRegister.ext_get
  intro j
  rw [h.attributes v hv 0 hpos j]
  match j with
  | 0 | 1 | 2 | 3 => rfl

/-- The unit finds the attributes in the registers that the preamble expects them in. -/
theorem initializeInputRegisters_collected (alu : Alu V) {inputs : List (RegisterIndex × Dword)}
    (hin : Collectable inputs) (hpos : 1 ≤ inputs.length) {u : ShaderUnit V} (hfs : u.isFs = true)
    (hinputs : u.isaMetadata.inputs =
      InputOutputRegisters.toFields (collected inputs).withPosition)
    (hcount : u.isaMetadata.inputsCount = intToNonZeroCount 2 inputs.length) {total : Nat}
    (htotal : u.uniformsTotalComponentCount = .ok total) (threadCount : Nat) (stream : Nat → V) :
    ∃ u', (u.clearRegisters alu).initializeInputRegisters alu threadCount stream = .ok u' ∧
      u'.isaMetadata = u.isaMetadata ∧ u'.isa = u.isa ∧ u'.pc = 0 ∧
      ∀ l < threadCount,
        Initialized alu inputs stream (threadCount * 2 + total) l (u'.gpr l) := by
  have hread := @inputRegisters_collected _ _ hin hpos u hfs hinputs hcount
  have hallocator := ofIsaMetadata_collected hin hpos hinputs hcount
  have hlength : (fragmentInputs inputs).length = inputs.length := List.length_mapIdx
  have hget : ∀ i, ∀ hi : i < inputs.length, (fragmentInputs inputs).getD i (0, 0) =
      (registerAt inputs i, if i = 0 then 3 else countBits inputs[i].2) := by
    intro i hi
    rw [registerAt_input hi, ← List.getElem_eq_getD (h := hlength ▸ hi),
      ← List.getElem_eq_getD (h := hi)]
    exact List.getElem_mapIdx
  have hposition : registerAt inputs 0 ∉ freeRegisters inputs := by
    intro hmem
    have hfirst := registerAt_input (show 0 < inputs.length from hpos)
    have hdisjoint := (List.nodup_append.mp (nodup_registers hin.nodup)).2.2
    rw [← List.getElem_eq_getD (h := hpos)] at hfirst
    exact hdisjoint _ (List.mem_map_of_mem (List.getElem_mem hpos)) _ hmem hfirst.symm
  have hfree := length_freeRegisters hin.nodup
  have hn := hin.count
  obtain ⟨u', hu', hmeta, hisa, hpc, hlanes⟩ :=
    @ShaderUnit.initializeInputRegisters_fs _ alu (u.clearRegisters alu) hfs _ hread total htotal
      (freeRegisters inputs) (congrArg RegisterAllocator.free hallocator)
      (by rw [hlength]; omega) (by rw [hget 0 hpos]; exact hposition) threadCount stream
  refine ⟨u', hu', hmeta, hisa, hpc, fun l hl => ?_⟩
  obtain ⟨hpixel, hattributes⟩ := hlanes l hl
  rw [hget 0 hpos] at hpixel
  refine ⟨hpixel, fun v hv i hi j => ?_⟩
  have hattribute := hattributes v hv i (hlength ▸ hi)
  rw [hlength, ← registerAt_free, hget i hi] at hattribute
  rw [hattribute, copyComponents_get, VectorRegister.replicate_get]
  rfl

end

/-- The result of the preamble in lane `l`: with the barycentric weights of the pixel the
    inputs are interpolated, perspective-correct. -/
def Interpolated {K : Type} [Field K] (alu : Alu K) (inputs : List (RegisterIndex × Dword))
    (stream : Nat → K) (start l : Nat) (file : LaneFile K) : Prop :=
  let p := pixelAt alu stream l
  let a := positionAt alu inputs stream start 0
  let b := positionAt alu inputs stream start 1
  let c := positionAt alu inputs stream start 2
  let attrib := attributeAt inputs stream start
  ∀ wA wB wC, Barycentric p a b c wA wB wC → Divisible a b c wA wB wC →
    let depth := 1 / (wA / a.z + wB / b.z + wC / c.z)
    (∀ h : 0 < inputs.length, file inputs[0].1 = { p with z := depth }) ∧
    ∀ i, 1 ≤ i → ∀ hi : i < inputs.length, ∀ j : Fin 4, (file inputs[i].1).get j =
      if selects (inputs[i].2.setWidth 4) j then
        depth * (attrib 0 i j * wA / a.z + attrib 1 i j * wB / b.z + attrib 2 i j * wC / c.z)
      else 0

theorem interpolated_run {K : Type} [Field K] {alu : Alu K} (halu : alu.Exact)
    {inputs : List (RegisterIndex × Dword)} (hin : Collectable inputs) (hpos : 1 ≤ inputs.length)
    {r : InterpolationRegisters} (hr : Placed inputs inputs.length r) {stream : Nat → K}
    {start l : Nat} {file : LaneFile K} (hfile : Initialized alu inputs stream start l file) :
    Interpolated alu inputs stream start l
      (runLane alu (depthInstructions (registerAt inputs 0) r ++ attributePart inputs r 1 ++
        attributePart inputs r 2) file) := by
  intro wA wB wC hw hdiv
  have hvertex : ∀ v < verticesInPrimitive, file (r.attrib v 0) =
      positionAt alu inputs stream start v := by
    intro v hv
    rw [hr.attrib v hv 0 hpos]
    exact hfile.position hpos hv
  obtain ⟨hposition, hattributes⟩ := preamble_run hr hin hpos file hfile.pixel
    (hvertex 0 (by decide)) (hvertex 1 (by decide)) (hvertex 2 (by decide)) rfl
  have hdepth := halu.depth hw hdiv halu.zero
  unfold reciprocalDepth at hdepth
  have hregister : ∀ i, ∀ hi : i < inputs.length, registerAt inputs i = inputs[i].1 := by
    intro i hi
    rw [registerAt_input hi, ← List.getElem_eq_getD (h := hi)]
  refine ⟨fun h => ?_, fun i h1 hi j => ?_⟩
  · rw [← hregister 0 h, hposition, ← hdepth]
  · have hmask : (inputs.getD i (0, 0)).2 = inputs[i].2 := by
      rw [← List.getElem_eq_getD (h := hi)]
    rw [← hregister i hi, hattributes i h1 hi j, hmask]
    by_cases hsel : selects (inputs[i].2.setWidth 4) j = true
    · -- a selected component was sent
      have hsent : j.val < countBits inputs[i].2 := by
        rw [prefixMask_selects (hin.masks _ (List.getElem_mem hi))] at hsel
        exact of_decide_eq_true hsel
      have hvalue : ∀ v < verticesInPrimitive,
          (file (r.attrib v i)).get j = attributeAt inputs stream start v i j := by
        intro v hv
        have hcomponents : j.val < if i = 0 then 3 else countBits inputs[i].2 := by
          rw [if_neg (by omega)]
          exact hsent
        rw [hr.attrib v hv i hi, hfile.attributes v hv i hi j, if_pos hcomponents]
      rw [if_pos hsel, if_pos hsel, hvalue 0 (by decide), hvalue 1 (by decide), hvalue 2 (by decide),
        halu.interpolated, halu.weightA hdiv.area hw, halu.weightB hdiv.area hw,
        halu.weightC hdiv.area hw, halu.fdiv _ _ hdiv.zA, halu.fdiv _ _ hdiv.zB,
        halu.fdiv _ _ hdiv.zC, hdepth]
      ring
    · rw [if_neg hsel, if_neg hsel, halu.fmul, halu.ofDword_zero, zero_mul]

/-- **A fragment shader with one to three distinct inputs is finalized without a failure,
    its preamble among the first instructions; a unit that stores it initializes its
    registers without a failure; and over a field, when no divisor is zero, the preamble
    leaves the interpolated inputs in every lane.** -/
theorem preamble_interpolates {K : Type} [Field K] {alu : Alu K} (halu : alu.Exact)
    {calls : List AssemblerCall} (hd : ∀ call ∈ calls, call.IsDirective)
    {inputs : List (RegisterIndex × Dword)}
    (hinputs : calls.filterMap AssemblerCall.inputDirective = inputs) (hin : FragmentInputs inputs)
    {b0 : PicoGpuBinary} (h0 : AssemblerCall.performAll calls .new = .ok b0)
    (htype : b0.programType = some .fragmentShader) :
    ∃ b preamble, b0.finalizeDirectives = .ok b ∧
      interpolationInstructions b.inputs = .ok preamble ∧
      ∀ (u : ShaderUnit K) (hasNextCommand : BitVec 1) (programLength : BitVec 9),
      u.isaMetadata =
        { b.header with hasNextCommand := hasNextCommand, programLength := programLength } →
      b.code.length ≤ programLength.toNat → (∀ j, ∀ hj : j < b.code.length, u.isa j = b.code[j]) →
      ∃ total, u.uniformsTotalComponentCount = .ok total ∧
      ∀ (threadCount : BitVec 5) (stream : Nat → K), ∃ u1 u2,
        (u.clearRegisters alu).initializeInputRegisters alu (nonZeroCountToInt threadCount) stream =
          .ok u1 ∧
        u1.executeInstructions alu programLength.toNat (nonZeroCountToInt threadCount)
          preamble.length = .ok u2 ∧
        u2.pc = (programDwords preamble).length ∧
        ∀ l < nonZeroCountToInt threadCount, Interpolated alu inputs stream
          (nonZeroCountToInt threadCount * 2 + total) l (u2.gpr l) := by
  have hcollecting := AssemblerCall.collecting_run AssemblerCall.collecting_new hd
    (by rw [hinputs]; exact hin.toCollectable) h0
  rw [hinputs, List.nil_append] at hcollecting
  obtain ⟨register, rest, hcons⟩ := hin.cons
  have hpos : 1 ≤ inputs.length := by rw [hcons]; exact Nat.succ_pos _
  have hn := hin.count
  have hfirst : (collected inputs).regs 0 = ⟨register, .custom, 0b1111, 4⟩ := by
    rw [collected_regs hin.count, hcons]
    rfl
  have hinputs0 := hcollecting.inputs
  -- the assembler
  obtain ⟨r, hplaced, hinterpolation⟩ := interpolationInstructions_placed hin.toCollectable hpos
  obtain ⟨hoperands, hlen⟩ := preamble_instructions inputs (registerAt inputs 0) r
  have hmax : (programDwords (depthInstructions (registerAt inputs 0) r ++ attributePart inputs r 1 ++
      attributePart inputs r 2)).length + 2 < Isa.maxIsaSize :=
    Nat.lt_of_le_of_lt (Nat.add_le_add_right hlen 2) (by decide)
  obtain ⟨b, hb, hheader⟩ := @finalizeDirectives_fragment b0 _ htype
    (by rw [hinputs0, collected_count]; omega) (by rw [hinputs0, hfirst])
    (by rw [hinputs0, hfirst]) hcollecting.outputs hcollecting.code
    (by rw [hinputs0]; exact hinterpolation) (fun i hi => (hoperands i hi).1) hmax
  rw [hinputs0] at hheader
  have hperform : AssemblerCall.performAll (calls ++ [.finalizeDirectives]) .new = .ok b := by
    refine AssemblerCall.performAll_append.mpr ⟨b0, h0, ?_⟩
    unfold AssemblerCall.performAll
    rw [List.foldlM_cons]
    show (b0.finalizeDirectives >>= _) = _
    rw [hb]
    rfl
  obtain ⟨_, -, hassembled⟩ := AssemblerCall.assembled_run AssemblerCall.assembled_new hperform
  refine ⟨b, _, hb, by rw [hheader.inputs]; exact hinterpolation, ?_⟩
  intro u hasNextCommand programLength hmeta hlength hisa
  -- the unit
  have hcounts : u.CountsFit := ⟨by rw [hmeta]; exact hassembled.counts.uniforms,
    by rw [hmeta]; exact hassembled.counts.inputs⟩
  have hfs : u.isFs = true := by
    unfold ShaderUnit.isFs
    rw [hmeta]
    exact decide_eq_true hheader.headerProgramType
  obtain ⟨setup, hcode, -⟩ := hheader.code
  obtain ⟨total, htotal⟩ := ShaderUnit.uniformsTotalComponentCount_ok hcounts
  refine ⟨total, htotal, fun threadCount stream => ?_⟩
  obtain ⟨u1, hu1, hmeta1, hisa1, hpc1, hlanes1⟩ := initializeInputRegisters_collected alu
    hin.toCollectable hpos hfs (by rw [hmeta]; exact hheader.headerInputs)
    (by rw [hmeta, ← collected_count inputs]; exact hheader.headerInputsCount) htotal
    (nonZeroCountToInt threadCount) stream
  generalize hpreamble : depthInstructions (registerAt inputs 0) r ++ attributePart inputs r 1 ++
    attributePart inputs r 2 = preamble at *
  have hsplit : b.code = programDwords preamble ++ programDwords setup := by
    rw [hcode]
    exact List.flatMap_append
  have hread : ∀ j, ∀ hj : j < (programDwords preamble).length,
      u1.isa j = (programDwords preamble)[j] := by
    intro j hj
    have hlt : j < b.code.length := by rw [hsplit, List.length_append]; omega
    rw [hisa1, hisa j hlt]
    simp only [hsplit]
    exact List.getElem_append_left hj
  have hsize : (programDwords preamble).length ≤ programLength.toNat := by
    rw [hsplit, List.length_append] at hlength
    omega
  obtain ⟨u2, hu2, hat, hlanes2⟩ := @lanes_run _ alu preamble u1 programLength.toNat hpc1
    ⟨by rw [hmeta1]; exact hcounts.uniforms, by rw [hmeta1]; exact hcounts.inputs⟩ hread hsize
    (dispatched_interpolation hinterpolation) (fun i hi => (hoperands i hi).1)
    (fun i hi => (hoperands i hi).2) threadCount.toNat preamble.length (Nat.le_refl _)
  rw [List.take_length] at hlanes2
  refine ⟨u1, u2, hu1, hu2, by rw [hat.pc, List.take_length], fun l hl => ?_⟩
  rw [hlanes2 l hl, ← hpreamble]
  exact interpolated_run halu hin.toCollectable hpos hplaced (hlanes1 l hl)

/-- The float operations on rational numbers, and the two constants of the preamble. The
    other operations are left at zero: the preamble has none. -/
def rationalAlu : Alu ℚ where
  zero := 0
  one := 1
  ofDword := fun dword => if dword = floatOne then 1 else 0
  fadd := fun a b => a + b
  fsub := fun a b => a - b
  fmul := fun a b => a * b
  fdiv := fun a b => a / b
  fneg := fun a => -a
  fsqrt := fun _ => 0
  fmax := max
  fmin := min
  iadd := fun _ _ => 0
  isub := fun _ _ => 0
  imul := fun _ _ => 0
  idiv := fun _ _ => 0
  ineg := fun _ => 0
  imax := fun _ _ => 0
  imin := fun _ _ => 0

theorem rationalAlu_exact : rationalAlu.Exact :=
  ⟨rfl, rfl, rfl, rfl, fun _ _ => rfl, fun _ _ => rfl, fun _ _ => rfl, fun _ _ _ => rfl⟩

/-- A fragment shader with a position and one attribute of two components. -/
def fragmentCalls : List AssemblerCall :=
  [.encodeDirectiveShaderType .fragmentShader, .encodeDirectiveInputOutput 3 0b1111 .input,
    .encodeDirectiveInputOutput 1 0b1100 .input, .encodeDirectiveInputOutput 2 0b1111 .output]

/-- A pixel at (1, 1), and the triangle (0, 0), (4, 0), (0, 4) with depths 1, 2, 4. -/
def triangleStream (k : Nat) : ℚ :=
  [1, 1, 0, 0, 1, 5, 0, 4, 0, 2, 0, 5, 0, 4, 4, 5, 5].getD k 0

/-- A unit that a binary was stored in, before the rest of the program. -/
def storedUnit (b : PicoGpuBinary) : ShaderUnit ℚ where
  isaMetadata := { b.header with programLength := 511 }
  isa := fun j => b.code.getD j 0
  gpr := fun _ _ => .replicate 0
  pc := 0
  uniformDwords := fun _ => 0

theorem preamble_interpolates_two_inputs : ∃ b0 b u1 u2 clocks,
    AssemblerCall.performAll fragmentCalls .new = .ok b0 ∧ b0.finalizeDirectives = .ok b ∧
    ((storedUnit b).clearRegisters rationalAlu).initializeInputRegisters rationalAlu 1
      triangleStream = .ok u1 ∧
    u1.executeInstructions rationalAlu 511 1 clocks = .ok u2 ∧
    u2.gpr 0 3 = ⟨1, 1, 16 / 11, 0⟩ ∧ (u2.gpr 0 1).get 0 = 45 / 11 ∧ (u2.gpr 0 1).get 2 = 0 := by
  obtain ⟨b0, h0, htype⟩ : ∃ b0, AssemblerCall.performAll fragmentCalls .new = .ok b0 ∧
      b0.programType = some .fragmentShader := ⟨_, rfl, rfl⟩
  have hd : ∀ call ∈ fragmentCalls, call.IsDirective := by
    simp only [fragmentCalls, List.forall_mem_cons]
    exact ⟨trivial, trivial, trivial, trivial, fun _ h => nomatch h⟩
  have hinputs : fragmentCalls.filterMap AssemblerCall.inputDirective =
      [(3, 0b1111), (1, 0b1100)] := rfl
  have hmasks : ∀ input ∈ [((3 : RegisterIndex), (0b1111 : Dword)), (1, 0b1100)],
      input.2 ∈ prefixMasks := by
    simp only [List.forall_mem_cons]
    exact ⟨List.mem_of_elem_eq_true rfl, List.mem_of_elem_eq_true rfl, fun _ h => nomatch h⟩
  have hin : FragmentInputs [(3, 0b1111), (1, 0b1100)] := ⟨⟨by decide, by decide, hmasks⟩, rfl⟩
  obtain ⟨b, preamble, hb, -, hunit⟩ :=
    preamble_interpolates rationalAlu_exact hd hinputs hin h0 htype
  have hperform : AssemblerCall.performAll (fragmentCalls ++ [.finalizeDirectives]) .new = .ok b := by
    refine AssemblerCall.performAll_append.mpr ⟨b0, h0, ?_⟩
    unfold AssemblerCall.performAll
    rw [List.foldlM_cons]
    show (b0.finalizeDirectives >>= _) = _
    rw [hb]
    rfl
  obtain ⟨_, -, hassembled⟩ := AssemblerCall.assembled_run AssemblerCall.assembled_new hperform
  have huniforms : b.header.uniformsCount = 0 := by
    have hmap : (AssemblerCall.performAll (fragmentCalls ++ [.finalizeDirectives]) .new).map
        (fun b => b.header.uniformsCount) = .ok 0 := by decide
    rw [hperform] at hmap
    exact Except.ok.inj hmap
  obtain ⟨total, htotal, hrun⟩ := hunit (storedUnit b) b.header.hasNextCommand 511 rfl
    (Nat.le_of_lt_succ hassembled.fits) fun j hj => (List.getElem_eq_getD 0).symm
  have htotal0 : total = 0 := by
    unfold ShaderUnit.uniformsTotalComponentCount at htotal
    rw [show (storedUnit b).isaMetadata.uniformsCount = 0 from huniforms] at htotal
    exact (Except.ok.inj htotal).symm
  subst htotal0
  obtain ⟨u1, u2, hu1, hu2, -, hlanes⟩ := hrun 0 triangleStream
  have hp : pixelAt rationalAlu triangleStream 0 = ⟨1, 1, 0, 0⟩ := rfl
  have hA : positionAt rationalAlu [(3, 0b1111), (1, 0b1100)] triangleStream
      (nonZeroCountToInt (0 : BitVec 5) * 2 + 0) 0 = ⟨0, 0, 1, 0⟩ := rfl
  have hB : positionAt rationalAlu [(3, 0b1111), (1, 0b1100)] triangleStream
      (nonZeroCountToInt (0 : BitVec 5) * 2 + 0) 1 = ⟨4, 0, 2, 0⟩ := rfl
  have hC : positionAt rationalAlu [(3, 0b1111), (1, 0b1100)] triangleStream
      (nonZeroCountToInt (0 : BitVec 5) * 2 + 0) 2 = ⟨0, 4, 4, 0⟩ := rfl
  have hlane := hlanes 0 (by decide)
  unfold Interpolated at hlane
  simp only [hp, hA, hB, hC] at hlane
  obtain ⟨hposition, hattribute⟩ := hlane (1 / 2) (1 / 4) (1 / 4)
    ⟨by norm_num, by norm_num, by norm_num⟩
    ⟨by norm_num [doubleArea], by norm_num, by norm_num, by norm_num, by norm_num [reciprocalDepth]⟩
  refine ⟨b0, b, u1, u2, preamble.length, h0, hb, hu1, hu2, ?_, ?_, ?_⟩
  · rw [show u2.gpr 0 3 = _ from hposition (by decide)]
    norm_num
  · rw [show (u2.gpr 0 1).get 0 = _ from hattribute 1 (by decide) (by decide) 0,
      if_pos (by decide)]
    have h0 : attributeAt [(3, 0b1111), (1, 0b1100)] triangleStream
      (nonZeroCountToInt (0 : BitVec 5) * 2 + 0) 0 1 0 = 5 := rfl
    have h1 : attributeAt [(3, 0b1111), (1, 0b1100)] triangleStream
      (nonZeroCountToInt (0 : BitVec 5) * 2 + 0) 1 1 0 = 0 := rfl
    have h2 : attributeAt [(3, 0b1111), (1, 0b1100)] triangleStream
      (nonZeroCountToInt (0 : BitVec 5) * 2 + 0) 2 1 0 = 5 := rfl
    rw [show ((0 : Fin 4).val) = 0 from rfl, h0, h1, h2]
    norm_num
  · rw [show (u2.gpr 0 1).get 2 = _ from hattribute 1 (by decide) (by decide) 2,
      if_neg (by decide)]

end PicoGpu
