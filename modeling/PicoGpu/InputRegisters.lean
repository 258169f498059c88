import PicoGpu.RegisterAllocator
import PicoGpu.ShaderUnit
import Mathlib.Data.List.GetD

/- How a shader unit fills its registers from a request, `initializeInputRegisters`.

   The dwords of the request are a stream: first those of the threads, then the
   uniforms, then for a fragment shader the attributes of the three vertices. The
   attributes go to registers that the unit allocates itself, one after the other,
   so they are found where the free registers of its inputs are. -/
namespace PicoGpu

def verticesInPrimitive : Nat := 3

section
variable {V : Type}

/-- `memcpy` of as many components into a register. -/
def copyComponents (componentsCount : Nat) (values : Nat → V) (r : VectorRegister V) :
    VectorRegister V :=
  [0, 1, 2, 3].foldl (fun (r : VectorRegister V) (component : Fin 4) =>
    if component < componentsCount then r.set (values component) component else r) r

/-- `x` and `y` of the threads below `threadCount`. -/
def storePosition (threadCount : Nat) (register : RegisterIndex) (perThreadDwords : Nat → V)
    (gpr : Nat → LaneFile V) : Nat → LaneFile V :=
  fun threadIndex => if threadIndex < threadCount then
    Function.update (gpr threadIndex) register { gpr threadIndex register with
      x := perThreadDwords (threadIndex * 2 + 0)
      y := perThreadDwords (threadIndex * 2 + 1) }
  else gpr threadIndex

/-- The inputs of one thread, from the dword at `stored` on. -/
def storeThreadInputs (inputs : List (RegisterIndex × Nat)) (perThreadDwords : Nat → V)
    (s : (Nat → LaneFile V) × Nat) (threadIndex : Nat) : (Nat → LaneFile V) × Nat :=
  inputs.foldl (fun (gpr, stored) (registerIndex, componentsCount) =>
    let reg := copyComponents componentsCount (fun k => perThreadDwords (stored + k))
      (gpr threadIndex registerIndex)
    (Function.update gpr threadIndex (Function.update (gpr threadIndex) registerIndex reg),
      stored + componentsCount)) s

/-- The state of the loops over the vertices and their attributes. -/
structure AttributeState (V : Type) where
  gpr : Nat → LaneFile V
  stored : Nat
  registerAllocator : RegisterAllocator

/-- One attribute, which every thread below `threadCount` gets. -/
def storeVertexAttribute (alu : Alu V) (threadCount : Nat) (fsVertexAttributesDwords : Nat → V)
    (s : AttributeState V) (input : RegisterIndex × Nat) : Except FatalError (AttributeState V) := do
  let (registerIndex, registerAllocator) ← s.registerAllocator.allocate
  let componentsCount := input.2
  let regValue := copyComponents componentsCount
    (fun k => fsVertexAttributesDwords (s.stored + k)) (.replicate alu.zero)
  return {
    gpr := writeLanes threadCount registerIndex regValue s.gpr
    stored := s.stored + componentsCount
    registerAllocator }

def storeVertexAttributes (alu : Alu V) (threadCount : Nat) (inputs : List (RegisterIndex × Nat))
    (fsVertexAttributesDwords : Nat → V) (s : AttributeState V) :
    Except FatalError (AttributeState V) :=
  (List.range verticesInPrimitive).foldlM (fun s _ =>
    inputs.foldlM (storeVertexAttribute alu threadCount fsVertexAttributesDwords) s) s

namespace ShaderUnit

def isFs (u : ShaderUnit V) : Bool := u.isaMetadata.programType = .fragmentShader

def getInputSize (u : ShaderUnit V) (index : Nat) : Except FatalError (BitVec 2) :=
  Prod.fst <$> u.isaMetadata.inputs.select "getInputOutputSize" index

/-- The registers of the inputs with their component counts. The position of a
    fragment has three, whatever the header says. -/
def inputRegisters (u : ShaderUnit V) : Except FatalError (List (RegisterIndex × Nat)) :=
  (List.range (nonZeroCountToInt u.isaMetadata.inputsCount)).mapM fun inputIndex => do
    let registerIndex ← u.getInputRegisterIndex inputIndex
    if u.isFs ∧ inputIndex = 0 then return (registerIndex, 3)
    else return (registerIndex, nonZeroCountToInt (← u.getInputSize inputIndex))

def uniformsTotalComponentCount (u : ShaderUnit V) : Except FatalError Nat :=
  (List.range u.isaMetadata.uniformsCount.toNat).foldlM
    (fun total uniformIndex => return total + nonZeroCountToInt (← u.getUniformSize uniformIndex)) 0

/-- The `memset` of the registers. -/
def clearRegisters (alu : Alu V) (u : ShaderUnit V) : ShaderUnit V :=
  { u with gpr := fun _ _ => .replicate alu.zero, pc := 0 }

def initializeInputRegisters (alu : Alu V) (threadCount : Nat) (stream : Nat → V)
    (u : ShaderUnit V) : Except FatalError (ShaderUnit V) := do
  let inputs ← u.inputRegisters
  let inputTotalComponentCount := (inputs.map Prod.snd).sum
  let uniformsTotalComponentCount ← u.uniformsTotalComponentCount
  let perThreadCount :=
    if u.isFs then threadCount * 2 else threadCount * inputTotalComponentCount
  let uniformDwords := fun k =>
    if k < uniformsTotalComponentCount then stream (perThreadCount + k) else alu.zero
  if u.isFs then
    let gpr := storePosition threadCount (inputs.getD 0 (0, 0)).1 stream u.gpr
    let s ← storeVertexAttributes alu threadCount inputs
      (fun k => stream (perThreadCount + uniformsTotalComponentCount + k))
      ⟨gpr, 0, .ofIsaMetadata u.isaMetadata⟩
    return { u with gpr := s.gpr, uniformDwords := uniformDwords }
  else
    let (gpr, _) := (List.range threadCount).foldl (storeThreadInputs inputs stream) (u.gpr, 0)
    return { u with gpr := gpr, uniformDwords := uniformDwords }

end ShaderUnit

/-! ## Where the attributes are -/

theorem copyComponents_get (componentsCount : Nat) (values : Nat → V) (r : VectorRegister V)
    (j : Fin 4) : (copyComponents componentsCount values r).get j =
      if j.val < componentsCount then values j else r.get j := by
  unfold copyComponents
  simp only [List.foldl_cons, List.foldl_nil]
  match j with
  | 0 | 1 | 2 | 3 =>
    by_cases h0 : 0 < componentsCount <;> by_cases h1 : 1 < componentsCount <;>
      by_cases h2 : 2 < componentsCount <;> by_cases h3 : 3 < componentsCount <;>
      simp [h0, h1, h2, h3, VectorRegister.get, VectorRegister.set]

/-- Attribute `k` of a list of attributes is found in free register `k`, and no other
    register changes. -/
theorem foldlM_storeVertexAttribute (alu : Alu V) (threadCount : Nat)
    (fsVertexAttributesDwords : Nat → V) (inputs : List (RegisterIndex × Nat)) :
    ∀ {s : AttributeState V}, s.registerAllocator.startRegisterToAllocate ≤ 16 →
    inputs.length ≤ s.registerAllocator.free.length → s.registerAllocator.free.Nodup →
    ∃ s', inputs.foldlM (storeVertexAttribute alu threadCount fsVertexAttributesDwords) s = .ok s' ∧
      (∀ k < inputs.length, ∀ l < threadCount,
        s'.gpr l (s.registerAllocator.free.getD k 0) =
          copyComponents (inputs.getD k (0, 0)).2
            (fun j => fsVertexAttributesDwords (s.stored + ((inputs.take k).map Prod.snd).sum + j))
            (.replicate alu.zero)) ∧
      ∀ l, ∀ r ∉ s.registerAllocator.free.take inputs.length, s'.gpr l r = s.gpr l r := by
  induction inputs with
  | nil =>
    intro s _ _ _
    exact ⟨s, rfl, fun k hk => (nomatch hk), fun _ _ _ => rfl⟩
  | cons input inputs ih =>
    intro s hstart hlen hnd
    cases hfree : s.registerAllocator.free with
    | nil =>
      rw [hfree] at hlen
      exact nomatch hlen
    | cons r rest =>
      rw [hfree] at hlen hnd
      obtain ⟨hr, hnd⟩ := List.nodup_cons.mp hnd
      obtain ⟨a, halloc, hrest, hstart⟩ := RegisterAllocator.allocate_ok hstart hfree
      let s1 : AttributeState V := ⟨writeLanes threadCount r (copyComponents input.2
        (fun j => fsVertexAttributesDwords (s.stored + j)) (.replicate alu.zero)) s.gpr,
        s.stored + input.2, a⟩
      have hs1 : storeVertexAttribute alu threadCount fsVertexAttributesDwords s input = .ok s1 := by
        unfold storeVertexAttribute
        rw [halloc]
        rfl
      obtain ⟨s', hs', hstored, hframe⟩ := @ih s1 hstart
        (by rw [hrest]; exact Nat.le_of_succ_le_succ hlen) (by rw [hrest]; exact hnd)
      rw [hrest] at hstored hframe
      refine ⟨s', by rw [List.foldlM_cons, hs1]; exact hs', ?_, ?_⟩
      · intro k hk l hl
        cases k with
        | zero =>
          have hkeep : s'.gpr l r = s1.gpr l r :=
            hframe l r fun hmem => hr (List.mem_of_mem_take hmem)
          rw [List.getD_cons_zero, List.getD_cons_zero, hkeep]
          show (if l < threadCount then Function.update (s.gpr l) r _ else s.gpr l) r = _
          rw [if_pos hl, Function.update_self]
          rfl
        | succ k =>
          rw [List.getD_cons_succ, List.getD_cons_succ,
            hstored k (Nat.lt_of_succ_lt_succ hk) l hl, List.take_succ_cons, List.map_cons,
            List.sum_cons, ← Nat.add_assoc]
      · intro l r' hr'
        rw [List.length_cons, List.take_succ_cons, List.mem_cons, not_or] at hr'
        rw [hframe l r' hr'.2]
        show (if l < threadCount then Function.update (s.gpr l) r _ else s.gpr l) r' = _
        split
        · exact Function.update_of_ne hr'.1 _ _
        · rfl

/-- The three vertices one after the other. -/
theorem storeVertexAttributes_eq (alu : Alu V) (threadCount : Nat)
    (inputs : List (RegisterIndex × Nat)) (fsVertexAttributesDwords : Nat → V)
    (s : AttributeState V) :
    storeVertexAttributes alu threadCount inputs fsVertexAttributesDwords s =
      (inputs ++ inputs ++ inputs).foldlM
        (storeVertexAttribute alu threadCount fsVertexAttributesDwords) s := by
  have hrange : List.range verticesInPrimitive = [0, 1, 2] := rfl
  unfold storeVertexAttributes
  rw [hrange, List.foldlM_append, List.foldlM_append, bind_assoc]
  simp only [List.foldlM_cons, List.foldlM_nil, bind_pure]

/-- Attribute `i` of vertex `v` is number `v * inputs.length + i`. -/
theorem vertexAttribute_at (inputs : List (RegisterIndex × Nat)) {v i : Nat}
    (hv : v < verticesInPrimitive) (hi : i < inputs.length) :
    (inputs ++ inputs ++ inputs).getD (v * inputs.length + i) (0, 0) = inputs.getD i (0, 0) ∧
    (((inputs ++ inputs ++ inputs).take (v * inputs.length + i)).map Prod.snd).sum =
      v * (inputs.map Prod.snd).sum + ((inputs.take i).map Prod.snd).sum := by
  have h0 : i - inputs.length = 0 := by omega
  match v with
  | 0 =>
    rw [Nat.zero_mul, Nat.zero_add, Nat.zero_mul, Nat.zero_add, List.append_assoc]
    refine ⟨List.getD_append _ _ _ _ hi, ?_⟩
    rw [List.take_append_of_le_length (Nat.le_of_lt hi)]
  | 1 =>
    rw [Nat.one_mul, Nat.one_mul, List.append_assoc]
    refine ⟨?_, ?_⟩
    · rw [List.getD_append_right _ _ _ _ (Nat.le_add_right _ _), Nat.add_sub_cancel_left,
        List.getD_append _ _ _ _ hi]
    · rw [List.take_length_add_append, List.take_append_of_le_length (Nat.le_of_lt hi),
        List.map_append, List.sum_append]
  | 2 =>
    have hlen : 2 * inputs.length + i = (inputs ++ inputs).length + i := by
      rw [List.length_append, Nat.two_mul]
    rw [hlen]
    refine ⟨?_, ?_⟩
    · rw [List.getD_append_right _ _ _ _ (Nat.le_add_right _ _), Nat.add_sub_cancel_left]
    · rw [List.take_length_add_append, List.map_append, List.sum_append, List.map_append,
        List.sum_append, Nat.two_mul]

namespace ShaderUnit

theorem uniformsTotalComponentCount_ok {u : ShaderUnit V} (h : u.CountsFit) :
    ∃ total, u.uniformsTotalComponentCount = .ok total := by
  refine foldlM_ok fun i hi total => ?_
  have hi : i < 3 := Nat.lt_of_lt_of_le (List.mem_range.mp hi) h.uniforms
  obtain ⟨r, hr⟩ := select_ok u.isaMetadata.uniforms "getUniformSize" hi
  unfold getUniformSize
  rw [hr]
  exact ⟨_, rfl⟩

/-- A fragment shader with enough free registers finds the pixel in its first input, and
    attribute `i` of vertex `v` in free register `v * inputs.length + i`. -/
theorem initializeInputRegisters_fs {alu : Alu V} {u : ShaderUnit V} (hfs : u.isFs = true)
    {inputs : List (RegisterIndex × Nat)} (hinputs : u.inputRegisters = .ok inputs) {total : Nat}
    (htotal : u.uniformsTotalComponentCount = .ok total) {free : List RegisterIndex}
    (hfree : (RegisterAllocator.ofIsaMetadata u.isaMetadata).free = free)
    (hlen : 3 * inputs.length ≤ free.length) (hposition : (inputs.getD 0 (0, 0)).1 ∉ free)
    (threadCount : Nat) (stream : Nat → V) :
    ∃ u', u.initializeInputRegisters alu threadCount stream = .ok u' ∧
      u'.isaMetadata = u.isaMetadata ∧ u'.isa = u.isa ∧ u'.pc = u.pc ∧
      ∀ l < threadCount,
        u'.gpr l (inputs.getD 0 (0, 0)).1 = { u.gpr l (inputs.getD 0 (0, 0)).1 with
          x := stream (l * 2 + 0), y := stream (l * 2 + 1) } ∧
        ∀ v < verticesInPrimitive, ∀ i < inputs.length,
          u'.gpr l (free.getD (v * inputs.length + i) 0) =
            copyComponents (inputs.getD i (0, 0)).2
              (fun j => stream (threadCount * 2 + total +
                (v * (inputs.map Prod.snd).sum + ((inputs.take i).map Prod.snd).sum + j)))
              (.replicate alu.zero) := by
  have hlen3 : (inputs ++ inputs ++ inputs).length = 3 * inputs.length := by
    rw [List.length_append, List.length_append]
    omega
  let s : AttributeState V :=
    ⟨storePosition threadCount (inputs.getD 0 (0, 0)).1 stream u.gpr, 0, .ofIsaMetadata u.isaMetadata⟩
  obtain ⟨s', hs', hstored, hframe⟩ := @foldlM_storeVertexAttribute _ alu threadCount
    (fun k => stream (threadCount * 2 + total + k)) (inputs ++ inputs ++ inputs) s (Nat.zero_le _)
    (by rw [hlen3]; exact hfree ▸ hlen) (RegisterAllocator.free_nodup _)
  rw [show s.registerAllocator.free = free from hfree] at hstored hframe
  refine ⟨{ u with gpr := s'.gpr, uniformDwords := fun k =>
    if k < total then stream (threadCount * 2 + k) else alu.zero }, ?_, rfl, rfl, rfl, ?_⟩
  · unfold initializeInputRegisters
    simp only [hinputs, htotal, ok_bind, hfs, if_true]
    rw [storeVertexAttributes_eq, hs']
    rfl
  · intro l hl
    refine ⟨?_, fun v hv i hi => ?_⟩
    · show s'.gpr l _ = _
      rw [hframe l _ fun hmem => hposition (List.mem_of_mem_take hmem)]
      show storePosition threadCount _ stream u.gpr l _ = _
      unfold storePosition
      rw [if_pos hl, Function.update_self]
    · obtain ⟨hget, hsum⟩ := vertexAttribute_at inputs hv hi
      have hk : v * inputs.length + i < 3 * inputs.length := by
        have hv3 : v < 3 := hv
        have hmul : (v + 1) * inputs.length ≤ 3 * inputs.length := Nat.mul_le_mul_right _ hv3
        rw [Nat.add_mul, Nat.one_mul] at hmul
        omega
      show s'.gpr l _ = _
      rw [hstored _ (by rw [hlen3]; exact hk) l hl, hget, hsum]
      simp only [s, Nat.zero_add]

end ShaderUnit

end

end PicoGpu
