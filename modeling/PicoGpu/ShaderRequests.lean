import PicoGpu.InputStream
import PicoGpu.ParsedBinary

/- The requests that the vertex shader block and the fragment shader block send to the
   shader frontend. They take the sizes of their shader from pins, which are set to
   what the getters of the binaries return; the binary's own header is what the
   frontend and the shader units go by. -/
namespace PicoGpu

/-! ## Pins -/

namespace CustomShaderComponents

def getCustomComponents (c : CustomShaderComponents) : Nat → Except FatalError Nat
  | 0 => .ok (nonZeroCountToInt c.comp0)
  | 1 => .ok (nonZeroCountToInt c.comp1)
  | 2 => .ok (nonZeroCountToInt c.comp2)
  | _ => .error "Invalid registerIndex"

def getTotalCustomComponents (c : CustomShaderComponents) : Except FatalError Nat :=
  (List.range c.registersCount.toNat).foldlM
    (fun result registerIndex => return result + (← c.getCustomComponents registerIndex)) 0

/-- The sizes that the pins describe. -/
def sizes (c : CustomShaderComponents) : List Nat :=
  sizesOf c.registersCount.toNat c.comp0 c.comp1 c.comp2

end CustomShaderComponents

/-- The inputs of the block `VertexShader`. -/
structure VertexShaderPins where
  inpShaderAddress : MemoryAddressType
  inpCustomInputComponents : CustomShaderComponents
  inpCustomOutputComponents : CustomShaderComponents
  inpUniforms : CustomShaderComponents
  inpUniformsData : Nat → Nat → Dword

/-- The inputs of the block `FragmentShader`. -/
structure FragmentShaderPins where
  inpShaderAddress : MemoryAddressType
  inpCustomInputComponents : CustomShaderComponents
  inpUniforms : CustomShaderComponents
  inpUniformsData : Nat → Nat → Dword

structure UnshadedFragment where
  x : BitVec 16
  y : BitVec 16
  deriving DecidableEq, Repr

/-- `operator+` of `NonZeroCount`, an enumeration over 32 bits. -/
def nonZeroCountAdd (a b : BitVec 32) : BitVec 32 := a + 1 + (b + 1) - 1

/-- `NonZeroCount::One + intToNonZeroCount(count)` in a bit field. -/
def onePlusCount (count : Nat) : BitVec 2 :=
  (nonZeroCountAdd 0 (intToNonZeroCount 32 count)).setWidth 2

/-! ## Requests -/

/-- The loop that writes the uniforms behind the other data of a request. -/
def writeUniforms (uniformsInfo : CustomShaderComponents) (inpUniformsData : Nat → Nat → Dword)
    (data : List Dword) : Except FatalError (List Dword) :=
  (List.range uniformsInfo.registersCount.toNat).foldlM (fun data uniformIndex => do
    let componentsCount ← uniformsInfo.getCustomComponents uniformIndex
    return data ++ (List.range componentsCount).map (inpUniformsData uniformIndex)) data

namespace VertexShaderPins

/-- The dwords that are received for a triangle. -/
def totalInputComponents (pins : VertexShaderPins) : Except FatalError Nat := do
  return verticesInPrimitive * (← pins.inpCustomInputComponents.getTotalCustomComponents)

/-- The request for a triangle, whose dwords come from `received`, and its data.
    `programType` keeps the zero of the header's initialisation. -/
def request (pins : VertexShaderPins) (clientToken : BitVec 16) (received : Nat → Dword) :
    Except FatalError (ShaderFrontendRequest × List Dword) := do
  let data ← writeUniforms pins.inpUniforms pins.inpUniformsData
    ((List.range (← pins.totalInputComponents)).map received)
  let customOutputRegistersCount := pins.inpCustomOutputComponents.registersCount.toNat
  let header : ShaderFrontendRequest := {
    isaAddress := pins.inpShaderAddress
    clientToken := clientToken + 1
    threadCount := intToNonZeroCount 5 3
    programType := .vertexShader
    inputsCount := intToNonZeroCount 2 pins.inpCustomInputComponents.registersCount.toNat
    inputSize0 := pins.inpCustomInputComponents.comp0
    inputSize1 := pins.inpCustomInputComponents.comp1
    inputSize2 := pins.inpCustomInputComponents.comp2
    outputsCount := onePlusCount customOutputRegistersCount
    outputSize0 := intToNonZeroCount 2 4
    outputSize1 := pins.inpCustomOutputComponents.comp0
    outputSize2 := pins.inpCustomOutputComponents.comp1
    uniformsCount := pins.inpUniforms.registersCount.setWidth 3
    uniformSize0 := pins.inpUniforms.comp0
    uniformSize1 := pins.inpUniforms.comp1
    uniformSize2 := pins.inpUniforms.comp2 }
  return (header, data)

end VertexShaderPins

/-- `FragmentShader::calculateTriangleAttributesCount`. -/
def calculateTriangleAttributesCount (customComponents : CustomShaderComponents) :
    Except FatalError Nat := do
  let fixedComponentsPerVertex := 3
  let customComponentsPerVertex ← customComponents.getTotalCustomComponents
  return (fixedComponentsPerVertex + customComponentsPerVertex) * verticesInPrimitive

namespace FragmentShaderPins

/-- The request for a batch of fragments and its data. `floatBytes` makes the bits of a
    float from an integer; `outputSize2` keeps the zero of the header's initialisation. -/
def request (pins : FragmentShaderPins) (floatBytes : BitVec 16 → Dword) (clientToken : BitVec 16)
    (fragments : List UnshadedFragment) (perTriangleAttribs : Nat → Dword) :
    Except FatalError (ShaderFrontendRequest × List Dword) := do
  let triangleAttributesCount ← calculateTriangleAttributesCount pins.inpCustomInputComponents
  let data ← writeUniforms pins.inpUniforms pins.inpUniformsData
    (fragments.flatMap fun fragment => [floatBytes fragment.x, floatBytes fragment.y])
  let customInputRegistersCount := pins.inpCustomInputComponents.registersCount.toNat
  let header : ShaderFrontendRequest := {
    isaAddress := pins.inpShaderAddress
    clientToken := clientToken + 1
    threadCount := intToNonZeroCount 5 fragments.length
    programType := .fragmentShader
    inputsCount := onePlusCount customInputRegistersCount
    inputSize0 := intToNonZeroCount 2 2
    inputSize1 := pins.inpCustomInputComponents.comp0
    inputSize2 := pins.inpCustomInputComponents.comp1
    outputsCount := intToNonZeroCount 2 2
    outputSize0 := intToNonZeroCount 2 4
    outputSize1 := intToNonZeroCount 2 1
    outputSize2 := 0
    uniformsCount := pins.inpUniforms.registersCount.setWidth 3
    uniformSize0 := pins.inpUniforms.comp0
    uniformSize1 := pins.inpUniforms.comp1
    uniformSize2 := pins.inpUniforms.comp2 }
  return (header, data ++ (List.range triangleAttributesCount).map perTriangleAttribs)

end FragmentShaderPins

/-! ## What the pins and the headers describe -/

theorem CustomShaderComponents.getTotalCustomComponents_eq (c : CustomShaderComponents) :
    c.getTotalCustomComponents = .ok c.sizes.sum := by
  have hcount : c.registersCount.toNat < 4 := c.registersCount.isLt
  unfold getTotalCustomComponents sizes sizesOf
  generalize c.registersCount.toNat = count at hcount ⊢
  obtain rfl | rfl | rfl | rfl : count = 0 ∨ count = 1 ∨ count = 2 ∨ count = 3 := by omega
  · rfl
  · show Except.ok (0 + _) = Except.ok (_ + 0)
    rw [Nat.zero_add, Nat.add_zero]
  · show Except.ok (0 + _ + _) = Except.ok (_ + (_ + 0))
    rw [Nat.zero_add, Nat.add_zero]
  · show Except.ok (0 + _ + _ + _) = Except.ok (_ + (_ + (_ + 0)))
    rw [Nat.zero_add, Nat.add_zero, ← Nat.add_assoc]

theorem calculateTriangleAttributesCount_eq (customComponents : CustomShaderComponents) :
    calculateTriangleAttributesCount customComponents =
      .ok ((3 + customComponents.sizes.sum) * verticesInPrimitive) := by
  unfold calculateTriangleAttributesCount
  rw [CustomShaderComponents.getTotalCustomComponents_eq]
  rfl

theorem onePlusCount_eq {count : Nat} (h : count ≤ 3) :
    onePlusCount count = intToNonZeroCount 2 (count + 1) := by
  obtain rfl | rfl | rfl | rfl : count = 0 ∨ count = 1 ∨ count = 2 ∨ count = 3 := by omega
  all_goals decide

/-- The uniforms behind the other data, those of one register behind those of another. -/
def uniformValues : List Nat → (Nat → Nat → Dword) → List Dword
  | [], _ => []
  | componentsCount :: sizes, inpUniformsData =>
    (List.range componentsCount).map (inpUniformsData 0) ++
      uniformValues sizes fun uniformIndex => inpUniformsData (uniformIndex + 1)

theorem writeUniforms_eq (uniformsInfo : CustomShaderComponents)
    (inpUniformsData : Nat → Nat → Dword) (data : List Dword) :
    writeUniforms uniformsInfo inpUniformsData data =
      .ok (data ++ uniformValues uniformsInfo.sizes inpUniformsData) := by
  have hcount : uniformsInfo.registersCount.toNat < 4 := uniformsInfo.registersCount.isLt
  unfold writeUniforms uniformValues CustomShaderComponents.sizes sizesOf
  generalize uniformsInfo.registersCount.toNat = count at hcount ⊢
  obtain rfl | rfl | rfl | rfl : count = 0 ∨ count = 1 ∨ count = 2 ∨ count = 3 := by omega
  · exact congrArg Except.ok (List.append_nil data).symm
  · show Except.ok (data ++ _) = Except.ok (data ++ (_ ++ []))
    rw [List.append_nil]
  · show Except.ok (data ++ _ ++ _) = Except.ok (data ++ (_ ++ (_ ++ [])))
    rw [List.append_nil, List.append_assoc]
  · show Except.ok (data ++ _ ++ _ ++ _) = Except.ok (data ++ (_ ++ (_ ++ (_ ++ []))))
    rw [List.append_nil, List.append_assoc, List.append_assoc]

/-! ## Tables -/

namespace InputOutputRegisters

/-- The registers in use, with their components. -/
def registers (io : InputOutputRegisters) : List (RegisterIndex × Nat) :=
  (([0, 1, 2] : List (Fin 3)).take io.usedRegsCount).map fun i =>
    ((io.regs i).index, (io.regs i).componentsCount)

def sizes (io : InputOutputRegisters) : List Nat := io.registers.map Prod.snd

theorem registers_length {io : InputOutputRegisters} (h : io.WellFormed) :
    io.registers.length = io.usedRegsCount := by
  rw [registers, List.length_map, List.length_take]
  exact Nat.min_eq_left h.count

theorem registers_at {io : InputOutputRegisters} (i : Fin 3)
    (hi : i.val < io.registers.length) :
    io.registers[i.val] = ((io.regs i).index, (io.regs i).componentsCount) := by
  simp only [registers, List.getElem_map, List.getElem_take]
  match i with
  | 0 | 1 | 2 => rfl

theorem registers_nodup {io : InputOutputRegisters} (h : io.WellFormed) :
    (io.registers.map Prod.fst).Nodup := by
  rw [registers, List.map_map]
  have hnd : (([0, 1, 2] : List (Fin 3)).take io.usedRegsCount).Nodup :=
    List.Nodup.sublist (List.take_sublist _ _) (by decide)
  have hlt : ∀ i ∈ ([0, 1, 2] : List (Fin 3)).take io.usedRegsCount,
      i.val < io.usedRegsCount := by
    have hcount := h.count
    generalize io.usedRegsCount = count at hcount ⊢
    obtain rfl | rfl | rfl | rfl : count = 0 ∨ count = 1 ∨ count = 2 ∨ count = 3 := by omega
    all_goals decide
  refine hnd.map_on fun i hi j hj hij => ?_
  exact h.distinct i j (hlt i hi) (hlt j hj) hij

/-- The sizes in the header or in the pins are the ones of the table. -/
theorem size_roundtrip {io : InputOutputRegisters} (h : io.WellFormed) {i : Fin 3}
    (hi : i.val < io.usedRegsCount) :
    nonZeroCountToInt (intToNonZeroCount 2 (io.regs i).componentsCount) =
      (io.regs i).componentsCount :=
  nonZeroCount_roundtrip (h.used i hi).1 (h.used i hi).2

theorem toFields_registers {io : InputOutputRegisters} (h : io.WellFormed) :
    (PicoGpuBinary.InputOutputRegisters.toFields io).registers io.usedRegsCount = io.registers := by
  have hsize : ∀ i : Fin 3, i.val < io.usedRegsCount →
      nonZeroCountToInt (intToNonZeroCount 2 (io.regs i).componentsCount) =
        (io.regs i).componentsCount := fun i hi => size_roundtrip h hi
  have hcount := h.count
  unfold IoFields.registers registers PicoGpuBinary.InputOutputRegisters.toFields
  generalize io.usedRegsCount = count at hcount hsize ⊢
  obtain rfl | rfl | rfl | rfl : count = 0 ∨ count = 1 ∨ count = 2 ∨ count = 3 := by omega
  · rfl
  · simp only [List.take_succ_cons, List.take_zero, List.map_cons, List.map_nil,
      hsize 0 (by decide)]
  · simp only [List.take_succ_cons, List.take_zero, List.map_cons, List.map_nil,
      hsize 0 (by decide), hsize 1 (by decide)]
  · simp only [List.take_succ_cons, List.take_zero, List.map_cons, List.map_nil,
      hsize 0 (by decide), hsize 1 (by decide), hsize 2 (by decide)]

theorem sizesOf_toFields {io : InputOutputRegisters} (h : io.WellFormed) :
    sizesOf io.usedRegsCount (intToNonZeroCount 2 (io.regs 0).componentsCount)
      (intToNonZeroCount 2 (io.regs 1).componentsCount)
      (intToNonZeroCount 2 (io.regs 2).componentsCount) = io.sizes := by
  rw [sizes, ← toFields_registers h, IoFields.registers_sizes]
  rfl

/-- Behind a first register that is fixed come the custom ones. -/
theorem customComponents_eq {io : InputOutputRegisters} (h : io.WellFormed) (hfixed : io.FixedFirst) :
    PicoGpuBinary.customComponents io = io.sizes.tail := by
  have hunused := h.unused
  have hcustom := hfixed.custom
  have hcount := h.count
  have hpos := hfixed.count
  have h0 := hfixed.usage
  unfold PicoGpuBinary.customComponents sizes registers
  generalize io.usedRegsCount = count at hunused hcustom hcount hpos ⊢
  obtain rfl | rfl | rfl : count = 1 ∨ count = 2 ∨ count = 3 := by omega
  · have h1 := (hunused 1 (by decide)).2
    have h2 := (hunused 2 (by decide)).2
    simp [h0, h1, h2]
  · have h1 := hcustom 1 (by decide) (by decide)
    have h2 := (hunused 2 (by decide)).2
    simp [h0, h1, h2]
  · have h1 := hcustom 1 (by decide) (by decide)
    have h2 := hcustom 2 (by decide) (by decide)
    simp [h0, h1, h2]

theorem sizes_cons {io : InputOutputRegisters} (hfixed : io.FixedFirst) :
    io.sizes = 4 :: io.sizes.tail := by
  have hpos := hfixed.count
  have h0 := hfixed.components
  unfold sizes registers
  obtain ⟨count, hcount⟩ := Nat.exists_eq_add_of_le' hpos
  rw [hcount]
  simp only [List.take_succ_cons, List.map_cons, List.tail_cons, h0]

end InputOutputRegisters

end PicoGpu
