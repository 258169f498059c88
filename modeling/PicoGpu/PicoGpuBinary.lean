import PicoGpu.RegisterAllocator
import Mathlib.Logic.Function.Basic

/- The shader binary that the assembler fills (pico_gpu_binary.h, .cpp).

   `data` is the header followed by the program. Only `getStoreIsaCommand` reaches
   into the header, so it is kept as its fields, and `code` is what follows it.
   The error stream is the text that was written to it. A call that aborts the
   simulation, or takes the value of an empty optional, is an `error`. -/
namespace PicoGpu

/-! ## The binary -/

inductive IoType where
  | input | output | uniform
  deriving DecidableEq, Repr

inductive InputOutputRegisterUsage where
  | unknown | fixed | custom | internal
  deriving DecidableEq, Repr

structure InputOutputRegister where
  index : RegisterIndex
  usage : InputOutputRegisterUsage
  mask : BitVec 4
  componentsCount : Nat
  deriving DecidableEq, Repr

structure InputOutputRegisters where
  regs : Fin 3 → InputOutputRegister
  usedRegsMask : BitVec 16
  usedRegsCount : Nat

def InputOutputRegisters.zero : InputOutputRegisters := ⟨fun _ => ⟨0, .unknown, 0, 0⟩, 0, 0⟩

structure PicoGpuBinary where
  error : String
  programType : Option ProgramType
  undefinedRegs : Bool
  header : CommandStoreIsa
  code : List Dword
  inputs : InputOutputRegisters
  outputs : InputOutputRegisters
  uniforms : InputOutputRegisters

/-- custom_components.h. -/
structure CustomShaderComponents where
  registersCount : BitVec 2
  comp0 : BitVec 2
  comp1 : BitVec 2
  comp2 : BitVec 2
  deriving DecidableEq, Repr

namespace PicoGpuBinary

/-- The constructor. -/
def new : PicoGpuBinary where
  error := ""
  programType := none
  undefinedRegs := false
  header := .zero
  code := []
  inputs := .zero
  outputs := .zero
  uniforms := .zero

def getData (b : PicoGpuBinary) : List Dword := b.header.raw ++ b.code

def hasError (b : PicoGpuBinary) : Bool := !b.error.isEmpty

/-- `error.clear()` clears the state bits of the stream and leaves its text, and
    `std::fill` keeps the size of `data`. -/
def reset (b : PicoGpuBinary) : PicoGpuBinary where
  error := b.error
  programType := none
  undefinedRegs := false
  header := .zero
  code := List.replicate b.code.length 0
  inputs := .zero
  outputs := .zero
  uniforms := .zero

/-- `error << text`. -/
def addError (b : PicoGpuBinary) (text : String) : PicoGpuBinary :=
  { b with error := b.error ++ text }

def getIoRegisters (b : PicoGpuBinary) : IoType → InputOutputRegisters
  | .input => b.inputs
  | .output => b.outputs
  | .uniform => b.uniforms

def setIoRegisters (b : PicoGpuBinary) (io : InputOutputRegisters) : IoType → PicoGpuBinary
  | .input => { b with inputs := io }
  | .output => { b with outputs := io }
  | .uniform => { b with uniforms := io }

def getIoLabel : IoType → String
  | .input => "input"
  | .output => "output"
  | .uniform => "uniform"

def isVs (b : PicoGpuBinary) : Bool := b.programType = some .vertexShader

def isFs (b : PicoGpuBinary) : Bool := b.programType = some .fragmentShader

def getShaderTypeName (b : PicoGpuBinary) : String :=
  match b.programType with
  | none => "UnknownShader"
  | some .vertexShader => "VertexShader"
  | some .fragmentShader => "FragmentShader"

/-! ## Encoding instructions -/

/-- `getSpace`'s check and the dwords written into the space. -/
def append (b : PicoGpuBinary) (dwords : List Dword) : Except FatalError PicoGpuBinary :=
  if b.getData.length + dwords.length - Isa.commandSizeInDwords ≥ Isa.maxIsaSize then
    .error "Too long program"
  else .ok { b with code := b.code ++ dwords }

def encodeNullary (opcode : Opcode) (b : PicoGpuBinary) : Except FatalError PicoGpuBinary :=
  b.append (Instruction.mk opcode .nullary).dwords

def encodeUnaryMath (opcode : Opcode) (dest src : RegisterIndex) (destMask : BitVec 4)
    (b : PicoGpuBinary) : Except FatalError PicoGpuBinary :=
  b.append (Instruction.mk opcode (.unaryMath dest src destMask)).dwords

def encodeBinaryMath (opcode : Opcode) (dest src1 src2 : RegisterIndex) (destMask : BitVec 4)
    (b : PicoGpuBinary) : Except FatalError PicoGpuBinary :=
  b.append (Instruction.mk opcode (.binaryMath dest src1 src2 destMask)).dwords

def encodeTernaryMath (opcode : Opcode) (dest src1 src2 src3 : RegisterIndex)
    (destMask : BitVec 4) (b : PicoGpuBinary) : Except FatalError PicoGpuBinary :=
  b.append (Instruction.mk opcode (.ternaryMath dest src1 src2 src3 destMask)).dwords

def encodeUnaryMathImm (opcode : Opcode) (dest : RegisterIndex) (destMask : BitVec 4)
    (immediateValues : List Dword) (b : PicoGpuBinary) : Except FatalError PicoGpuBinary :=
  if immediateValues.isEmpty then .error "UnaryMathImm must have at least one immediate value"
  else if immediateValues.length > 4 then
    .error "UnaryMathImm can have at most 4 immediate values"
  else b.append (Instruction.mk opcode (.unaryMathImm dest destMask immediateValues)).dwords

def encodeBinaryMathImm (opcode : Opcode) (dest src : RegisterIndex) (destMask : BitVec 4)
    (immediateValues : List Dword) (b : PicoGpuBinary) : Except FatalError PicoGpuBinary :=
  if immediateValues.isEmpty then .error "BinaryMathImm must have at least one immediate value"
  else if immediateValues.length > 4 then
    .error "BinaryMathImm can have at most 4 immediate values"
  else b.append (Instruction.mk opcode (.binaryMathImm dest src destMask immediateValues)).dwords

def encodeSwizzle (opcode : Opcode) (dest src : RegisterIndex) (x y z w : SwizzlePatternComponent)
    (b : PicoGpuBinary) : Except FatalError PicoGpuBinary :=
  b.append (Instruction.mk opcode (.swizzle dest src x y z w)).dwords

/-- The encode function of an instruction's layout. -/
def encode (i : Instruction) : PicoGpuBinary → Except FatalError PicoGpuBinary :=
  match i.operands with
  | .nullary => encodeNullary i.opcode
  | .unaryMath dest src destMask => encodeUnaryMath i.opcode dest src destMask
  | .binaryMath dest src1 src2 destMask => encodeBinaryMath i.opcode dest src1 src2 destMask
  | .ternaryMath dest src1 src2 src3 destMask =>
    encodeTernaryMath i.opcode dest src1 src2 src3 destMask
  | .unaryMathImm dest destMask imms => encodeUnaryMathImm i.opcode dest destMask imms
  | .binaryMathImm dest src destMask imms => encodeBinaryMathImm i.opcode dest src destMask imms
  | .swizzle dest src x y z w => encodeSwizzle i.opcode dest src x y z w

def encodeAll (instructions : List Instruction) (b : PicoGpuBinary) :
    Except FatalError PicoGpuBinary :=
  instructions.foldlM (fun b i => encode i b) b

/-- `finalizeInstructions`: a fragment shader exports its interpolated `z` as the
    first component of its first input. -/
def finalizeInstructions (b : PicoGpuBinary) : Except FatalError PicoGpuBinary := do
  let b ← (match b.programType with
    | none => .error "bad_optional_access"
    | some .vertexShader => .ok b
    | some .fragmentShader =>
      encodeSwizzle .swizzle (b.inputs.regs 0).index (b.inputs.regs 0).index
        .swizzleZ .swizzleZ .swizzleZ .swizzleZ b)
  return { b with
    header :=
      { b.header with
        programLength := BitVec.ofNat 9 (b.getData.length - Isa.commandSizeInDwords) } }

/-! ## Directives -/

def encodeDirectiveInputOutput (reg : RegisterIndex) (mask : Dword) (ioType : IoType)
    (b : PicoGpuBinary) : Except FatalError PicoGpuBinary :=
  let io := b.getIoRegisters ioType
  if mask = 0 then .error "Mask must be non zero"
  else if mask &&& ~~~0b1111 ≠ 0 then .error "Mask must be a 4-bit value"
  else if mask ≠ 0b1000 ∧ mask ≠ 0b1100 ∧ mask ≠ 0b1110 ∧ mask ≠ 0b1111 then
    .ok (b.addError ("Components for " ++ getIoLabel ioType ++
      " directive must be used in order: x,y,z,w"))
  else if isBitSet io.usedRegsMask reg then
    .ok (b.addError ("Multiple " ++ getIoLabel ioType ++ " directives for r" ++ toString reg.val))
  else
    -- the two checks against the other kind look at the mask that was just checked
    let b := if ioType = .input ∧ isBitSet io.usedRegsMask reg then
        b.addError ("Register r" ++ toString reg.val ++ " is already used as a uniform") else b
    let b := if ioType = .uniform ∧ isBitSet io.usedRegsMask reg then
        b.addError ("Register r" ++ toString reg.val ++ " is already used as an input") else b
    if io.usedRegsCount = Isa.maxInputOutputRegisters then
      .ok (b.addError ("Too many " ++ getIoLabel ioType ++ " directives. Max is " ++
        toString Isa.maxInputOutputRegisters))
    else
      .ok (b.setIoRegisters
        { regs := Function.update io.regs (Fin.ofNat 3 io.usedRegsCount)
            ⟨reg, .custom, mask.setWidth 4, countBits mask⟩
          usedRegsMask := setBit io.usedRegsMask reg
          usedRegsCount := io.usedRegsCount + 1 } ioType)

def encodeDirectiveShaderType (programType : ProgramType) (b : PicoGpuBinary) : PicoGpuBinary :=
  if b.programType.isSome then b.addError "Multiple program type specifications"
  else { b with programType := some programType }

def encodeDirectiveUndefinedRegs (b : PicoGpuBinary) : PicoGpuBinary :=
  if b.undefinedRegs then b.addError "Multiple undefined regs directives"
  else { b with undefinedRegs := true }

/-- The sizes and registers of one kind, as the header stores them. -/
def InputOutputRegisters.toFields (io : InputOutputRegisters) : IoFields where
  size0 := intToNonZeroCount 2 (io.regs 0).componentsCount
  register0 := (io.regs 0).index
  size1 := intToNonZeroCount 2 (io.regs 1).componentsCount
  register1 := (io.regs 1).index
  size2 := intToNonZeroCount 2 (io.regs 2).componentsCount
  register2 := (io.regs 2).index

/-- The switch at the end of `finalizeInputOutputDirectives`. -/
def storeInputOutput (b : PicoGpuBinary) (ioType : IoType) : PicoGpuBinary :=
  let io := b.getIoRegisters ioType
  { b with
    header := match ioType with
      | .input =>
        { b.header with
          inputsCount := intToNonZeroCount 2 io.usedRegsCount
          inputs := InputOutputRegisters.toFields io }
      | .output =>
        { b.header with
          outputsCount := intToNonZeroCount 2 io.usedRegsCount
          outputs := InputOutputRegisters.toFields io }
      | .uniform =>
        { b.header with
          uniformsCount := BitVec.ofNat 3 io.usedRegsCount
          uniforms := InputOutputRegisters.toFields io } }

/-- `io.regs[index].usage = usage`. -/
def setUsage (b : PicoGpuBinary) (ioType : IoType) (index : Fin 3)
    (usage : InputOutputRegisterUsage) : PicoGpuBinary :=
  let io := b.getIoRegisters ioType
  b.setIoRegisters
    { io with regs := Function.update io.regs index { io.regs index with usage := usage } } ioType

def finalizeInputOutputDirectives (ioType : IoType) (b : PicoGpuBinary) :
    Except FatalError PicoGpuBinary :=
  let io := b.getIoRegisters ioType
  if ioType = .input ∧ b.isVs ∧ io.usedRegsCount = 0 then
    .ok (b.addError (b.getShaderTypeName ++ " must use at least one input register"))
  else if (ioType = .output ∧ b.isVs) ∨ (ioType = .input ∧ b.isFs) then
    if io.usedRegsCount = 0 then
      .ok (b.addError (b.getShaderTypeName ++ " must use exactly one " ++ getIoLabel ioType ++
        " register"))
    else if (io.regs 0).componentsCount ≠ 4 then
      .ok (b.addError (b.getShaderTypeName ++
        " must use a 4-component position vector as its first " ++ getIoLabel ioType))
    else if (io.regs 0).usage ≠ .custom then .error "Unexpected usage of fixed io register"
    else .ok ((b.setUsage ioType 0 .fixed).storeInputOutput ioType)
  else if ioType = .output ∧ b.isFs then
    if io.usedRegsCount ≠ 1 then
      .ok (b.addError (b.getShaderTypeName ++ " must use exactly one output register"))
    else if (io.regs 0).componentsCount ≠ 4 then
      .ok (b.addError (b.getShaderTypeName ++ " must use a 4-component color vector as its only " ++
        getIoLabel ioType))
    else if (io.regs 0).usage ≠ .custom then .error "Unexpected usage of fixed io register"
    else do
      let b ← encodeDirectiveInputOutput (b.inputs.regs 0).index 0b1000 .output
        (b.setUsage ioType 0 .fixed)
      return (b.setUsage ioType 1 .internal).storeInputOutput ioType
  else .ok (b.storeInputOutput ioType)

/-- `Conversions::floatBytesToInt(1.0f)`. -/
def floatOne : Dword := 0x3f800000

/-- The registers of the interpolation preamble: `attrib v i` holds attribute `i`
    of vertex `v`. -/
structure InterpolationRegisters where
  attrib : Nat → Nat → RegisterIndex
  edgeAB : RegisterIndex
  edgeAC : RegisterIndex
  edgeAP : RegisterIndex
  areaABP : RegisterIndex
  areaACP : RegisterIndex
  areaABC : RegisterIndex

/-- The calls of `allocate` of the preamble, in their order. An edge takes the
    place of an input that is not interpolated yet, where there is one. -/
def interpolationRegisters (inputs : InputOutputRegisters) :
    Except FatalError InterpolationRegisters := do
  let count := inputs.usedRegsCount
  let (attribs, a) ← RegisterAllocator.allocateMany (3 * count) (.ofMask inputs.usedRegsMask)
  let (edgeAB, a) ← (if count > 1 then .ok ((inputs.regs 1).index, a) else a.allocate)
  let (edgeAC, a) ← (if count > 2 then .ok ((inputs.regs 2).index, a) else a.allocate)
  -- there is no fourth input
  let (edgeAP, a) ← a.allocate
  let (areaABP, a) ← a.allocate
  let (areaACP, a) ← a.allocate
  let (areaABC, _) ← a.allocate
  return {
    attrib := fun v i => if i < count then attribs.getD (v * count + i) 0 else 0
    edgeAB, edgeAC, edgeAP, areaABP, areaACP, areaABC }

/-- Instructions that put the weights, divided by the vertices' `z`, into all
    components of the area registers and the interpolated `z` into the first input. -/
def depthInstructions (regPositionP : RegisterIndex) (r : InterpolationRegisters) :
    List Instruction :=
  let regPositionA := r.attrib 0 0
  let regPositionB := r.attrib 1 0
  let regPositionC := r.attrib 2 0
  let regWeightC := r.areaABP
  let regWeightB := r.areaACP
  let regWeightA := r.areaABC
  let regZ := regPositionA
  [ ⟨.fsub, .binaryMath r.edgeAB regPositionB regPositionA 0b1100⟩,
    ⟨.fsub, .binaryMath r.edgeAC regPositionC regPositionA 0b1100⟩,
    ⟨.fsub, .binaryMath r.edgeAP regPositionP regPositionA 0b1100⟩,
    ⟨.fcross2, .binaryMath r.areaABP r.edgeAB r.edgeAP 0b1111⟩,
    ⟨.fcross2, .binaryMath r.areaACP r.edgeAP r.edgeAC 0b1111⟩,
    ⟨.fcross2, .binaryMath r.areaABC r.edgeAB r.edgeAC 0b1111⟩,
    ⟨.fdiv, .binaryMath regWeightC r.areaABP r.areaABC 0b1111⟩,
    ⟨.fdiv, .binaryMath regWeightB r.areaACP r.areaABC 0b1111⟩,
    ⟨.init, .unaryMathImm regWeightA 0b1111 [floatOne, floatOne, floatOne, floatOne]⟩,
    ⟨.fsub, .binaryMath regWeightA regWeightA regWeightB 0b1111⟩,
    ⟨.fsub, .binaryMath regWeightA regWeightA regWeightC 0b1111⟩,
    ⟨.fdiv, .binaryMath regWeightA regWeightA regPositionA 0b0010⟩,
    ⟨.fdiv, .binaryMath regWeightB regWeightB regPositionB 0b0010⟩,
    ⟨.fdiv, .binaryMath regWeightC regWeightC regPositionC 0b0010⟩,
    ⟨.swizzle, .swizzle regWeightA regWeightA .swizzleZ .swizzleZ .swizzleZ .swizzleZ⟩,
    ⟨.swizzle, .swizzle regWeightB regWeightB .swizzleZ .swizzleZ .swizzleZ .swizzleZ⟩,
    ⟨.swizzle, .swizzle regWeightC regWeightC .swizzleZ .swizzleZ .swizzleZ .swizzleZ⟩,
    ⟨.fadd, .binaryMath regPositionP regPositionP regWeightA 0b0010⟩,
    ⟨.fadd, .binaryMath regPositionP regPositionP regWeightB 0b0010⟩,
    ⟨.fadd, .binaryMath regPositionP regPositionP regWeightC 0b0010⟩,
    ⟨.frcp, .unaryMath regPositionP regPositionP 0b0010⟩,
    ⟨.swizzle, .swizzle regZ regPositionP .swizzleZ .swizzleZ .swizzleZ .swizzleZ⟩ ]

/-- Instructions that interpolate attribute `i`. -/
def attributeInstructions (input : InputOutputRegister) (r : InterpolationRegisters) (i : Nat) :
    List Instruction :=
  let regDst := input.index
  [ ⟨.init, .unaryMathImm regDst 0b1111 [0]⟩,
    ⟨.fmad, .ternaryMath regDst r.areaABC (r.attrib 0 i) regDst input.mask⟩,
    ⟨.fmad, .ternaryMath regDst r.areaACP (r.attrib 1 i) regDst input.mask⟩,
    ⟨.fmad, .ternaryMath regDst r.areaABP (r.attrib 2 i) regDst input.mask⟩,
    ⟨.fmul, .binaryMath regDst regDst (r.attrib 0 0) 0b1111⟩ ]

/-- The instructions that `encodeAttributeInterpolationForFragmentShader` emits,
    with `perspectiveAware` being the constant `true`. -/
def interpolationInstructions (inputs : InputOutputRegisters) :
    Except FatalError (List Instruction) := do
  let r ← interpolationRegisters inputs
  let interpolate := fun i : Fin 3 =>
    if (inputs.regs i).usage = .custom then attributeInstructions (inputs.regs i) r i else []
  return depthInstructions (inputs.regs 0).index r ++ interpolate 1 ++ interpolate 2

def encodeAttributeInterpolationForFragmentShader (b : PicoGpuBinary) :
    Except FatalError PicoGpuBinary := do
  b.encodeAll (← interpolationInstructions b.inputs)

/-- `getStoreIsaCommand().programType = programType`. -/
def storeProgramType (b : PicoGpuBinary) (programType : ProgramType) : PicoGpuBinary :=
  { b with header := { b.header with programType := programType } }

def finalizeDirectives (b : PicoGpuBinary) : Except FatalError PicoGpuBinary :=
  match b.programType with
  | none => .ok (b.addError "No program type specification")
  | some programType => do
    let b ← finalizeInputOutputDirectives .input (b.storeProgramType programType)
    let b ← finalizeInputOutputDirectives .output b
    let b ← finalizeInputOutputDirectives .uniform b
    let b ← (if b.programType = some .fragmentShader then
      encodeAttributeInterpolationForFragmentShader b else .ok b)
    let b ← encodeNullary .lduni b
    if b.undefinedRegs then .ok b else encodeNullary .initregs b

/-- The binaries between the steps of `finalizeDirectives`. -/
theorem finalizeDirectives_steps {b b' : PicoGpuBinary} {programType : ProgramType}
    (htype : b.programType = some programType) (h : b.finalizeDirectives = .ok b') :
    ∃ b1 b2 b3 b4 b5,
      finalizeInputOutputDirectives .input (b.storeProgramType programType) = .ok b1 ∧
      finalizeInputOutputDirectives .output b1 = .ok b2 ∧
      finalizeInputOutputDirectives .uniform b2 = .ok b3 ∧
      (if b3.programType = some .fragmentShader then
        encodeAttributeInterpolationForFragmentShader b3 else .ok b3) = .ok b4 ∧
      encodeNullary .lduni b4 = .ok b5 ∧
      (if b5.undefinedRegs then .ok b5 else encodeNullary .initregs b5) = .ok b' := by
  unfold finalizeDirectives at h
  rw [htype] at h
  obtain ⟨b1, h1, h⟩ := bind_ok.mp h
  obtain ⟨b2, h2, h⟩ := bind_ok.mp h
  obtain ⟨b3, h3, h⟩ := bind_ok.mp h
  obtain ⟨b4, h4, h⟩ := bind_ok.mp h
  obtain ⟨b5, h5, h⟩ := bind_ok.mp h
  exact ⟨b1, b2, b3, b4, b5, h1, h2, h3, h4, h5, h⟩

theorem finalizeDirectives_untyped {b : PicoGpuBinary} (htype : b.programType = none) :
    b.finalizeDirectives = .ok (b.addError "No program type specification") := by
  unfold finalizeDirectives
  rw [htype]

/-! ## Component getters -/

def getVsCustomInputComponents (b : PicoGpuBinary) : Except FatalError CustomShaderComponents :=
  match b.programType with
  | none => .error "bad_optional_access"
  | some .fragmentShader => .error "Invalid shader type"
  | some .vertexShader => .ok
    { registersCount := BitVec.ofNat 2 b.inputs.usedRegsCount
      comp0 := intToNonZeroCount 2 (b.inputs.regs 0).componentsCount
      comp1 := intToNonZeroCount 2 (b.inputs.regs 1).componentsCount
      comp2 := intToNonZeroCount 2 (b.inputs.regs 2).componentsCount }

/-- The component counts of the custom registers, in their order. -/
def customComponents (io : InputOutputRegisters) : List Nat :=
  ([0, 1, 2].filter fun i => (io.regs i).usage = .custom).map fun i => (io.regs i).componentsCount

def getVsPsCustomComponents (b : PicoGpuBinary) : Except FatalError CustomShaderComponents :=
  match b.programType with
  | none => .error "bad_optional_access"
  | some programType =>
    let io := match programType with
      | .vertexShader => b.outputs
      | .fragmentShader => b.inputs
    let components := customComponents io
    if components.length > Isa.maxInputOutputRegisters - 1 then
      .error "Too many VsPs custom components (one component is reserved for Fixed position input"
    else .ok
      { registersCount := BitVec.ofNat 2 components.length
        comp0 := intToNonZeroCount 2 (components.getD 0 0)
        comp1 := intToNonZeroCount 2 (components.getD 1 0)
        comp2 := intToNonZeroCount 2 (components.getD 2 0) }

def getUniforms (b : PicoGpuBinary) : CustomShaderComponents where
  registersCount := BitVec.ofNat 2 b.uniforms.usedRegsCount
  comp0 := intToNonZeroCount 2 (b.uniforms.regs 0).componentsCount
  comp1 := intToNonZeroCount 2 (b.uniforms.regs 1).componentsCount
  comp2 := intToNonZeroCount 2 (b.uniforms.regs 2).componentsCount

end PicoGpuBinary

end PicoGpu
