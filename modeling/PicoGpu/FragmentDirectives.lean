import PicoGpu.Assembly
import PicoGpu.RegisterAllocator
import PicoGpu.ShaderUnit
import Mathlib.Data.List.Induction

/- What `finalizeDirectives` makes of the directives of a fragment shader. The
   directives collect the input registers in their order; the header then describes
   them to the shader units, and the preamble that interpolates them is encoded as
   the first instructions of the code. -/
namespace PicoGpu

/-! ## Masks -/

/-- The masks that the directives accept. -/
def prefixMasks : List Dword := [0b1000, 0b1100, 0b1110, 0b1111]

theorem prefixMask_accepted {mask : Dword} (h : mask ∈ prefixMasks) :
    mask ≠ 0 ∧ mask &&& ~~~0b1111 = 0 ∧
      ¬ (mask ≠ 0b1000 ∧ mask ≠ 0b1100 ∧ mask ≠ 0b1110 ∧ mask ≠ 0b1111) := by
  simp only [prefixMasks, List.mem_cons, List.not_mem_nil, or_false] at h
  rcases h with rfl | rfl | rfl | rfl <;> decide

theorem prefixMask_count {mask : Dword} (h : mask ∈ prefixMasks) :
    1 ≤ countBits mask ∧ countBits mask ≤ 4 := by
  simp only [prefixMasks, List.mem_cons, List.not_mem_nil, or_false] at h
  rcases h with rfl | rfl | rfl | rfl <;> decide

/-- A mask selects as many components as it has bits, from `x` on. -/
theorem prefixMask_selects {mask : Dword} (h : mask ∈ prefixMasks) (j : Fin 4) :
    selects (mask.setWidth 4) j = decide (j.val < countBits mask) := by
  revert j
  simp only [prefixMasks, List.mem_cons, List.not_mem_nil, or_false] at h
  rcases h with rfl | rfl | rfl | rfl <;> decide

/-! ## Collecting inputs -/

/-- The registers with one more. -/
def InputOutputRegisters.add (io : InputOutputRegisters) (register : RegisterIndex × Dword) :
    InputOutputRegisters where
  regs := Function.update io.regs (Fin.ofNat 3 io.usedRegsCount)
    ⟨register.1, .custom, register.2.setWidth 4, countBits register.2⟩
  usedRegsMask := setBit io.usedRegsMask register.1
  usedRegsCount := io.usedRegsCount + 1

namespace PicoGpuBinary

/-- A directive for a register reports an error or adds the register. -/
theorem encodeDirectiveInputOutput_cases {reg : RegisterIndex} {mask : Dword} {ioType : IoType}
    {b b' : PicoGpuBinary} (h : b.encodeDirectiveInputOutput reg mask ioType = .ok b') :
    (∃ text, b' = b.addError text) ∨
      b' = b.setIoRegisters ((b.getIoRegisters ioType).add (reg, mask)) ioType := by
  rcases encodeDirectiveInputOutput_inv h with ⟨text, -, rfl⟩ | ⟨-, -, -, rfl⟩
  · exact .inl ⟨text, rfl⟩
  · exact .inr rfl

theorem encodeDirectiveInputOutput_total (reg : RegisterIndex) {mask : Dword}
    (hmask : mask ∈ prefixMasks) (ioType : IoType) (b : PicoGpuBinary) :
    ∃ b', b.encodeDirectiveInputOutput reg mask ioType = .ok b' := by
  obtain ⟨hzero, hbits, -⟩ := prefixMask_accepted hmask
  unfold encodeDirectiveInputOutput
  simp only [hzero, hbits, if_false, ne_eq, not_true_eq_false]
  repeat' split
  all_goals exact ⟨_, rfl⟩

theorem encodeDirectiveInputOutput_add {reg : RegisterIndex} {mask : Dword} {ioType : IoType}
    {b : PicoGpuBinary} (hmask : mask ∈ prefixMasks)
    (hfree : isBitSet (b.getIoRegisters ioType).usedRegsMask reg = false)
    (hcount : (b.getIoRegisters ioType).usedRegsCount < 3) :
    b.encodeDirectiveInputOutput reg mask ioType =
      .ok (b.setIoRegisters ((b.getIoRegisters ioType).add (reg, mask)) ioType) := by
  obtain ⟨hzero, hbits, hordered⟩ := prefixMask_accepted hmask
  have hmax : (b.getIoRegisters ioType).usedRegsCount ≠ Isa.maxInputOutputRegisters := by
    unfold Isa.maxInputOutputRegisters
    omega
  unfold encodeDirectiveInputOutput
  simp only [hzero, hbits, hordered, hfree, hmax, if_false, ne_eq, not_true_eq_false, and_false,
    Bool.false_eq_true]
  rfl

end PicoGpuBinary

namespace AssemblerCall

/-- The calls that the directives of an assembly make. -/
def IsDirective : AssemblerCall → Prop
  | encodeDirectiveInputOutput _ _ _ => True
  | encodeDirectiveShaderType _ => True
  | encodeDirectiveUndefinedRegs => True
  | _ => False

def inputDirective : AssemblerCall → Option (RegisterIndex × Dword)
  | encodeDirectiveInputOutput reg mask .input => some (reg, mask)
  | _ => none

end AssemblerCall

/-- At most three distinct registers, with masks that are accepted. -/
structure Collectable (inputs : List (RegisterIndex × Dword)) : Prop where
  count : inputs.length ≤ 3
  nodup : (inputs.map Prod.fst).Nodup
  masks : ∀ input ∈ inputs, input.2 ∈ prefixMasks

theorem Collectable.append_left {inputs more : List (RegisterIndex × Dword)}
    (h : Collectable (inputs ++ more)) : Collectable inputs := by
  obtain ⟨hcount, hnd, hmasks⟩ := h
  rw [List.length_append] at hcount
  rw [List.map_append] at hnd
  exact ⟨by omega, (List.nodup_append.mp hnd).1, fun i hi => hmasks i (List.mem_append_left _ hi)⟩

/-- The registers that the inputs are collected in. -/
def collected (inputs : List (RegisterIndex × Dword)) : InputOutputRegisters :=
  inputs.foldl InputOutputRegisters.add .zero

def collectedRegister (inputs : List (RegisterIndex × Dword)) (i : Nat) : InputOutputRegister :=
  match inputs[i]? with
  | some (register, mask) => ⟨register, .custom, mask.setWidth 4, countBits mask⟩
  | none => ⟨0, .unknown, 0, 0⟩

theorem collected_append (inputs : List (RegisterIndex × Dword)) (input : RegisterIndex × Dword) :
    collected (inputs ++ [input]) = (collected inputs).add input := by
  unfold collected
  rw [List.foldl_append, List.foldl_cons, List.foldl_nil]

theorem collected_count (inputs : List (RegisterIndex × Dword)) :
    (collected inputs).usedRegsCount = inputs.length := by
  induction inputs using List.reverseRecOn with
  | nil => rfl
  | append_singleton inputs input ih =>
    rw [collected_append, List.length_append, ← ih]
    rfl

theorem collected_isBitSet {inputs : List (RegisterIndex × Dword)} {r : RegisterIndex} :
    isBitSet (collected inputs).usedRegsMask r.val = true ↔ r ∈ inputs.map Prod.fst := by
  induction inputs using List.reverseRecOn with
  | nil => simp [collected, InputOutputRegisters.zero, isBitSet]
  | append_singleton inputs input ih =>
    rw [collected_append]
    show isBitSet (setBit (collected inputs).usedRegsMask input.1.val) r.val = true ↔ _
    rw [RegisterAllocator.isBitSet_setBit _ _ r.isLt, Bool.or_eq_true, ih, List.map_append,
      List.mem_append, decide_eq_true_iff, List.map_singleton, List.mem_singleton, Fin.ext_iff]

theorem collected_regs {inputs : List (RegisterIndex × Dword)} (hcount : inputs.length ≤ 3)
    (i : Fin 3) : (collected inputs).regs i = collectedRegister inputs i.val := by
  induction inputs using List.reverseRecOn with
  | nil => rfl
  | append_singleton inputs input ih =>
    rw [List.length_append, List.length_singleton] at hcount
    have hi : i = Fin.ofNat 3 inputs.length ↔ i.val = inputs.length := by
      rw [Fin.ext_iff]
      show i.val = inputs.length % 3 ↔ _
      rw [Nat.mod_eq_of_lt (by omega)]
    rw [collected_append]
    show Function.update (collected inputs).regs (Fin.ofNat 3 (collected inputs).usedRegsCount) _ i = _
    rw [collected_count, Function.update_apply]
    unfold collectedRegister
    by_cases h : i.val = inputs.length
    · rw [if_pos (hi.mpr h), h, List.getElem?_concat_length]
    · rw [if_neg (mt hi.mp h), ih (by omega)]
      unfold collectedRegister
      by_cases hlt : i.val < inputs.length
      · rw [List.getElem?_append_left hlt]
      · rw [List.getElem?_eq_none (by omega), List.getElem?_eq_none (by simp; omega)]

/-- What holds of a binary between its directives. -/
structure Collecting (inputs : List (RegisterIndex × Dword)) (b : PicoGpuBinary) : Prop where
  inputs : b.inputs = collected inputs
  outputs : b.outputs.usedRegsCount ≠ 0 → (b.outputs.regs 0).usage = .custom
  code : b.code = []

namespace AssemblerCall

theorem collecting_step {inputs : List (RegisterIndex × Dword)} {call : AssemblerCall}
    {b b' : PicoGpuBinary} (hb : Collecting inputs b) (hd : call.IsDirective)
    (hinputs : Collectable (inputs ++ call.inputDirective.toList)) (h : call.perform b = .ok b') :
    Collecting (inputs ++ call.inputDirective.toList) b' := by
  have hsame : ∀ b', b'.inputs = b.inputs → b'.outputs = b.outputs → b'.code = b.code →
      Collecting (inputs ++ []) b' := by
    intro b' hin hout hcode
    rw [List.append_nil]
    exact ⟨hin.trans hb.inputs, by rw [hout]; exact hb.outputs, hcode.trans hb.code⟩
  cases call with
  | encodeDirectiveInputOutput reg mask ioType =>
    cases ioType with
    | input =>
      obtain ⟨hcount, hnd, hmasks⟩ := hinputs
      simp only [inputDirective, Option.toList_some] at hcount hnd hmasks ⊢
      rw [List.length_append, List.length_singleton] at hcount
      have hmask : mask ∈ prefixMasks :=
        hmasks (reg, mask) (List.mem_append_right _ (List.mem_singleton.mpr rfl))
      have hfree : isBitSet b.inputs.usedRegsMask reg = false := by
        rw [List.map_append, List.nodup_append] at hnd
        rw [hb.inputs]
        refine Bool.eq_false_iff.mpr fun hset => ?_
        exact hnd.2.2 _ (collected_isBitSet.mp hset) reg (List.mem_singleton.mpr rfl) rfl
      have hadd := @PicoGpuBinary.encodeDirectiveInputOutput_add reg mask .input b hmask hfree (by
        show b.inputs.usedRegsCount < 3
        rw [hb.inputs, collected_count]
        omega)
      rw [perform, hadd] at h
      cases h
      refine ⟨?_, hb.outputs, hb.code⟩
      rw [collected_append, ← hb.inputs]
      rfl
    | output =>
      rcases PicoGpuBinary.encodeDirectiveInputOutput_cases h with ⟨text, rfl⟩ | rfl
      · exact hsame _ rfl rfl rfl
      · refine ⟨?_, fun _ => ?_, hb.code⟩
        · show b.inputs = collected (inputs ++ [])
          rw [List.append_nil, hb.inputs]
        · show (Function.update b.outputs.regs (Fin.ofNat 3 b.outputs.usedRegsCount) _ 0).usage = _
          rw [Function.update_apply]
          split
          · rfl
          · next hne =>
            refine hb.outputs fun h0 => hne ?_
            rw [h0]
            rfl
    | uniform =>
      rcases PicoGpuBinary.encodeDirectiveInputOutput_cases h with ⟨text, rfl⟩ | rfl
      · exact hsame _ rfl rfl rfl
      · exact hsame _ rfl rfl rfl
  | encodeDirectiveShaderType programType =>
    cases h
    refine hsame _ ?_ ?_ ?_ <;> unfold PicoGpuBinary.encodeDirectiveShaderType <;> split <;> rfl
  | encodeDirectiveUndefinedRegs =>
    cases h
    refine hsame _ ?_ ?_ ?_ <;> unfold PicoGpuBinary.encodeDirectiveUndefinedRegs <;> split <;> rfl
  | finalizeDirectives => exact hd.elim
  | encode i => exact hd.elim
  | finalizeInstructions => exact hd.elim

theorem collecting_run : ∀ {calls : List AssemblerCall} {inputs : List (RegisterIndex × Dword)}
    {b b' : PicoGpuBinary}, Collecting inputs b → (∀ call ∈ calls, call.IsDirective) →
    Collectable (inputs ++ calls.filterMap inputDirective) → performAll calls b = .ok b' →
    Collecting (inputs ++ calls.filterMap inputDirective) b'
  | [], inputs, b, b', hb, _, _, h => by
    cases h
    rw [List.filterMap_nil, List.append_nil]
    exact hb
  | call :: calls, inputs, b, b', hb, hd, hinputs, h => by
    unfold performAll at h
    rw [List.foldlM_cons] at h
    obtain ⟨b1, h1, h⟩ := bind_ok.mp h
    have hsplit : inputs ++ (call :: calls).filterMap inputDirective =
        inputs ++ call.inputDirective.toList ++ calls.filterMap inputDirective := by
      rw [List.filterMap_cons]
      cases call.inputDirective <;> simp
    rw [hsplit] at hinputs ⊢
    have hb1 := collecting_step hb (hd call List.mem_cons_self) hinputs.append_left h1
    exact collecting_run hb1 (fun c hc => hd c (List.mem_cons_of_mem _ hc)) hinputs h

theorem collecting_new : Collecting [] .new := ⟨rfl, fun h => absurd rfl h, rfl⟩

end AssemblerCall

/-! ## Finalizing -/

/-- The registers when the first of them is the position. -/
def InputOutputRegisters.withPosition (io : InputOutputRegisters) : InputOutputRegisters :=
  { io with regs := Function.update io.regs 0 { io.regs 0 with usage := .fixed } }

namespace PicoGpuBinary

/-- What the preamble and the shader units take from the inputs. -/
structure SameInputs (b b' : PicoGpuBinary) : Prop extends SameProgram b b' where
  inputs : b'.inputs = b.inputs
  headerInputs : b'.header.inputs = b.header.inputs
  headerInputsCount : b'.header.inputsCount = b.header.inputsCount
  headerProgramType : b'.header.programType = b.header.programType

theorem SameInputs.trans {b b1 b2 : PicoGpuBinary} (h1 : b.SameInputs b1) (h2 : b1.SameInputs b2) :
    b.SameInputs b2 :=
  ⟨h1.toSameProgram.trans h2.toSameProgram, h2.inputs.trans h1.inputs,
    h2.headerInputs.trans h1.headerInputs, h2.headerInputsCount.trans h1.headerInputsCount,
    h2.headerProgramType.trans h1.headerProgramType⟩

/-- A change of the outputs. -/
theorem sameInputs_setOutputs (b : PicoGpuBinary) (io : InputOutputRegisters) :
    b.SameInputs (b.setIoRegisters io .output) := ⟨⟨rfl, rfl, rfl⟩, rfl, rfl, rfl, rfl⟩

theorem sameInputs_addError (b : PicoGpuBinary) (text : String) : b.SameInputs (b.addError text) :=
  ⟨⟨rfl, rfl, rfl⟩, rfl, rfl, rfl, rfl⟩

theorem finalizeInput_fragment {b : PicoGpuBinary} (htype : b.programType = some .fragmentShader)
    (hpos : b.inputs.usedRegsCount ≠ 0) (hcomponents : (b.inputs.regs 0).componentsCount = 4)
    (husage : (b.inputs.regs 0).usage = .custom) :
    b.finalizeInputOutputDirectives .input =
      .ok ((b.setUsage .input 0 .fixed).storeInputOutput .input) := by
  have hvs : b.isVs = false := by simp [isVs, htype]
  have hfs : b.isFs = true := by simp [isFs, htype]
  have hpos' : (b.getIoRegisters .input).usedRegsCount ≠ 0 := hpos
  have hcomponents' : ((b.getIoRegisters .input).regs 0).componentsCount = 4 := hcomponents
  have husage' : ((b.getIoRegisters .input).regs 0).usage = .custom := husage
  unfold finalizeInputOutputDirectives
  simp only [hvs, hfs, hpos', hcomponents', husage', if_false, if_true, and_false, and_true,
    and_self, or_true, ne_eq, not_true_eq_false, Bool.false_eq_true, reduceCtorEq]

theorem finalizeOutput_fragment {b : PicoGpuBinary} (htype : b.programType = some .fragmentShader)
    (husage : b.outputs.usedRegsCount ≠ 0 → (b.outputs.regs 0).usage = .custom) :
    ∃ b', b.finalizeInputOutputDirectives .output = .ok b' ∧ b.SameInputs b' := by
  have hvs : b.isVs = false := by simp [isVs, htype]
  have hfs : b.isFs = true := by simp [isFs, htype]
  unfold finalizeInputOutputDirectives
  simp only [hvs, hfs, and_false, and_true, or_self, false_and, if_false,
    if_true, reduceCtorEq, Bool.false_eq_true]
  split
  · exact ⟨_, rfl, sameInputs_addError b _⟩
  next hcount =>
  split
  · exact ⟨_, rfl, sameInputs_addError b _⟩
  have hcount : b.outputs.usedRegsCount = 1 := Classical.not_not.mp hcount
  have hcustom : ((b.getIoRegisters .output).regs 0).usage = .custom :=
    husage (by rw [hcount]; decide)
  rw [if_neg (by simp [hcustom])]
  -- the depth is one more output
  have hset := sameInputs_setOutputs b { b.outputs with
    regs := Function.update b.outputs.regs 0 { b.outputs.regs 0 with usage := .fixed } }
  obtain ⟨b1, h1⟩ := encodeDirectiveInputOutput_total (b.inputs.regs 0).index
    (show 0b1000 ∈ prefixMasks by decide) .output (b.setUsage .output 0 .fixed)
  have hsame1 : b.SameInputs b1 := by
    rcases encodeDirectiveInputOutput_cases h1 with ⟨text, rfl⟩ | rfl
    · exact hset.trans (sameInputs_addError _ text)
    · exact hset.trans (sameInputs_setOutputs _ _)
  rw [h1]
  exact ⟨_, rfl, hsame1.trans ⟨⟨rfl, rfl, rfl⟩, rfl, rfl, rfl, rfl⟩⟩

theorem finalizeUniform_fragment {b : PicoGpuBinary} :
    ∃ b', b.finalizeInputOutputDirectives .uniform = .ok b' ∧ b.SameInputs b' := by
  unfold finalizeInputOutputDirectives
  simp only [reduceCtorEq, false_and, or_self, if_false]
  exact ⟨_, rfl, ⟨rfl, rfl, rfl⟩, rfl, rfl, rfl, rfl⟩

theorem append_total {b : PicoGpuBinary} {dwords : List Dword}
    (hlen : b.code.length + dwords.length < Isa.maxIsaSize) :
    b.append dwords = .ok { b with code := b.code ++ dwords } := by
  unfold append
  rw [if_neg]
  simp only [getData, List.length_append, CommandStoreIsa.raw_length, Isa.commandSizeInDwords]
  omega

/-- There is space for instructions that end within the memory of a shader unit. -/
theorem encodeAll_total : ∀ {instructions : List Instruction} {b : PicoGpuBinary},
    (∀ i ∈ instructions, i.operands.ImmediatesFit) →
    b.code.length + (programDwords instructions).length < Isa.maxIsaSize →
    ∃ b', encodeAll instructions b = .ok b'
  | [], b, _, _ => ⟨b, rfl⟩
  | i :: instructions, b, hfit, hlen => by
    have hsplit : (programDwords (i :: instructions)).length =
        i.dwords.length + (programDwords instructions).length := by simp [programDwords]
    rw [hsplit] at hlen
    have happend : b.append i.dwords = .ok { b with code := b.code ++ i.dwords } :=
      append_total (by omega)
    have hencode : encode i b = .ok { b with code := b.code ++ i.dwords } := by
      have hi := hfit i List.mem_cons_self
      obtain ⟨opcode, operands⟩ := i
      cases operands with
      | unaryMathImm dest destMask imms =>
        simp only [encode, encodeUnaryMathImm]
        rw [if_neg (by simpa using List.length_pos_iff.mp hi.1), if_neg (Nat.not_lt.mpr hi.2)]
        exact happend
      | binaryMathImm dest src destMask imms =>
        simp only [encode, encodeBinaryMathImm]
        rw [if_neg (by simpa using List.length_pos_iff.mp hi.1), if_neg (Nat.not_lt.mpr hi.2)]
        exact happend
      | _ => exact happend
    obtain ⟨b', hb'⟩ := @encodeAll_total instructions { b with code := b.code ++ i.dwords }
      (fun j hj => hfit j (List.mem_cons_of_mem _ hj)) (by
        rw [List.length_append]
        omega)
    refine ⟨b', ?_⟩
    unfold encodeAll
    rw [List.foldlM_cons, hencode]
    exact hb'

/-- The header tells the shader units about the inputs, and the code starts with the preamble. -/
structure FragmentHeader (io : InputOutputRegisters) (preamble : List Instruction)
    (b : PicoGpuBinary) : Prop where
  inputs : b.inputs = io
  headerInputs : b.header.inputs = InputOutputRegisters.toFields io
  headerInputsCount : b.header.inputsCount = intToNonZeroCount 2 io.usedRegsCount
  headerProgramType : b.header.programType = .fragmentShader
  code : ∃ setup, b.code = programDwords (preamble ++ setup) ∧ ∀ i ∈ setup, i.operands = .nullary

theorem finalizeDirectives_fragment {b : PicoGpuBinary} {preamble : List Instruction}
    (htype : b.programType = some .fragmentShader) (hpos : b.inputs.usedRegsCount ≠ 0)
    (hcomponents : (b.inputs.regs 0).componentsCount = 4)
    (husage : (b.inputs.regs 0).usage = .custom)
    (houtputs : b.outputs.usedRegsCount ≠ 0 → (b.outputs.regs 0).usage = .custom)
    (hcode : b.code = []) (hpreamble : interpolationInstructions b.inputs.withPosition = .ok preamble)
    (hfit : ∀ i ∈ preamble, i.operands.ImmediatesFit)
    (hlen : (programDwords preamble).length + 2 < Isa.maxIsaSize) :
    ∃ b', b.finalizeDirectives = .ok b' ∧ FragmentHeader b.inputs.withPosition preamble b' := by
  let b1 := ((b.storeProgramType .fragmentShader).setUsage .input 0 .fixed).storeInputOutput .input
  have h1 : finalizeInputOutputDirectives .input (b.storeProgramType .fragmentShader) = .ok b1 :=
    finalizeInput_fragment htype hpos hcomponents husage
  obtain ⟨b2, h2, hsame2⟩ := @finalizeOutput_fragment b1 htype houtputs
  obtain ⟨b3, h3, hsame3⟩ := @finalizeUniform_fragment b2
  have hsame := hsame2.trans hsame3
  have hinputs3 : b3.inputs = b.inputs.withPosition := hsame.inputs
  have htype3 : b3.programType = some .fragmentShader := hsame.programType.trans htype
  have hcode3 : b3.code = [] := hsame.code.trans hcode
  let setup : List Instruction :=
    ⟨.lduni, .nullary⟩ :: if b3.undefinedRegs then [] else [⟨.initregs, .nullary⟩]
  have hsetup : ∀ i ∈ setup, i.operands = .nullary := by
    intro i hi
    rcases List.mem_cons.mp hi with rfl | hi
    · rfl
    · split at hi
      · exact nomatch hi
      · rw [List.mem_singleton.mp hi]
  obtain ⟨b4, h4⟩ := @encodeAll_total preamble b3 hfit (by
    rw [hcode3, List.length_nil]
    omega)
  obtain ⟨h4eq, -, -⟩ := encodeAll_ok h4
  have hcode4 : b4.code = programDwords preamble := by
    rw [h4eq]
    show b3.code ++ _ = _
    rw [hcode3, List.nil_append]
  have hsetupLen : (programDwords setup).length ≤ 2 := by
    show (programDwords (_ :: if b3.undefinedRegs then [] else _)).length ≤ 2
    split <;> decide
  obtain ⟨b', h'⟩ := @encodeAll_total setup b4
    (fun i hi => by rw [hsetup i hi]; trivial) (by rw [hcode4]; omega)
  obtain ⟨heq, -, -⟩ := encodeAll_ok (encodeAll_append h4 h')
  refine ⟨b', ?_, ?_⟩
  · unfold finalizeDirectives
    rw [htype]
    show (finalizeInputOutputDirectives .input (b.storeProgramType .fragmentShader) >>= _) = _
    have hinterpolation : encodeAttributeInterpolationForFragmentShader b3 = .ok b4 := by
      unfold encodeAttributeInterpolationForFragmentShader
      rw [hinputs3, hpreamble]
      exact h4
    obtain ⟨b5, h5, hrest⟩ : ∃ b5, encodeNullary .lduni b4 = .ok b5 ∧
        encodeAll (if b3.undefinedRegs then [] else [⟨.initregs, .nullary⟩]) b5 = .ok b' := by
      unfold encodeAll at h'
      rw [List.foldlM_cons] at h'
      exact bind_ok.mp h'
    have hregs : b5.undefinedRegs = b3.undefinedRegs := by
      rw [(append_ok h5).1, h4eq]
    rw [h1, ok_bind, h2, ok_bind, h3, ok_bind, if_pos htype3, hinterpolation, ok_bind, h5, ok_bind,
      hregs]
    by_cases hundefined : b3.undefinedRegs
    · rw [if_pos hundefined] at hrest ⊢
      exact hrest
    · rw [if_neg hundefined] at hrest ⊢
      unfold encodeAll at hrest
      rw [List.foldlM_cons] at hrest
      obtain ⟨b6, h6, hrest⟩ := bind_ok.mp hrest
      cases hrest
      exact h6
  · rw [heq]
    exact ⟨hinputs3, hsame.headerInputs, hsame.headerInputsCount, hsame.headerProgramType, setup,
      by rw [hcode3, List.nil_append], hsetup⟩

end PicoGpuBinary

end PicoGpu
