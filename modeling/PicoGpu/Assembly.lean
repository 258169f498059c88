import PicoGpu.PicoGpuBinary

/- The calls that an assembly makes on its binary, and what each of them adds to
   the code. Whatever the calls are, the code is a list of instructions that
   `executeInstructions` reads in the layout they were written with, and the
   header counts at most three inputs and uniforms. -/
namespace PicoGpu

/-- The dwords of a program. -/
def programDwords (instructions : List Instruction) : List Dword :=
  instructions.flatMap Instruction.dwords

/-! ## Encoding -/

namespace PicoGpuBinary

theorem append_ok {b b' : PicoGpuBinary} {dwords : List Dword} (h : b.append dwords = .ok b') :
    b' = { b with code := b.code ++ dwords } ∧ b'.code.length < Isa.maxIsaSize := by
  unfold append at h
  split at h
  · exact nomatch h
  · next hlen =>
    cases h
    refine ⟨rfl, ?_⟩
    simp [getData, CommandStoreIsa.raw_length, Isa.commandSizeInDwords] at hlen ⊢
    omega

/-- A call that succeeds appends the instruction; its immediate values fit. -/
theorem encode_ok {i : Instruction} {b b' : PicoGpuBinary} (h : encode i b = .ok b') :
    b.append i.dwords = .ok b' ∧ i.operands.ImmediatesFit := by
  obtain ⟨opcode, operands⟩ := i
  cases operands with
  | unaryMathImm dest destMask imms =>
    simp only [encode, encodeUnaryMathImm] at h
    split at h
    · exact nomatch h
    · next hempty =>
      split at h
      · exact nomatch h
      · next hlong =>
        have hne : imms ≠ [] := by simpa using hempty
        exact ⟨h, List.length_pos_iff.mpr hne, Nat.le_of_not_lt hlong⟩
  | binaryMathImm dest src destMask imms =>
    simp only [encode, encodeBinaryMathImm] at h
    split at h
    · exact nomatch h
    · next hempty =>
      split at h
      · exact nomatch h
      · next hlong =>
        have hne : imms ≠ [] := by simpa using hempty
        exact ⟨h, List.length_pos_iff.mpr hne, Nat.le_of_not_lt hlong⟩
  | nullary => exact ⟨h, trivial⟩
  | unaryMath => exact ⟨h, trivial⟩
  | binaryMath => exact ⟨h, trivial⟩
  | ternaryMath => exact ⟨h, trivial⟩
  | swizzle => exact ⟨h, trivial⟩

theorem encodeAll_ok : ∀ {instructions : List Instruction} {b b' : PicoGpuBinary},
    encodeAll instructions b = .ok b' →
    b' = { b with code := b.code ++ programDwords instructions } ∧
    (∀ i ∈ instructions, i.operands.ImmediatesFit) ∧
    (b.code.length < Isa.maxIsaSize → b'.code.length < Isa.maxIsaSize)
  | [], b, b', h => by
    cases h
    simp [programDwords]
  | i :: instructions, b, b', h => by
    unfold encodeAll at h
    rw [List.foldlM_cons] at h
    cases hi : encode i b with
    | error e => rw [hi] at h; exact nomatch h
    | ok b1 =>
      rw [hi] at h
      obtain ⟨happ, hfit⟩ := encode_ok hi
      obtain ⟨hb1, hlen1⟩ := append_ok happ
      obtain ⟨hb', hfits, hlen⟩ := encodeAll_ok (b := b1) h
      refine ⟨?_, ?_, fun _ => hlen hlen1⟩
      · rw [hb', hb1]
        simp [programDwords]
      · intro j hj
        rcases List.mem_cons.mp hj with rfl | hj
        · exact hfit
        · exact hfits j hj

/-- The instruction that `finalizeInstructions` adds. -/
def finalCalls (b : PicoGpuBinary) : List Instruction :=
  if b.programType = some .fragmentShader then
    [⟨.swizzle, .swizzle (b.inputs.regs 0).index (b.inputs.regs 0).index
      .swizzleZ .swizzleZ .swizzleZ .swizzleZ⟩]
  else []

/-- After `finalizeInstructions` the header's `programLength` counts the dwords of the program. -/
theorem finalizeInstructions_ok {b b' : PicoGpuBinary} (h : finalizeInstructions b = .ok b')
    (hlen : b.code.length < Isa.maxIsaSize) :
    b'.code = b.code ++ programDwords b.finalCalls ∧
    (∀ i ∈ b.finalCalls, i.operands.ImmediatesFit) ∧
    b'.header.programLength.toNat = b'.code.length ∧ b'.code.length < Isa.maxIsaSize := by
  have hfits : ∀ c : PicoGpuBinary, c.code.length < Isa.maxIsaSize →
      (BitVec.ofNat 9 (c.getData.length - Isa.commandSizeInDwords)).toNat = c.code.length := by
    intro c hc
    have hsize : c.getData.length - Isa.commandSizeInDwords = c.code.length := by
      simp [getData, CommandStoreIsa.raw_length, Isa.commandSizeInDwords]
    rw [hsize, BitVec.toNat_ofNat]
    exact Nat.mod_eq_of_lt hc
  unfold finalizeInstructions at h
  cases hp : b.programType with
  | none => rw [hp] at h; exact nomatch h
  | some programType =>
    rw [hp] at h
    cases programType with
    | vertexShader =>
      cases h
      exact ⟨by simp [finalCalls, hp, programDwords], by simp [finalCalls, hp], hfits b hlen, hlen⟩
    | fragmentShader =>
      obtain ⟨c, hc, hb'⟩ := bind_ok.mp h
      obtain ⟨rfl, hlt⟩ := append_ok hc
      cases hb'
      exact ⟨by simp [finalCalls, hp, programDwords],
        by simp [finalCalls, hp, Operands.ImmediatesFit], hfits _ hlt, hlt⟩

/-- The export does not change what decides it. -/
theorem finalCalls_finalized {b b' : PicoGpuBinary} (h : finalizeInstructions b = .ok b') :
    b'.finalCalls = b.finalCalls := by
  obtain ⟨b1, h1, h⟩ := bind_ok.mp h
  cases h
  have hsame : b1.programType = b.programType ∧ b1.inputs = b.inputs := by
    split at h1
    · exact nomatch h1
    · cases h1
      exact ⟨rfl, rfl⟩
    · obtain ⟨rfl, -⟩ := append_ok h1
      exact ⟨rfl, rfl⟩
  unfold finalCalls
  rw [← hsame.1, ← hsame.2]

end PicoGpuBinary

/-! ## Calls -/

/-- The calls of the parser actions on the binary. -/
inductive AssemblerCall where
  | encodeDirectiveInputOutput (reg : RegisterIndex) (mask : Dword) (ioType : IoType)
  | encodeDirectiveShaderType (programType : ProgramType)
  | encodeDirectiveUndefinedRegs
  | finalizeDirectives
  | encode (i : Instruction)
  | finalizeInstructions
  deriving DecidableEq, Repr

namespace AssemblerCall

def perform : AssemblerCall → PicoGpuBinary → Except FatalError PicoGpuBinary
  | encodeDirectiveInputOutput reg mask ioType, b => b.encodeDirectiveInputOutput reg mask ioType
  | encodeDirectiveShaderType programType, b => .ok (b.encodeDirectiveShaderType programType)
  | encodeDirectiveUndefinedRegs, b => .ok b.encodeDirectiveUndefinedRegs
  | finalizeDirectives, b => b.finalizeDirectives
  | encode i, b => b.encode i
  | finalizeInstructions, b => b.finalizeInstructions

def performAll (calls : List AssemblerCall) (b : PicoGpuBinary) : Except FatalError PicoGpuBinary :=
  calls.foldlM (fun b call => call.perform b) b

end AssemblerCall

/-- The preamble that `finalizeDirectives` adds, with the code that sets up registers. -/
def PicoGpuBinary.directiveInstructions (b : PicoGpuBinary) :
    Except FatalError (List Instruction) :=
  match b.programType with
  | none => .ok []
  | some programType => do
    let b ← finalizeInputOutputDirectives .input (b.storeProgramType programType)
    let b ← finalizeInputOutputDirectives .output b
    let b ← finalizeInputOutputDirectives .uniform b
    let preamble ← (if b.programType = some .fragmentShader then
      interpolationInstructions b.inputs else .ok [])
    return preamble ++ ⟨.lduni, .nullary⟩ :: if b.undefinedRegs then [] else [⟨.initregs, .nullary⟩]

namespace AssemblerCall

/-- The instructions that a call adds to the code. -/
def emitted : AssemblerCall → PicoGpuBinary → Except FatalError (List Instruction)
  | encode i, _ => .ok [i]
  | finalizeDirectives, b => b.directiveInstructions
  | finalizeInstructions, b => .ok b.finalCalls
  | _, _ => .ok []

def emittedAll : List AssemblerCall → PicoGpuBinary → Except FatalError (List Instruction)
  | [], _ => .ok []
  | call :: calls, b => do
    let instructions ← call.emitted b
    return instructions ++ (← emittedAll calls (← call.perform b))

end AssemblerCall

/-! ## What the directives leave alone -/

namespace PicoGpuBinary

/-- What the directives do not change: they only collect registers and errors. -/
structure SameProgram (b b' : PicoGpuBinary) : Prop where
  code : b'.code = b.code
  programType : b'.programType = b.programType
  undefinedRegs : b'.undefinedRegs = b.undefinedRegs

/-- At most three registers of each kind are collected, and the header counts no more. -/
structure CountsFit (b : PicoGpuBinary) : Prop where
  registers : ∀ ioType, (b.getIoRegisters ioType).usedRegsCount ≤ 3
  uniforms : b.header.uniformsCount.toNat ≤ 3
  inputs : nonZeroCountToInt b.header.inputsCount ≤ 3

theorem countsFit_new : new.CountsFit :=
  ⟨fun ioType => by cases ioType <;> exact Nat.zero_le _, Nat.zero_le _, by decide⟩

theorem CountsFit.addError {b : PicoGpuBinary} (h : b.CountsFit) (text : String) :
    (b.addError text).CountsFit :=
  ⟨fun ioType => by have := h.registers ioType; cases ioType <;> exact this, h.uniforms, h.inputs⟩

theorem CountsFit.setIoRegisters {b : PicoGpuBinary} (h : b.CountsFit) {io : InputOutputRegisters}
    (hio : io.usedRegsCount ≤ 3) (ioType : IoType) : (b.setIoRegisters io ioType).CountsFit := by
  refine ⟨fun other => ?_, ?_, ?_⟩
  · have hother := h.registers other
    cases ioType <;> cases other <;> first | exact hio | exact hother
  · cases ioType <;> exact h.uniforms
  · cases ioType <;> exact h.inputs

theorem SameProgram.refl (b : PicoGpuBinary) : b.SameProgram b := ⟨rfl, rfl, rfl⟩

theorem SameProgram.trans {b b1 b2 : PicoGpuBinary} (h1 : b.SameProgram b1)
    (h2 : b1.SameProgram b2) : b.SameProgram b2 :=
  ⟨h2.code.trans h1.code, h2.programType.trans h1.programType,
    h2.undefinedRegs.trans h1.undefinedRegs⟩

theorem sameProgram_addError (b : PicoGpuBinary) (text : String) :
    b.SameProgram (b.addError text) := ⟨rfl, rfl, rfl⟩

theorem sameProgram_setIoRegisters (b : PicoGpuBinary) (io : InputOutputRegisters)
    (ioType : IoType) : b.SameProgram (b.setIoRegisters io ioType) := by
  cases ioType <;> exact ⟨rfl, rfl, rfl⟩

/-- A directive for a register reports an error, or its components are in order, the register is
    free and there is room to collect it. -/
theorem encodeDirectiveInputOutput_inv {reg : RegisterIndex} {mask : Dword} {ioType : IoType}
    {b b' : PicoGpuBinary} (h : b.encodeDirectiveInputOutput reg mask ioType = .ok b') :
    (∃ text, text ≠ "" ∧ b' = b.addError text) ∨
      (mask = 0b1000 ∨ mask = 0b1100 ∨ mask = 0b1110 ∨ mask = 0b1111) ∧
        isBitSet (b.getIoRegisters ioType).usedRegsMask reg = false ∧
        (b.getIoRegisters ioType).usedRegsCount ≠ Isa.maxInputOutputRegisters ∧
        b' = b.setIoRegisters
          { regs := Function.update (b.getIoRegisters ioType).regs
              (Fin.ofNat 3 (b.getIoRegisters ioType).usedRegsCount)
              ⟨reg, .custom, mask.setWidth 4, countBits mask⟩
            usedRegsMask := setBit (b.getIoRegisters ioType).usedRegsMask reg
            usedRegsCount := (b.getIoRegisters ioType).usedRegsCount + 1 } ioType := by
  unfold encodeDirectiveInputOutput at h
  dsimp only at h
  split at h
  · exact nomatch h
  split at h
  · exact nomatch h
  split at h
  · cases h
    exact .inl ⟨_, by simp, rfl⟩
  next hordered =>
  split at h
  · cases h
    exact .inl ⟨_, by simp, rfl⟩
  next hfree =>
  -- neither check against the other kind can fire here
  simp only [hfree, and_false, if_false, Bool.false_eq_true] at h
  split at h
  · cases h
    exact .inl ⟨_, by simp, rfl⟩
  next hmax =>
  cases h
  refine .inr ⟨?_, by simpa using hfree, hmax, rfl⟩
  by_contra hnone
  simp only [not_or] at hnone
  exact hordered hnone

theorem encodeDirectiveInputOutput_ok {reg : RegisterIndex} {mask : Dword} {ioType : IoType}
    {b b' : PicoGpuBinary} (h : b.encodeDirectiveInputOutput reg mask ioType = .ok b')
    (hb : b.CountsFit) : b.SameProgram b' ∧ b'.CountsFit := by
  rcases encodeDirectiveInputOutput_inv h with ⟨text, -, rfl⟩ | ⟨-, -, hmax, rfl⟩
  · exact ⟨sameProgram_addError b text, hb.addError text⟩
  · refine ⟨sameProgram_setIoRegisters b _ ioType, hb.setIoRegisters ?_ ioType⟩
    have hlt := Nat.lt_of_le_of_ne (hb.registers ioType) hmax
    exact hlt

theorem storeInputOutput_ok {b : PicoGpuBinary} (hb : b.CountsFit) (ioType : IoType)
    (hinput : ioType = .input → 1 ≤ b.inputs.usedRegsCount) :
    b.SameProgram (b.storeInputOutput ioType) ∧ (b.storeInputOutput ioType).CountsFit := by
  have hcount := hb.registers ioType
  refine ⟨⟨rfl, rfl, rfl⟩, fun other => ?_, ?_, ?_⟩
  · have hother := hb.registers other
    cases other <;> exact hother
  · cases ioType with
    | uniform =>
      show (BitVec.ofNat 3 b.uniforms.usedRegsCount).toNat ≤ 3
      rw [BitVec.toNat_ofNat]
      exact Nat.le_trans (Nat.mod_le _ _) hcount
    | _ => exact hb.uniforms
  · cases ioType with
    | input =>
      show nonZeroCountToInt (intToNonZeroCount 2 b.inputs.usedRegsCount) ≤ 3
      have hcount : b.inputs.usedRegsCount ≤ 3 := hcount
      rw [nonZeroCount_roundtrip (hinput rfl) (by omega)]
      exact hcount
    | _ => exact hb.inputs

theorem CountsFit.setUsage {b : PicoGpuBinary} (h : b.CountsFit) (ioType : IoType) (index : Fin 3)
    (usage : InputOutputRegisterUsage) : (b.setUsage ioType index usage).CountsFit := by
  refine h.setIoRegisters ?_ ioType
  exact h.registers ioType

theorem sameProgram_setUsage (b : PicoGpuBinary) (ioType : IoType) (index : Fin 3)
    (usage : InputOutputRegisterUsage) : b.SameProgram (b.setUsage ioType index usage) :=
  sameProgram_setIoRegisters b _ ioType

theorem finalizeInputOutputDirectives_ok {ioType : IoType} {b b' : PicoGpuBinary}
    (h : b.finalizeInputOutputDirectives ioType = .ok b') (hb : b.CountsFit)
    (htype : b.programType.isSome) : b.SameProgram b' ∧ b'.CountsFit := by
  unfold finalizeInputOutputDirectives at h
  dsimp only at h
  split at h
  · cases h
    exact ⟨sameProgram_addError b _, hb.addError _⟩
  next hvs =>
  split at h
  · split at h
    · cases h
      exact ⟨sameProgram_addError b _, hb.addError _⟩
    next hpos =>
    split at h
    · cases h
      exact ⟨sameProgram_addError b _, hb.addError _⟩
    split at h
    · exact nomatch h
    cases h
    have hset := sameProgram_setUsage b ioType 0 .fixed
    obtain ⟨hsame, hfit⟩ := storeInputOutput_ok (hb.setUsage ioType 0 .fixed) ioType (by
      rintro rfl
      exact Nat.pos_of_ne_zero hpos)
    exact ⟨hset.trans hsame, hfit⟩
  next hfixed =>
  split at h
  · next houtput =>
    split at h
    · cases h
      exact ⟨sameProgram_addError b _, hb.addError _⟩
    split at h
    · cases h
      exact ⟨sameProgram_addError b _, hb.addError _⟩
    split at h
    · exact nomatch h
    obtain ⟨b1, h1, h⟩ := bind_ok.mp h
    cases h
    obtain ⟨hsame1, hfit1⟩ := encodeDirectiveInputOutput_ok h1 (hb.setUsage ioType 0 .fixed)
    obtain ⟨hsame2, hfit2⟩ := storeInputOutput_ok (hfit1.setUsage ioType 1 .internal) ioType (by
      rintro rfl
      exact nomatch houtput.1)
    exact ⟨(sameProgram_setUsage b ioType 0 .fixed).trans
      (hsame1.trans ((sameProgram_setUsage b1 ioType 1 .internal).trans hsame2)), hfit2⟩
  · cases h
    -- an input gets here only in a vertex shader that has one
    refine storeInputOutput_ok hb ioType ?_
    rintro rfl
    cases hp : b.programType with
    | none => rw [hp] at htype; exact nomatch htype
    | some programType =>
      cases programType with
      | vertexShader =>
        have hne : b.inputs.usedRegsCount ≠ 0 := fun h0 => hvs ⟨rfl, by simp [isVs, hp], h0⟩
        exact Nat.pos_of_ne_zero hne
      | fragmentShader => exact absurd (Or.inr ⟨rfl, by simp [isFs, hp]⟩) hfixed

theorem CountsFit.append {b : PicoGpuBinary} (h : b.CountsFit) (dwords : List Dword) :
    CountsFit { b with code := b.code ++ dwords } := ⟨h.registers, h.uniforms, h.inputs⟩

/-- What the calls of the encode functions in `finalizeDirectives` add up to. -/
theorem encodeAll_append {is1 is2 : List Instruction} {b b1 b2 : PicoGpuBinary}
    (h1 : encodeAll is1 b = .ok b1) (h2 : encodeAll is2 b1 = .ok b2) :
    encodeAll (is1 ++ is2) b = .ok b2 := by
  unfold encodeAll at h1 h2 ⊢
  rw [List.foldlM_append, h1]
  exact h2

theorem finalizeDirectives_ok {b b' : PicoGpuBinary} (h : b.finalizeDirectives = .ok b')
    (hb : b.CountsFit) : ∃ instructions, b.directiveInstructions = .ok instructions ∧
      b'.CountsFit ∧ b'.programType = b.programType ∧
      ∃ b1, encodeAll instructions b1 = .ok b' ∧ b1.code = b.code := by
  unfold directiveInstructions
  cases htype : b.programType with
  | none =>
    rw [finalizeDirectives_untyped htype] at h
    cases h
    exact ⟨[], rfl, hb.addError _, htype, b.addError _, rfl, rfl⟩
  | some programType =>
    have hb0 : (b.storeProgramType programType).CountsFit :=
      ⟨hb.registers, hb.uniforms, hb.inputs⟩
    have htype0 : (b.storeProgramType programType).programType = some programType := htype
    obtain ⟨b1, b2, b3, b4, b5, h1, h2, h3, h4, h5, h⟩ := finalizeDirectives_steps htype h
    obtain ⟨hsame1, hfit1⟩ := finalizeInputOutputDirectives_ok h1 hb0 (by rw [htype0]; rfl)
    obtain ⟨hsame2, hfit2⟩ := finalizeInputOutputDirectives_ok h2 hfit1
      (by rw [hsame1.programType, htype0]; rfl)
    obtain ⟨hsame3, hfit3⟩ := finalizeInputOutputDirectives_ok h3 hfit2
      (by rw [hsame2.programType, hsame1.programType, htype0]; rfl)
    have hsame := (hsame1.trans hsame2).trans hsame3
    simp only [h1, h2, h3, ok_bind]
    obtain ⟨preamble, hpreamble, hencoded⟩ : ∃ preamble,
        (if b3.programType = some .fragmentShader then interpolationInstructions b3.inputs
          else .ok []) = .ok preamble ∧ encodeAll preamble b3 = .ok b4 := by
      by_cases hfs : b3.programType = some .fragmentShader
      · rw [if_pos hfs] at h4 ⊢
        exact bind_ok.mp h4
      · rw [if_neg hfs] at h4 ⊢
        exact ⟨[], rfl, h4⟩
    obtain ⟨h4eq, -, -⟩ := encodeAll_ok hencoded
    have hsetup : encodeAll (⟨.lduni, .nullary⟩ ::
        if b3.undefinedRegs then [] else [⟨.initregs, .nullary⟩]) b4 = .ok b' := by
      have h5eq := (append_ok h5).1
      have hregs : b5.undefinedRegs = b3.undefinedRegs := by rw [h5eq, h4eq]
      unfold encodeAll
      rw [List.foldlM_cons]
      show (encodeNullary .lduni b4 >>= _) = _
      rw [h5, ok_bind, ← hregs]
      by_cases hr : b5.undefinedRegs
      · rw [if_pos hr] at h ⊢
        exact h
      · rw [if_neg hr] at h ⊢
        rw [List.foldlM_cons]
        show (encodeNullary .initregs b5 >>= _) = _
        rw [h]
        rfl
    have hall := encodeAll_append hencoded hsetup
    obtain ⟨heq, -, -⟩ := encodeAll_ok hall
    refine ⟨_, by rw [hpreamble]; rfl, ?_, ?_, b3, hall, hsame.code⟩
    · rw [heq]
      exact hfit3.append _
    · rw [heq]
      exact hsame.programType.trans htype

theorem CountsFit.finalizeInstructions {b b' : PicoGpuBinary} (hb : b.CountsFit)
    (h : b.finalizeInstructions = .ok b') : b'.CountsFit := by
  unfold PicoGpuBinary.finalizeInstructions at h
  obtain ⟨b1, h1, h⟩ := bind_ok.mp h
  cases h
  have hb1 : b1.CountsFit := by
    split at h1
    · exact nomatch h1
    · cases h1
      exact hb
    · obtain ⟨rfl, -⟩ := append_ok h1
      exact hb.append _
  exact ⟨hb1.registers, hb1.uniforms, hb1.inputs⟩

end PicoGpuBinary

/-! ## Runs -/

namespace AssemblerCall
open PicoGpuBinary

/-- The code of a binary is a program: what holds of every binary that the calls
    have made from a new one. -/
structure Assembled (program : List Instruction) (b : PicoGpuBinary) : Prop where
  code : b.code = programDwords program
  immediatesFit : ∀ i ∈ program, i.operands.ImmediatesFit
  fits : b.code.length < Isa.maxIsaSize
  counts : b.CountsFit

theorem assembled_new : Assembled [] new :=
  ⟨rfl, fun _ h => (nomatch h), by decide, countsFit_new⟩

/-- A binary with the same code. -/
theorem Assembled.same {program : List Instruction} {b b' : PicoGpuBinary}
    (h : Assembled program b) (hcode : b'.code = b.code) (hcounts : b'.CountsFit) :
    Assembled (program ++ []) b' := by
  rw [List.append_nil]
  exact ⟨hcode.trans h.code, h.immediatesFit, by rw [hcode]; exact h.fits, hcounts⟩

theorem assembled_step {program : List Instruction} {b b' : PicoGpuBinary} {call : AssemblerCall}
    (hb : Assembled program b) (h : call.perform b = .ok b') :
    ∃ instructions, call.emitted b = .ok instructions ∧
      Assembled (program ++ instructions) b' := by
  have hencode : ∀ {is b1}, b1.code = b.code → encodeAll is b1 = .ok b' → b'.CountsFit →
      Assembled (program ++ is) b' := by
    intro is b1 hcode h1 hcounts
    obtain ⟨heq, hfit, hlt⟩ := encodeAll_ok h1
    refine ⟨?_, ?_, hlt (by rw [hcode]; exact hb.fits), hcounts⟩
    · rw [heq, hcode, hb.code]
      simp [programDwords]
    · intro i hi
      rcases List.mem_append.mp hi with hi | hi
      · exact hb.immediatesFit i hi
      · exact hfit i hi
  cases call with
  | encodeDirectiveInputOutput reg mask ioType =>
    obtain ⟨hsame, hcounts⟩ := encodeDirectiveInputOutput_ok h hb.counts
    exact ⟨[], rfl, hb.same hsame.code hcounts⟩
  | encodeDirectiveShaderType programType =>
    cases h
    refine ⟨[], rfl, hb.same ?_ ?_⟩ <;> unfold PicoGpuBinary.encodeDirectiveShaderType <;> split
    · rfl
    · rfl
    · exact hb.counts.addError _
    · exact ⟨hb.counts.registers, hb.counts.uniforms, hb.counts.inputs⟩
  | encodeDirectiveUndefinedRegs =>
    cases h
    refine ⟨[], rfl, hb.same ?_ ?_⟩ <;> unfold PicoGpuBinary.encodeDirectiveUndefinedRegs <;> split
    · rfl
    · rfl
    · exact hb.counts.addError _
    · exact ⟨hb.counts.registers, hb.counts.uniforms, hb.counts.inputs⟩
  | finalizeDirectives =>
    obtain ⟨instructions, hem, hcounts, -, b1, henc, hcode⟩ := finalizeDirectives_ok h hb.counts
    exact ⟨instructions, hem, hencode hcode henc hcounts⟩
  | encode i =>
    obtain ⟨happ, -⟩ := encode_ok h
    have hcounts : b'.CountsFit := by
      obtain ⟨rfl, -⟩ := append_ok happ
      exact hb.counts.append _
    refine ⟨[i], rfl, hencode (rfl : b.code = b.code) ?_ hcounts⟩
    unfold encodeAll
    rw [List.foldlM_cons]
    show (PicoGpuBinary.encode i b >>= _) = _
    rw [show PicoGpuBinary.encode i b = .ok b' from h]
    rfl
  | finalizeInstructions =>
    have hcounts := hb.counts.finalizeInstructions h
    obtain ⟨hcode, hfit, -, hlt⟩ := finalizeInstructions_ok h hb.fits
    refine ⟨b.finalCalls, rfl, ?_, ?_, hlt, hcounts⟩
    · rw [hcode, hb.code]
      simp [programDwords]
    · intro i hi
      rcases List.mem_append.mp hi with hi | hi
      · exact hb.immediatesFit i hi
      · exact hfit i hi

theorem assembled_run : ∀ {calls : List AssemblerCall} {program : List Instruction}
    {b b' : PicoGpuBinary}, Assembled program b → performAll calls b = .ok b' →
    ∃ instructions, emittedAll calls b = .ok instructions ∧
      Assembled (program ++ instructions) b'
  | [], program, b, b', hb, h => by
    cases h
    exact ⟨[], rfl, by rwa [List.append_nil]⟩
  | call :: calls, program, b, b', hb, h => by
    unfold performAll at h
    rw [List.foldlM_cons] at h
    obtain ⟨b1, h1, h⟩ := bind_ok.mp h
    obtain ⟨is1, hem1, hb1⟩ := assembled_step hb h1
    obtain ⟨is, hem, hb'⟩ := assembled_run hb1 h
    refine ⟨is1 ++ is, ?_, by rwa [← List.append_assoc]⟩
    unfold emittedAll
    rw [hem1, ok_bind, h1, ok_bind, hem]
    rfl

theorem performAll_append {calls1 calls2 : List AssemblerCall} {b b' : PicoGpuBinary} :
    performAll (calls1 ++ calls2) b = .ok b' ↔
      ∃ b1, performAll calls1 b = .ok b1 ∧ performAll calls2 b1 = .ok b' := by
  unfold performAll
  rw [List.foldlM_append, bind_ok]

/-- Encode calls emit what they encode. -/
theorem emittedAll_encode (instructions : List Instruction) {b b' : PicoGpuBinary}
    (h : performAll (instructions.map encode) b = .ok b') :
    emittedAll (instructions.map encode) b = .ok instructions := by
  induction instructions generalizing b with
  | nil => rfl
  | cons i instructions ih =>
    unfold performAll at h
    rw [List.map_cons, List.foldlM_cons] at h
    obtain ⟨b1, h1, h⟩ := bind_ok.mp h
    simp only [List.map_cons, emittedAll, emitted, ok_bind, h1, ih h]
    rfl

end AssemblerCall

end PicoGpu
