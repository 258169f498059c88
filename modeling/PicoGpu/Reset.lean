import PicoGpu.Assembly

/- Calls on a binary that was reset, beside the same calls on a new one. `reset`
   leaves the size of `data` and the text of the error stream as they are, and both
   only grow. So the two runs stay the same but for the stale dwords in front of the
   code, the stale text in front of the error and the `programLength` that counts
   the former (`stale`); no call looks at any of them but to append. -/
namespace PicoGpu
namespace PicoGpuBinary

/-- The binary with `dwords` zero dwords and a text left over from before. -/
def stale (dwords : Nat) (text : String) (programLength : BitVec 9) (b : PicoGpuBinary) :
    PicoGpuBinary :=
  { b with
    error := text ++ b.error
    header := { b.header with programLength := programLength }
    code := List.replicate dwords 0 ++ b.code }

theorem reset_eq_stale (b : PicoGpuBinary) : b.reset = new.stale b.code.length b.error 0 := by
  simp [reset, stale, new, CommandStoreIsa.zero]

theorem reset_eq_new {b : PicoGpuBinary} (hcode : b.code = []) (herror : b.error = "") :
    b.reset = new := by
  simp [reset, new, hcode, herror]

section
variable {dwords : Nat} {text : String} {n : BitVec 9}

/-! ## Directives -/

theorem getIoRegisters_stale (b : PicoGpuBinary) (ioType : IoType) :
    (b.stale dwords text n).getIoRegisters ioType = b.getIoRegisters ioType := by
  cases ioType <;> rfl

theorem addError_stale (b : PicoGpuBinary) (s : String) :
    (b.stale dwords text n).addError s = (b.addError s).stale dwords text n := by
  simp only [addError, stale, String.append_assoc]

theorem setIoRegisters_stale (b : PicoGpuBinary) (io : InputOutputRegisters) (ioType : IoType) :
    (b.stale dwords text n).setIoRegisters io ioType =
      (b.setIoRegisters io ioType).stale dwords text n := by
  cases ioType <;> rfl

theorem setUsage_stale (b : PicoGpuBinary) (ioType : IoType) (index : Fin 3)
    (usage : InputOutputRegisterUsage) :
    (b.stale dwords text n).setUsage ioType index usage =
      (b.setUsage ioType index usage).stale dwords text n := by
  cases ioType <;> rfl

theorem storeInputOutput_stale (b : PicoGpuBinary) (ioType : IoType) :
    (b.stale dwords text n).storeInputOutput ioType =
      (b.storeInputOutput ioType).stale dwords text n := by
  cases ioType <;> rfl

theorem storeProgramType_stale (b : PicoGpuBinary) (programType : ProgramType) :
    (b.stale dwords text n).storeProgramType programType =
      (b.storeProgramType programType).stale dwords text n := rfl

theorem encodeDirectiveInputOutput_stale (reg : RegisterIndex) (mask : Dword) (ioType : IoType)
    (b : PicoGpuBinary) :
    (b.stale dwords text n).encodeDirectiveInputOutput reg mask ioType =
      stale dwords text n <$> b.encodeDirectiveInputOutput reg mask ioType := by
  simp only [encodeDirectiveInputOutput, getIoRegisters_stale]
  split
  · rfl
  split
  · rfl
  split
  · rw [map_ok, addError_stale]
  split
  · rw [map_ok, addError_stale]
  · next hfree =>
    simp only [hfree, and_false, if_false, Bool.false_eq_true]
    split
    · rw [map_ok, addError_stale]
    · rw [map_ok, setIoRegisters_stale]

theorem encodeDirectiveShaderType_stale (programType : ProgramType) (b : PicoGpuBinary) :
    (b.stale dwords text n).encodeDirectiveShaderType programType =
      (b.encodeDirectiveShaderType programType).stale dwords text n := by
  simp only [encodeDirectiveShaderType]
  show (if b.programType.isSome then _ else _) = _
  split
  · exact addError_stale b _
  · rfl

theorem encodeDirectiveUndefinedRegs_stale (b : PicoGpuBinary) :
    (b.stale dwords text n).encodeDirectiveUndefinedRegs =
      b.encodeDirectiveUndefinedRegs.stale dwords text n := by
  simp only [encodeDirectiveUndefinedRegs]
  show (if b.undefinedRegs then _ else _) = _
  split
  · exact addError_stale b _
  · rfl

theorem finalizeInputOutputDirectives_stale (ioType : IoType) (b : PicoGpuBinary) :
    (b.stale dwords text n).finalizeInputOutputDirectives ioType =
      stale dwords text n <$> b.finalizeInputOutputDirectives ioType := by
  have hvs : (b.stale dwords text n).isVs = b.isVs := rfl
  have hfs : (b.stale dwords text n).isFs = b.isFs := rfl
  have hname : (b.stale dwords text n).getShaderTypeName = b.getShaderTypeName := rfl
  have hinputs : (b.stale dwords text n).inputs = b.inputs := rfl
  simp only [finalizeInputOutputDirectives, getIoRegisters_stale, hvs, hfs, hname, hinputs]
  split
  · rw [map_ok, addError_stale]
  split
  · split
    · rw [map_ok, addError_stale]
    split
    · rw [map_ok, addError_stale]
    split
    · rfl
    · rw [map_ok, setUsage_stale, storeInputOutput_stale]
  split
  · split
    · rw [map_ok, addError_stale]
    split
    · rw [map_ok, addError_stale]
    split
    · rfl
    · rw [setUsage_stale, encodeDirectiveInputOutput_stale]
      cases encodeDirectiveInputOutput (b.inputs.regs 0).index 0b1000 .output
          (b.setUsage ioType 0 .fixed) with
      | error e => rfl
      | ok b1 =>
        simp only [map_ok, ok_bind]
        rw [setUsage_stale, storeInputOutput_stale]
        rfl
  · rw [map_ok, storeInputOutput_stale]

/-- A call that only changes what is not stale. -/
theorem eq_stale_of_map {x : Except FatalError PicoGpuBinary} {c c' : PicoGpuBinary}
    (h : x = .ok c) (h' : stale dwords text n <$> x = .ok c') : c' = c.stale dwords text n := by
  rw [h, map_ok] at h'
  exact (Except.ok.inj h').symm

/-! ## Instructions -/

theorem append_stale {b c c' : PicoGpuBinary} {new : List Dword} (h : b.append new = .ok c)
    (h' : (b.stale dwords text n).append new = .ok c') : c' = c.stale dwords text n := by
  obtain ⟨rfl, -⟩ := append_ok h
  obtain ⟨rfl, -⟩ := append_ok h'
  simp only [stale, List.append_assoc]

theorem encode_stale {b c c' : PicoGpuBinary} {i : Instruction} (h : encode i b = .ok c)
    (h' : encode i (b.stale dwords text n) = .ok c') : c' = c.stale dwords text n :=
  append_stale (encode_ok h).1 (encode_ok h').1

theorem encodeAll_stale (instructions : List Instruction) {b c c' : PicoGpuBinary}
    (h : encodeAll instructions b = .ok c)
    (h' : encodeAll instructions (b.stale dwords text n) = .ok c') :
    c' = c.stale dwords text n := by
  induction instructions generalizing b with
  | nil =>
    cases h
    cases h'
    rfl
  | cons i instructions ih =>
    unfold encodeAll at h h'
    rw [List.foldlM_cons] at h h'
    obtain ⟨b1, h1, h⟩ := bind_ok.mp h
    obtain ⟨b1', h1', h'⟩ := bind_ok.mp h'
    obtain rfl := encode_stale h1 h1'
    exact ih h h'

/-- The preamble depends on the collected inputs alone. -/
theorem finalizeDirectives_stale {b c c' : PicoGpuBinary} (h : b.finalizeDirectives = .ok c)
    (h' : (b.stale dwords text n).finalizeDirectives = .ok c') : c' = c.stale dwords text n := by
  cases htype : b.programType with
  | none =>
    have htype' : (b.stale dwords text n).programType = none := htype
    rw [finalizeDirectives_untyped htype] at h
    rw [finalizeDirectives_untyped htype'] at h'
    cases h
    cases h'
    exact addError_stale b _
  | some programType =>
    have htype' : (b.stale dwords text n).programType = some programType := htype
    obtain ⟨b1, b2, b3, b4, b5, h1, h2, h3, h4, h5, h⟩ := finalizeDirectives_steps htype h
    obtain ⟨b1', b2', b3', b4', b5', h1', h2', h3', h4', h5', h'⟩ :=
      finalizeDirectives_steps htype' h'
    rw [storeProgramType_stale, finalizeInputOutputDirectives_stale] at h1'
    obtain rfl := eq_stale_of_map h1 h1'
    rw [finalizeInputOutputDirectives_stale] at h2'
    obtain rfl := eq_stale_of_map h2 h2'
    rw [finalizeInputOutputDirectives_stale] at h3'
    obtain rfl := eq_stale_of_map h3 h3'
    have h4eq : b4' = b4.stale dwords text n := by
      rw [show (b3.stale dwords text n).programType = b3.programType from rfl] at h4'
      split at h4
      · next hfs =>
        rw [if_pos hfs] at h4'
        obtain ⟨is, his, h4⟩ := bind_ok.mp h4
        obtain ⟨is', his', h4'⟩ := bind_ok.mp h4'
        rw [show (b3.stale dwords text n).inputs = b3.inputs from rfl, his] at his'
        cases his'
        exact encodeAll_stale is h4 h4'
      · next hfs =>
        rw [if_neg hfs] at h4'
        cases h4
        cases h4'
        rfl
    subst h4eq
    obtain rfl := append_stale h5 h5'
    rw [show (b5.stale dwords text n).undefinedRegs = b5.undefinedRegs from rfl] at h'
    split at h
    · next hregs =>
      rw [if_pos hregs] at h'
      cases h
      cases h'
      rfl
    · next hregs =>
      rw [if_neg hregs] at h'
      exact append_stale h h'

theorem finalizeInstructions_stale {b c c' : PicoGpuBinary} (h : b.finalizeInstructions = .ok c)
    (h' : (b.stale dwords text n).finalizeInstructions = .ok c') :
    ∃ n', c' = c.stale dwords text n' := by
  obtain ⟨b1, h1, h⟩ := bind_ok.mp h
  obtain ⟨b1', h1', h'⟩ := bind_ok.mp h'
  have heq : b1' = b1.stale dwords text n := by
    rw [show (b.stale dwords text n).programType = b.programType from rfl] at h1'
    split at h1
    · next htype =>
      exact nomatch h1
    · next htype =>
      rw [htype] at h1'
      cases h1
      cases h1'
      rfl
    · next htype =>
      rw [htype] at h1'
      exact append_stale h1 h1'
  subst heq
  cases h
  cases h'
  exact ⟨_, rfl⟩

end

end PicoGpuBinary

/-! ## Runs -/

namespace AssemblerCall
open PicoGpuBinary

variable {dwords : Nat} {text : String} {n : BitVec 9}

theorem perform_stale {call : AssemblerCall} {b c c' : PicoGpuBinary}
    (h : call.perform b = .ok c) (h' : call.perform (b.stale dwords text n) = .ok c') :
    ∃ n', c' = c.stale dwords text n' := by
  cases call with
  | encodeDirectiveInputOutput reg mask ioType =>
    have h' := (encodeDirectiveInputOutput_stale reg mask ioType b).symm.trans h'
    exact ⟨n, eq_stale_of_map h h'⟩
  | encodeDirectiveShaderType programType =>
    cases h
    cases h'
    exact ⟨n, encodeDirectiveShaderType_stale programType b⟩
  | encodeDirectiveUndefinedRegs =>
    cases h
    cases h'
    exact ⟨n, encodeDirectiveUndefinedRegs_stale b⟩
  | finalizeDirectives => exact ⟨n, finalizeDirectives_stale h h'⟩
  | encode i => exact ⟨n, encode_stale h h'⟩
  | finalizeInstructions => exact finalizeInstructions_stale h h'

theorem performAll_stale (calls : List AssemblerCall) (n : BitVec 9) {b c c' : PicoGpuBinary}
    (h : performAll calls b = .ok c)
    (h' : performAll calls (b.stale dwords text n) = .ok c') :
    ∃ n', c' = c.stale dwords text n' := by
  induction calls generalizing b n with
  | nil =>
    cases h
    cases h'
    exact ⟨n, rfl⟩
  | cons call calls ih =>
    unfold performAll at h h'
    rw [List.foldlM_cons] at h h'
    obtain ⟨b1, h1, h⟩ := bind_ok.mp h
    obtain ⟨b1', h1', h'⟩ := bind_ok.mp h'
    obtain ⟨n1, rfl⟩ := perform_stale h1 h1'
    exact ih n1 h h'

end AssemblerCall

/-! ## What callers see -/

/-- What can be read of a binary from outside. -/
structure SameResult (b b' : PicoGpuBinary) : Prop where
  getData : b'.getData = b.getData
  hasError : b'.hasError = b.hasError
  getError : b'.error = b.error
  getVsCustomInputComponents : b'.getVsCustomInputComponents = b.getVsCustomInputComponents
  getVsPsCustomComponents : b'.getVsPsCustomComponents = b.getVsPsCustomComponents
  getUniforms : b'.getUniforms = b.getUniforms

theorem SameResult.refl (b : PicoGpuBinary) : SameResult b b := ⟨rfl, rfl, rfl, rfl, rfl, rfl⟩

/-- Stale dwords and a stale text are seen. -/
theorem not_stale_of_sameResult {dwords : Nat} {text : String} {n : BitVec 9} {b : PicoGpuBinary}
    (h : SameResult b (b.stale dwords text n)) : dwords = 0 ∧ text = "" := by
  constructor
  · have hlen := congrArg List.length h.getData
    simp only [PicoGpuBinary.getData, PicoGpuBinary.stale, List.length_append,
      CommandStoreIsa.raw_length, List.length_replicate] at hlen
    omega
  · have herror : text ++ b.error = b.error := h.getError
    have hlen := congrArg String.length herror
    rw [String.length_append] at hlen
    exact String.length_eq_zero_iff.mp (by omega)

/-- **A program that goes through on a new binary gives the same result on a reset one
    exactly when the calls before the reset neither added to its data nor wrote an
    error.** -/
theorem reset_restores_iff (b : PicoGpuBinary) {calls : List AssemblerCall} {o : PicoGpuBinary}
    (h : AssemblerCall.performAll calls .new = .ok o) :
    (∃ o', AssemblerCall.performAll calls b.reset = .ok o' ∧ SameResult o o') ↔
      b.code = [] ∧ b.error = "" := by
  constructor
  · rintro ⟨o', h', hsame⟩
    rw [PicoGpuBinary.reset_eq_stale] at h'
    obtain ⟨n, rfl⟩ := AssemblerCall.performAll_stale calls 0 h h'
    obtain ⟨hcode, herror⟩ := not_stale_of_sameResult hsame
    exact ⟨List.length_eq_zero_iff.mp hcode, herror⟩
  · rintro ⟨hcode, herror⟩
    rw [PicoGpuBinary.reset_eq_new hcode herror]
    exact ⟨o, h, SameResult.refl o⟩

/-- A vertex shader that traps. -/
def trapCalls : List AssemblerCall :=
  [.encodeDirectiveShaderType .vertexShader, .encode ⟨.trap, .nullary⟩, .finalizeInstructions]

/-- The type and the input of a fragment shader. -/
def inputCalls : List AssemblerCall :=
  [.encodeDirectiveShaderType .fragmentShader, .encodeDirectiveInputOutput 2 0b1100 .input]

/-- The calls before the reset are directives, which have put nothing into the data. -/
theorem reset_restores_new : ∃ b, AssemblerCall.performAll inputCalls .new = .ok b ∧
    b.programType = some .fragmentShader ∧ b.inputs.usedRegsCount = 1 ∧
    ∃ o', AssemblerCall.performAll trapCalls b.reset = .ok o' ∧
      SameResult { PicoGpuBinary.new with
        programType := some .vertexShader
        header := { CommandStoreIsa.zero with programLength := 1 }
        code := [31] } o' :=
  ⟨_, rfl, rfl, rfl, (reset_restores_iff _ rfl).mpr ⟨rfl, rfl⟩⟩

/-- The calls before the reset are a directive section without a type, which is an
    error, and the same shader: afterwards `data` has a zero dword in front of the
    program and the error is reported again. -/
theorem reset_keeps_stale_data : ∃ b o o',
    AssemblerCall.performAll (.finalizeDirectives :: trapCalls) .new = .ok b ∧
    AssemblerCall.performAll trapCalls .new = .ok o ∧
    AssemblerCall.performAll trapCalls b.reset = .ok o' ∧
    o.getData = [4, 0, 0, 31] ∧ o'.getData = [8, 0, 0, 0, 31] ∧
    o.hasError = false ∧ o'.hasError = true :=
  ⟨_, _, _, rfl, rfl, rfl, rfl, rfl, rfl, rfl⟩

end PicoGpu
