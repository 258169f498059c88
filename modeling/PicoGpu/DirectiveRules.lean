import Mathlib.Data.List.Perm.Subperm
import PicoGpu.FragmentDirectives
import PicoGpu.Parser

/- The documented rules for the directives of a shader. The error stream only grows,
   so a directive section that ends without an error had none at any of its actions:
   each directive then added its register to the table of its kind, and the calls that
   finalize the tables have taken the branch that accepts. What the rules ask beyond
   that is whatever no action checks. -/
namespace PicoGpu

/-! ## Errors -/

namespace PicoGpuBinary

/-- The error stream of `b'` continues the one of `b`. -/
def Continues (b b' : PicoGpuBinary) : Prop := ∃ text, b'.error = b.error ++ text

theorem Continues.refl (b : PicoGpuBinary) : b.Continues b := ⟨"", by simp⟩

theorem Continues.trans {b b1 b2 : PicoGpuBinary} (h1 : b.Continues b1) (h2 : b1.Continues b2) :
    b.Continues b2 := by
  obtain ⟨text1, h1⟩ := h1
  obtain ⟨text2, h2⟩ := h2
  exact ⟨text1 ++ text2, by rw [h2, h1, String.append_assoc]⟩

theorem Continues.clean {b b' : PicoGpuBinary} (h : b.Continues b') (hb' : b'.error = "") :
    b.error = "" := by
  obtain ⟨text, h⟩ := h
  rw [h] at hb'
  exact (String.append_eq_empty_iff.mp hb').1

theorem continues_addError (b : PicoGpuBinary) (text : String) : b.Continues (b.addError text) :=
  ⟨text, rfl⟩

/-- A message leaves an error. -/
theorem addError_clean {b : PicoGpuBinary} {text : String} (h : (b.addError text).error = "") :
    text = "" :=
  (String.append_eq_empty_iff.mp h).2

/-- A directive for a register that leaves no error has added the register. -/
theorem encodeDirectiveInputOutput_clean {reg : RegisterIndex} {mask : Dword} {ioType : IoType}
    {b b' : PicoGpuBinary} (h : b.encodeDirectiveInputOutput reg mask ioType = .ok b')
    (hb' : b'.error = "") :
    mask ∈ prefixMasks ∧ isBitSet (b.getIoRegisters ioType).usedRegsMask reg = false ∧
      (b.getIoRegisters ioType).usedRegsCount ≠ 3 ∧
      b' = b.setIoRegisters ((b.getIoRegisters ioType).add (reg, mask)) ioType := by
  rcases encodeDirectiveInputOutput_inv h with ⟨text, htext, rfl⟩ | ⟨hmask, hfree, hmax, rfl⟩
  · exact absurd (addError_clean hb') htext
  · exact ⟨by simpa [prefixMasks] using hmask, hfree, hmax, rfl⟩

theorem finalizeUniform_clean {b b' : PicoGpuBinary}
    (h : b.finalizeInputOutputDirectives .uniform = .ok b') :
    b' = b.storeInputOutput .uniform := by
  unfold finalizeInputOutputDirectives at h
  simp only [reduceCtorEq, false_and, or_self, if_false] at h
  cases h
  rfl

theorem finalizeInput_vertex {b b' : PicoGpuBinary} (htype : b.programType = some .vertexShader)
    (h : b.finalizeInputOutputDirectives .input = .ok b') (hb' : b'.error = "") :
    b.inputs.usedRegsCount ≠ 0 ∧ b' = b.storeInputOutput .input := by
  have hvs : b.isVs = true := by simp [isVs, htype]
  have hfs : b.isFs = false := by simp [isFs, htype]
  unfold finalizeInputOutputDirectives at h
  simp only [hvs, hfs, true_and, reduceCtorEq, false_and, and_false, or_self, if_false,
    Bool.false_eq_true] at h
  split at h
  · cases h
    exact absurd (addError_clean hb') (by simp)
  next hpos =>
  cases h
  exact ⟨hpos, rfl⟩

/-- The first output of a vertex shader and the first input of a fragment shader. -/
theorem finalizePosition_clean {b b' : PicoGpuBinary} {ioType : IoType}
    (hkind : (ioType = .output ∧ b.isVs = true) ∨ (ioType = .input ∧ b.isFs = true))
    (h : b.finalizeInputOutputDirectives ioType = .ok b') (hb' : b'.error = "") :
    (b.getIoRegisters ioType).usedRegsCount ≠ 0 ∧
      ((b.getIoRegisters ioType).regs 0).componentsCount = 4 ∧
      b' = (b.setUsage ioType 0 .fixed).storeInputOutput ioType := by
  have hvs : ¬ (ioType = .input ∧ b.isVs = true ∧ (b.getIoRegisters ioType).usedRegsCount = 0) := by
    rintro ⟨rfl, hvs, -⟩
    obtain ⟨hio, -⟩ | ⟨-, hfs⟩ := hkind
    · cases hio
    · rw [isVs, decide_eq_true_eq] at hvs
      rw [isFs, hvs] at hfs
      cases hfs
  unfold finalizeInputOutputDirectives at h
  simp only [hvs, hkind, if_false, if_true] at h
  split at h
  · cases h
    exact absurd (addError_clean hb') (by simp)
  next hpos =>
  split at h
  · cases h
    exact absurd (addError_clean hb') (by simp)
  next hcomponents =>
  split at h
  · cases h
  cases h
  exact ⟨hpos, Classical.not_not.mp hcomponents, rfl⟩

/-- The binary with the depth as one more output. -/
def addDepth (b : PicoGpuBinary) : PicoGpuBinary :=
  let b1 := b.setUsage .output 0 .fixed
  (b1.setIoRegisters (b1.outputs.add ((b.inputs.regs 0).index, 0b1000)) .output).setUsage
    .output 1 .internal

theorem finalizeOutput_fragmentClean {b b' : PicoGpuBinary}
    (htype : b.programType = some .fragmentShader)
    (h : b.finalizeInputOutputDirectives .output = .ok b') (hb' : b'.error = "") :
    b.outputs.usedRegsCount = 1 ∧ (b.outputs.regs 0).componentsCount = 4 ∧
      isBitSet b.outputs.usedRegsMask (b.inputs.regs 0).index = false ∧
      b' = b.addDepth.storeInputOutput .output := by
  have hvs : b.isVs = false := by simp [isVs, htype]
  have hfs : b.isFs = true := by simp [isFs, htype]
  unfold finalizeInputOutputDirectives at h
  simp only [hvs, hfs, and_false, and_true, or_self, false_and, if_false,
    if_true, reduceCtorEq, Bool.false_eq_true] at h
  split at h
  · cases h
    exact absurd (addError_clean hb') (by simp)
  next hcount =>
  split at h
  · cases h
    exact absurd (addError_clean hb') (by simp)
  next hcomponents =>
  split at h
  · cases h
  obtain ⟨b1, h1, h⟩ := bind_ok.mp h
  cases h
  obtain ⟨-, hfree, -, rfl⟩ := encodeDirectiveInputOutput_clean h1 hb'
  exact ⟨Classical.not_not.mp hcount, Classical.not_not.mp hcomponents, hfree, rfl⟩

theorem finalizeInputOutputDirectives_continues {b b' : PicoGpuBinary} {ioType : IoType}
    (h : b.finalizeInputOutputDirectives ioType = .ok b') : b.Continues b' := by
  have hset : ∀ (b : PicoGpuBinary) (io : InputOutputRegisters) (ioType : IoType),
      (b.setIoRegisters io ioType).error = b.error := by
    intro b io ioType
    cases ioType <;> rfl
  unfold finalizeInputOutputDirectives at h
  dsimp only at h
  split at h
  · cases h
    exact continues_addError b _
  split at h
  · split at h
    · cases h
      exact continues_addError b _
    split at h
    · cases h
      exact continues_addError b _
    split at h
    · exact nomatch h
    cases h
    refine ⟨"", ?_⟩
    show (b.setUsage ioType 0 .fixed).error = _
    rw [setUsage, hset, String.append_empty]
  split at h
  · split at h
    · cases h
      exact continues_addError b _
    split at h
    · cases h
      exact continues_addError b _
    split at h
    · exact nomatch h
    -- the depth output: the error text is that of the call that adds the register
    obtain ⟨b1, h1, h⟩ := bind_ok.mp h
    cases h
    have herror : ((b1.setUsage ioType 1 .internal).storeInputOutput ioType).error = b1.error :=
      hset _ _ _
    have hfixed : (b.setUsage ioType 0 .fixed).error = b.error := hset _ _ _
    obtain ⟨text, rfl⟩ | rfl := encodeDirectiveInputOutput_cases h1
    · exact ⟨text, by rw [herror, addError, hfixed]⟩
    · exact ⟨"", by rw [herror, hset, hfixed, String.append_empty]⟩
  · cases h
    exact ⟨"", by rw [String.append_empty]; rfl⟩

end PicoGpuBinary

/-! ## What the directives declare -/

namespace Directive

/-- The register and the mask that a directive of one kind declares. -/
def declares (ioType : IoType) : Directive → Option (RegisterIndex × RegMask)
  | input reg mask => if ioType = .input then some (reg, mask) else none
  | output reg mask => if ioType = .output then some (reg, mask) else none
  | uniform reg mask => if ioType = .uniform then some (reg, mask) else none
  | _ => none

def shaderType : Directive → Option ProgramType
  | vertexShader => some .vertexShader
  | fragmentShader => some .fragmentShader
  | _ => none

end Directive

/-- The directives of one kind, in their order. -/
def declared (ioType : IoType) (directives : List Directive) : List (RegisterIndex × RegMask) :=
  directives.filterMap (Directive.declares ioType)

/-- What the actions pass on of a declaration. -/
def passed (declaration : RegisterIndex × RegMask) : RegisterIndex × Dword :=
  (declaration.1, constructMask declaration.2.components)

/-- What holds of a binary between directives that left no error. -/
structure Declared (directives : List Directive) (b : PicoGpuBinary) : Prop where
  registers : ∀ ioType, b.getIoRegisters ioType = collected ((declared ioType directives).map passed)
  collectable : ∀ ioType, Collectable ((declared ioType directives).map passed)
  distinct : ∀ ioType, ∀ d ∈ declared ioType directives, hasDuplicates d.2.components = false
  shaderType : directives.filterMap Directive.shaderType = b.programType.toList
  header : b.header = .zero
  code : b.code = []

theorem declared_append (ioType : IoType) (directives : List Directive) (d : Directive) :
    declared ioType (directives ++ [d]) =
      declared ioType directives ++ (d.declares ioType).toList := by
  have hlast : [d].filterMap (Directive.declares ioType) = (d.declares ioType).toList := by
    rw [List.filterMap_cons, List.filterMap_nil]
    cases d.declares ioType <;> rfl
  rw [declared, List.filterMap_append, hlast]
  rfl

theorem Collectable.append {inputs : List (RegisterIndex × Dword)} (h : Collectable inputs)
    {input : RegisterIndex × Dword} (hmask : input.2 ∈ prefixMasks)
    (hfree : isBitSet (collected inputs).usedRegsMask input.1 = false)
    (hcount : (collected inputs).usedRegsCount ≠ 3) : Collectable (inputs ++ [input]) := by
  obtain ⟨hle, hnd, hmasks⟩ := h
  rw [collected_count] at hcount
  refine ⟨?_, ?_, fun i hi => ?_⟩
  · rw [List.length_append, List.length_singleton]
    omega
  · rw [List.map_append, List.nodup_append]
    refine ⟨hnd, by simp, fun r hr r' hr' hrr => ?_⟩
    rw [List.map_singleton, List.mem_singleton] at hr'
    subst hrr hr'
    rw [collected_isBitSet.mpr hr] at hfree
    exact nomatch hfree
  · obtain hi | hi := List.mem_append.mp hi
    · exact hmasks i hi
    · rw [List.mem_singleton] at hi
      rw [hi]
      exact hmask

theorem hasError_clean {b : PicoGpuBinary} (h : b.hasError = false) : b.error = "" := by
  simpa [PicoGpuBinary.hasError] using h

theorem inputOutput_clean {ioType : IoType} {reg : RegisterIndex} {mask : RegMask}
    {b b' : PicoGpuBinary} (h : Directive.inputOutput ioType reg mask b = .ok b') :
    hasDuplicates mask.components = false ∧
      b.encodeDirectiveInputOutput reg (constructMask mask.components) ioType = .ok b' ∧
      b'.error = "" := by
  obtain ⟨dword, hmask, h⟩ := bind_ok.mp h
  obtain ⟨b1, h1, h⟩ := bind_ok.mp h
  obtain ⟨rfl, hclean⟩ := validateBinary_ok h
  simp only [RegMask.action] at hmask
  split at hmask
  · cases hmask
  next hdistinct =>
  cases hmask
  exact ⟨by simpa using hdistinct, calling_ok h1, hasError_clean hclean⟩

theorem getIoRegisters_set (b : PicoGpuBinary) (io : InputOutputRegisters) (ioType other : IoType) :
    (b.setIoRegisters io ioType).getIoRegisters other =
      if other = ioType then io else b.getIoRegisters other := by
  cases ioType <;> cases other <;> rfl

/-- A register that is added goes to the table of its kind. -/
theorem declared_add {directives : List Directive} {b : PicoGpuBinary} {d : Directive}
    {ioType : IoType} {reg : RegisterIndex} {mask : RegMask} (hb : Declared directives b)
    (hdeclares : ∀ other, d.declares other = if other = ioType then some (reg, mask) else none)
    (hshader : d.shaderType = none) (hdistinct : hasDuplicates mask.components = false)
    (hmask : constructMask mask.components ∈ prefixMasks)
    (hfree : isBitSet (b.getIoRegisters ioType).usedRegsMask reg = false)
    (hcount : (b.getIoRegisters ioType).usedRegsCount ≠ 3) :
    Declared (directives ++ [d]) (b.setIoRegisters
      ((b.getIoRegisters ioType).add (reg, constructMask mask.components)) ioType) := by
  rw [hb.registers] at hfree hcount
  -- only the list of this kind gets longer
  have happend : ∀ other, (declared other (directives ++ [d])).map passed =
      if other = ioType then (declared ioType directives).map passed ++
        [(reg, constructMask mask.components)] else (declared other directives).map passed := by
    intro other
    rw [declared_append, hdeclares, List.map_append]
    by_cases ho : other = ioType
    · subst ho
      rw [if_pos rfl, if_pos rfl]
      rfl
    · rw [if_neg ho, if_neg ho]
      exact List.append_nil _
  refine ⟨fun other => ?_, fun other => ?_, fun other e he => ?_, ?_, ?_, ?_⟩
  · rw [happend, getIoRegisters_set]
    by_cases ho : other = ioType
    · rw [if_pos ho, if_pos ho, collected_append, hb.registers]
    · rw [if_neg ho, if_neg ho, hb.registers]
  · rw [happend]
    by_cases ho : other = ioType
    · rw [if_pos ho]
      exact (hb.collectable ioType).append hmask hfree hcount
    · rw [if_neg ho]
      exact hb.collectable other
  · rw [declared_append, hdeclares] at he
    obtain he | he := List.mem_append.mp he
    · exact hb.distinct other e he
    · split at he
      · rw [Option.toList_some, List.mem_singleton] at he
        rw [he]
        exact hdistinct
      · exact absurd he List.not_mem_nil
  · rw [List.filterMap_append, List.filterMap_cons, hshader, List.filterMap_nil, List.append_nil,
      hb.shaderType]
    cases ioType <;> rfl
  · cases ioType <;> exact hb.header
  · cases ioType <;> exact hb.code

/-- A directive for a register goes to the table of its kind. -/
theorem declared_register {directives : List Directive} {b b' : PicoGpuBinary} {d : Directive}
    {ioType : IoType} {reg : RegisterIndex} {mask : RegMask} (hb : Declared directives b)
    (hdeclares : ∀ other, d.declares other = if other = ioType then some (reg, mask) else none)
    (hshader : d.shaderType = none) (h : Directive.inputOutput ioType reg mask b = .ok b') :
    Declared (directives ++ [d]) b' := by
  obtain ⟨hdistinct, hcall, hclean⟩ := inputOutput_clean h
  obtain ⟨hmask, hfree, hcount, rfl⟩ :=
    PicoGpuBinary.encodeDirectiveInputOutput_clean hcall hclean
  exact declared_add hb hdeclares hshader hdistinct hmask hfree hcount

/-- A directive without a register. -/
theorem declared_other {directives : List Directive} {b b' : PicoGpuBinary} {d : Directive}
    (hb : Declared directives b) (hdeclares : ∀ other, d.declares other = none)
    (hregisters : ∀ other, b'.getIoRegisters other = b.getIoRegisters other)
    (hshader : b'.programType.toList = b.programType.toList ++ d.shaderType.toList)
    (hheader : b'.header = b.header) (hcode : b'.code = b.code) :
    Declared (directives ++ [d]) b' := by
  have happend : ∀ other, declared other (directives ++ [d]) = declared other directives := by
    intro other
    rw [declared_append, hdeclares]
    exact List.append_nil _
  have hlast : [d].filterMap Directive.shaderType = d.shaderType.toList := by
    rw [List.filterMap_cons, List.filterMap_nil]
    cases d.shaderType <;> rfl
  refine ⟨fun other => ?_, fun other => ?_, fun other => ?_, ?_, hheader.trans hb.header,
    hcode.trans hb.code⟩
  · rw [happend, hregisters, hb.registers]
  · rw [happend]
    exact hb.collectable other
  · rw [happend]
    exact hb.distinct other
  · rw [List.filterMap_append, hlast, hshader, hb.shaderType]

theorem declared_shaderType {directives : List Directive} {b : PicoGpuBinary}
    {d : Directive} {programType : ProgramType} (hb : Declared directives b)
    (hdeclares : ∀ other, d.declares other = none) (hshader : d.shaderType = some programType)
    (hclean : (b.encodeDirectiveShaderType programType).error = "") :
    Declared (directives ++ [d]) (b.encodeDirectiveShaderType programType) := by
  unfold PicoGpuBinary.encodeDirectiveShaderType at hclean ⊢
  split at hclean
  · exact absurd (PicoGpuBinary.addError_clean hclean) (by decide)
  next hnone =>
  rw [if_neg hnone]
  have hempty : b.programType = none := by simpa using hnone
  refine declared_other hb hdeclares (fun other => ?_) ?_ rfl rfl
  · cases other <;> rfl
  · rw [hshader, hempty]
    rfl

theorem declared_step {directives : List Directive} {b b' : PicoGpuBinary} {d : Directive}
    (hb : Declared directives b) (h : d.action b = .ok b') (hclean : b'.error = "") :
    Declared (directives ++ [d]) b' := by
  cases d with
  | input reg mask =>
    exact declared_register hb (fun other => by cases other <;> rfl) rfl h
  | output reg mask =>
    exact declared_register hb (fun other => by cases other <;> rfl) rfl h
  | uniform reg mask =>
    exact declared_register hb (fun other => by cases other <;> rfl) rfl h
  | vertexShader =>
    cases h
    exact declared_shaderType hb (fun other => rfl) rfl hclean
  | fragmentShader =>
    cases h
    exact declared_shaderType hb (fun other => rfl) rfl hclean
  | undefinedRegs =>
    obtain ⟨rfl, -⟩ := validateBinary_ok h
    unfold PicoGpuBinary.encodeDirectiveUndefinedRegs at hclean ⊢
    split at hclean
    · exact absurd (PicoGpuBinary.addError_clean hclean) (by decide)
    next hset =>
    rw [if_neg hset]
    refine declared_other hb (fun other => rfl) (fun other => ?_) ?_ rfl rfl
    · cases other <;> rfl
    · exact (List.append_nil _).symm

theorem action_continues {b b' : PicoGpuBinary} {d : Directive} (h : d.action b = .ok b') :
    b.Continues b' := by
  have hregister : ∀ {ioType reg mask}, Directive.inputOutput ioType reg mask b = .ok b' →
      b.Continues b' := by
    intro ioType reg mask h
    obtain ⟨-, hcall, hclean⟩ := inputOutput_clean h
    obtain ⟨-, -, -, rfl⟩ := PicoGpuBinary.encodeDirectiveInputOutput_clean hcall hclean
    refine ⟨"", ?_⟩
    rw [String.append_empty]
    cases ioType <;> rfl
  cases d with
  | input => exact hregister h
  | output => exact hregister h
  | uniform => exact hregister h
  | vertexShader | fragmentShader =>
    cases h
    unfold PicoGpuBinary.encodeDirectiveShaderType
    split
    · exact PicoGpuBinary.continues_addError b _
    · exact ⟨"", by rw [String.append_empty]⟩
  | undefinedRegs =>
    obtain ⟨rfl, -⟩ := validateBinary_ok h
    unfold PicoGpuBinary.encodeDirectiveUndefinedRegs
    split
    · exact PicoGpuBinary.continues_addError b _
    · exact ⟨"", by rw [String.append_empty]⟩

theorem declared_new : Declared [] .new where
  registers := by
    intro ioType
    cases ioType <;> rfl
  collectable := by
    intro ioType
    exact ⟨Nat.zero_le _, List.nodup_nil, fun i hi => absurd hi List.not_mem_nil⟩
  distinct := by
    intro ioType d hd
    exact absurd hd List.not_mem_nil
  shaderType := rfl
  header := rfl
  code := rfl

theorem declared_run (more : List Directive) {directives : List Directive} {b b' : PicoGpuBinary}
    (hb : Declared directives b) (h : more.foldlM (fun b d => d.action b) b = .ok b')
    (hclean : b'.error = "") : Declared (directives ++ more) b' := by
  -- an error stays, so without one at the end there was none on the way
  have hrun := @foldlM_inv _ _ _ _ (fun past b => b.error = "" → Declared past b)
    (fun hb h hclean => declared_step (hb ((action_continues h).clean hclean)) h hclean)
    more directives b b' (fun _ => hb) h
  exact hrun hclean

/-! ## What finalizing accepts -/

namespace PicoGpuBinary

/-- The tables are finalized one after the other, and instructions follow. -/
theorem finalizeDirectives_tables {b b' : PicoGpuBinary} {programType : ProgramType}
    (htype : b.programType = some programType) (h : b.finalizeDirectives = .ok b') :
    ∃ b1 b2 code, finalizeInputOutputDirectives .input (b.storeProgramType programType) = .ok b1 ∧
      finalizeInputOutputDirectives .output b1 = .ok b2 ∧
      b' = { b2.storeInputOutput .uniform with code := code } := by
  obtain ⟨b1, b2, b3, b4, b5, h1, h2, h3, h4, h5, h⟩ := finalizeDirectives_steps htype h
  have hb4 : ∃ code, b4 = { b3 with code := code } := by
    split at h4
    · obtain ⟨instructions, -, h4⟩ := bind_ok.mp h4
      exact ⟨_, (encodeAll_ok h4).1⟩
    · cases h4
      exact ⟨_, rfl⟩
  obtain ⟨code4, rfl⟩ := hb4
  obtain ⟨rfl, -⟩ := append_ok h5
  have hcode : ∃ code, b' = { b3 with code := code } := by
    split at h
    · cases h
      exact ⟨_, rfl⟩
    · exact ⟨_, (append_ok h).1⟩
  obtain ⟨code, rfl⟩ := hcode
  rw [finalizeUniform_clean h3]
  exact ⟨b1, b2, code, h1, h2, rfl⟩

theorem finalizeDirectives_clean {b b' : PicoGpuBinary} (h : b.finalizeDirectives = .ok b')
    (hb' : b'.error = "") : ∃ programType b1 b2 code, b.programType = some programType ∧
      finalizeInputOutputDirectives .input (b.storeProgramType programType) = .ok b1 ∧
      finalizeInputOutputDirectives .output b1 = .ok b2 ∧
      b' = { b2.storeInputOutput .uniform with code := code } ∧
      b1.error = "" ∧ b2.error = "" := by
  cases htype : b.programType with
  | none =>
    rw [finalizeDirectives_untyped htype] at h
    cases h
    exact absurd (addError_clean hb') (by decide)
  | some programType =>
    obtain ⟨b1, b2, code, h1, h2, rfl⟩ := finalizeDirectives_tables htype h
    have hb2 : b2.error = "" := hb'
    exact ⟨programType, b1, b2, code, rfl, h1, h2, rfl,
      (finalizeInputOutputDirectives_continues h2).clean hb2, hb2⟩

end PicoGpuBinary

namespace InputOutputRegisters

/-- A table of registers: those in use have components and differ, the others are empty. -/
structure WellFormed (io : InputOutputRegisters) : Prop where
  count : io.usedRegsCount ≤ 3
  used : ∀ i : Fin 3, i.val < io.usedRegsCount →
    1 ≤ (io.regs i).componentsCount ∧ (io.regs i).componentsCount ≤ 4
  unused : ∀ i : Fin 3, io.usedRegsCount ≤ i.val →
    (io.regs i).componentsCount = 0 ∧ (io.regs i).usage = .unknown
  distinct : ∀ i j : Fin 3, i.val < io.usedRegsCount → j.val < io.usedRegsCount →
    (io.regs i).index = (io.regs j).index → i = j

/-- The registers with another usage of one of them. -/
def withUsage (io : InputOutputRegisters) (index : Fin 3) (usage : InputOutputRegisterUsage) :
    InputOutputRegisters :=
  { io with regs := Function.update io.regs index { io.regs index with usage := usage } }

/-- The first register holds a position or a color, and the others are custom ones. -/
structure FixedFirst (io : InputOutputRegisters) : Prop where
  count : 1 ≤ io.usedRegsCount
  components : (io.regs 0).componentsCount = 4
  usage : (io.regs 0).usage = .fixed
  custom : ∀ i : Fin 3, 0 < i.val → i.val < io.usedRegsCount → (io.regs i).usage = .custom

theorem withUsage_same (io : InputOutputRegisters) (index i : Fin 3)
    (usage : InputOutputRegisterUsage) :
    ((io.withUsage index usage).regs i).componentsCount = (io.regs i).componentsCount ∧
      ((io.withUsage index usage).regs i).index = (io.regs i).index := by
  show ((Function.update io.regs index _) i).componentsCount = _ ∧
    ((Function.update io.regs index _) i).index = _
  by_cases hi : i = index
  · subst hi
    rw [Function.update_self]
    exact ⟨rfl, rfl⟩
  · rw [Function.update_of_ne hi]
    exact ⟨rfl, rfl⟩

theorem WellFormed.withUsage {io : InputOutputRegisters} (h : io.WellFormed) {index : Fin 3}
    (hindex : index.val < io.usedRegsCount) (usage : InputOutputRegisterUsage) :
    (io.withUsage index usage).WellFormed := by
  have hsame := fun i => withUsage_same io index i usage
  refine ⟨h.count, fun i hi => ?_, fun i hi => ?_, fun i j hi hj hij => ?_⟩
  · rw [(hsame i).1]
    exact h.used i hi
  · have hne : i ≠ index := by
      rintro rfl
      exact absurd hindex (Nat.not_lt.mpr hi)
    show ((Function.update io.regs index _) i).componentsCount = 0 ∧
      ((Function.update io.regs index _) i).usage = .unknown
    rw [Function.update_of_ne hne]
    exact h.unused i hi
  · rw [(hsame i).2, (hsame j).2] at hij
    exact h.distinct i j hi hj hij

end InputOutputRegisters

section
variable {inputs : List (RegisterIndex × Dword)}

theorem collected_custom (h : Collectable inputs) (i : Fin 3) (hi : i.val < inputs.length) :
    (collected inputs).regs i =
      ⟨inputs[i].1, .custom, inputs[i].2.setWidth 4, countBits inputs[i].2⟩ := by
  rw [collected_regs h.count]
  unfold collectedRegister
  rw [List.getElem?_eq_getElem hi]
  rfl

theorem collected_wellFormed (h : Collectable inputs) : (collected inputs).WellFormed := by
  have hcount := collected_count inputs
  refine ⟨by rw [hcount]; exact h.count, fun i hi => ?_, fun i hi => ?_, fun i j hi hj hij => ?_⟩
  · rw [hcount] at hi
    rw [collected_custom h i hi]
    exact prefixMask_count (h.masks _ (List.getElem_mem hi))
  · rw [hcount] at hi
    rw [collected_regs h.count]
    unfold collectedRegister
    rw [List.getElem?_eq_none hi]
    exact ⟨rfl, rfl⟩
  · rw [hcount] at hi hj
    rw [collected_custom h i hi, collected_custom h j hj] at hij
    have hi' : i.val < (inputs.map Prod.fst).length := by simpa using hi
    have hj' : j.val < (inputs.map Prod.fst).length := by simpa using hj
    refine Fin.ext ((@List.Nodup.getElem_inj_iff _ _ h.nodup i.val hi' j.val hj').mp ?_)
    simpa using hij

/-- The first of the collected registers is fixed when the table is finalized. -/
theorem fixedFirst_collected (h : Collectable inputs)
    (hpos : (collected inputs).usedRegsCount ≠ 0)
    (hcomponents : ((collected inputs).regs 0).componentsCount = 4) :
    ((collected inputs).withUsage 0 .fixed).FixedFirst where
  count := Nat.pos_of_ne_zero hpos
  components := ((collected inputs).withUsage_same 0 0 .fixed).1.trans hcomponents
  usage := by
    simp only [InputOutputRegisters.withUsage, Function.update_self]
  custom := by
    intro i h0 hi
    have hi : i.val < inputs.length := by
      rw [← collected_count inputs]
      exact hi
    have hne : i ≠ 0 := by
      rintro rfl
      exact absurd h0 (Nat.lt_irrefl _)
    simp only [InputOutputRegisters.withUsage, Function.update_of_ne hne]
    rw [collected_custom h i hi]

end

/-- What an assembly that left no error guarantees: the header describes the tables, and
    these are what the type of the shader asks for. -/
structure PicoGpuBinary.Accepted (b : PicoGpuBinary) : Prop where
  programType : b.programType = some b.header.programType
  commandType : b.header.commandType = .storeIsa
  inputsCount : b.header.inputsCount = intToNonZeroCount 2 b.inputs.usedRegsCount
  inputs : b.header.inputs = InputOutputRegisters.toFields b.inputs
  outputsCount : b.header.outputsCount = intToNonZeroCount 2 b.outputs.usedRegsCount
  outputs : b.header.outputs = InputOutputRegisters.toFields b.outputs
  uniformsCount : b.header.uniformsCount = BitVec.ofNat 3 b.uniforms.usedRegsCount
  uniforms : b.header.uniforms = InputOutputRegisters.toFields b.uniforms
  wellFormed : ∀ ioType, (b.getIoRegisters ioType).WellFormed
  hasInput : 1 ≤ b.inputs.usedRegsCount
  vertex : b.header.programType = .vertexShader → b.outputs.FixedFirst ∧
    ∀ i : Fin 3, i.val < b.inputs.usedRegsCount → (b.inputs.regs i).usage = .custom
  fragment : b.header.programType = .fragmentShader → b.inputs.FixedFirst ∧
    b.outputs.usedRegsCount = 2 ∧ (b.outputs.regs 0).componentsCount = 4 ∧
      (b.outputs.regs 1).componentsCount = 1

namespace PicoGpuBinary

theorem finalizeDirectives_vertex {directives : List Directive} {b b' : PicoGpuBinary}
    (hb : Declared directives b) (htype : b.programType = some .vertexShader)
    (h : b.finalizeDirectives = .ok b') (hclean : b'.error = "") :
    b.inputs.usedRegsCount ≠ 0 ∧ b.outputs.usedRegsCount ≠ 0 ∧
      (b.outputs.regs 0).componentsCount = 4 ∧ b'.Accepted := by
  obtain ⟨programType, b1, b2, code, hsome, h1, h2, rfl, hclean1, hclean2⟩ :=
    finalizeDirectives_clean h hclean
  rw [htype] at hsome
  cases hsome
  obtain ⟨hinputs, rfl⟩ := @finalizeInput_vertex (b.storeProgramType .vertexShader) b1
    htype h1 hclean1
  obtain ⟨houtputs, hcomponents, rfl⟩ := finalizePosition_clean
    (.inl ⟨rfl, by simp [isVs, storeInputOutput, storeProgramType, htype]⟩) h2 hclean2
  -- the tables as they were collected from the directives
  have hin : b.inputs = _ := hb.registers .input
  have hout : b.outputs = _ := hb.registers .output
  have huni : b.uniforms = _ := hb.registers .uniform
  have houtputs : b.outputs.usedRegsCount ≠ 0 := houtputs
  have hcomponents : (b.outputs.regs 0).componentsCount = 4 := hcomponents
  refine ⟨hinputs, houtputs, hcomponents, htype, ?_, rfl, rfl, rfl, rfl, rfl, rfl,
    fun ioType => ?_, Nat.pos_of_ne_zero hinputs, fun _ => ⟨?_, fun i hi => ?_⟩, fun hfs => ?_⟩
  · show b.header.commandType = .storeIsa
    rw [hb.header]
    rfl
  · cases ioType with
    | input =>
      show b.inputs.WellFormed
      rw [hin]
      exact collected_wellFormed (hb.collectable .input)
    | output =>
      show (b.outputs.withUsage 0 .fixed).WellFormed
      rw [hout] at houtputs ⊢
      exact (collected_wellFormed (hb.collectable .output)).withUsage
        (Nat.pos_of_ne_zero houtputs) .fixed
    | uniform =>
      show b.uniforms.WellFormed
      rw [huni]
      exact collected_wellFormed (hb.collectable .uniform)
  · show (b.outputs.withUsage 0 .fixed).FixedFirst
    rw [hout] at houtputs hcomponents ⊢
    exact fixedFirst_collected (hb.collectable .output) houtputs hcomponents
  · have hi : i.val < b.inputs.usedRegsCount := hi
    show (b.inputs.regs i).usage = .custom
    rw [hin] at hi ⊢
    rw [collected_count] at hi
    rw [collected_custom (hb.collectable .input) i hi]
  · have hfs : ProgramType.vertexShader = .fragmentShader := hfs
    cases hfs

/-- The outputs of a fragment shader: its color and the depth. -/
theorem addDepth_outputs {outputs : List (RegisterIndex × Dword)} {b : PicoGpuBinary}
    (hout : b.outputs = collected outputs) (hcollectable : Collectable outputs)
    (hcount : b.outputs.usedRegsCount = 1)
    (hcomponents : (b.outputs.regs 0).componentsCount = 4)
    (hfree : isBitSet b.outputs.usedRegsMask (b.inputs.regs 0).index = false) :
    b.addDepth.outputs.WellFormed ∧ b.addDepth.outputs.usedRegsCount = 2 ∧
      (b.addDepth.outputs.regs 0).componentsCount = 4 ∧
      (b.addDepth.outputs.regs 1).componentsCount = 1 := by
  have hone : Fin.ofNat 3 b.outputs.usedRegsCount = 1 := by rw [hcount]; rfl
  -- the first register keeps its place when the second one is added
  have hcomm : (b.outputs.withUsage 0 .fixed).add ((b.inputs.regs 0).index, 0b1000) =
      (b.outputs.add ((b.inputs.regs 0).index, 0b1000)).withUsage 0 .fixed := by
    unfold InputOutputRegisters.add InputOutputRegisters.withUsage
    simp only [hone]
    congr 1
    rw [Function.update_comm (by decide : (0 : Fin 3) ≠ 1),
      Function.update_of_ne (by decide : (0 : Fin 3) ≠ 1)]
  have hdepth : b.addDepth.outputs = ((b.outputs.add
      ((b.inputs.regs 0).index, 0b1000)).withUsage 0 .fixed).withUsage 1 .internal := by
    rw [← hcomm]
    rfl
  have hwell : (b.outputs.add ((b.inputs.regs 0).index, 0b1000)).WellFormed := by
    rw [hout] at hfree ⊢
    rw [← collected_append]
    refine collected_wellFormed (hcollectable.append (by simp [prefixMasks]) hfree ?_)
    rw [← hout, hcount]
    decide
  have hused : (b.outputs.add ((b.inputs.regs 0).index, 0b1000)).usedRegsCount = 2 := by
    show b.outputs.usedRegsCount + 1 = 2
    rw [hcount]
  rw [hdepth]
  refine ⟨?_, hused, ?_, ?_⟩
  · refine (hwell.withUsage ?_ _).withUsage ?_ _
    · rw [hused]
      decide
    · show 1 < b.outputs.usedRegsCount + 1
      omega
  · rw [(InputOutputRegisters.withUsage_same _ _ _ _).1,
      (InputOutputRegisters.withUsage_same _ _ _ _).1]
    show (Function.update b.outputs.regs (Fin.ofNat 3 b.outputs.usedRegsCount) _ 0).componentsCount
      = 4
    rw [hone, Function.update_of_ne (by decide : (0 : Fin 3) ≠ 1), hcomponents]
  · rw [(InputOutputRegisters.withUsage_same _ _ _ _).1,
      (InputOutputRegisters.withUsage_same _ _ _ _).1]
    show (Function.update b.outputs.regs (Fin.ofNat 3 b.outputs.usedRegsCount) _ 1).componentsCount
      = 1
    rw [hone, Function.update_self]
    dsimp only
    decide

/-- Only the outputs change. -/
theorem addDepth_same (b : PicoGpuBinary) :
    b.addDepth.header = b.header ∧ b.addDepth.inputs = b.inputs ∧
      b.addDepth.uniforms = b.uniforms ∧ b.addDepth.programType = b.programType :=
  ⟨rfl, rfl, rfl, rfl⟩

theorem accepted_fragment {b : PicoGpuBinary} (htype : b.programType = some .fragmentShader)
    (hprogram : b.header.programType = .fragmentShader) (hcommand : b.header.commandType = .storeIsa)
    (hinputsCount : b.header.inputsCount = intToNonZeroCount 2 b.inputs.usedRegsCount)
    (hinputs : b.header.inputs = InputOutputRegisters.toFields b.inputs)
    (hwell : b.inputs.WellFormed) (hfixed : b.inputs.FixedFirst) (huniforms : b.uniforms.WellFormed)
    (houtputs : b.outputs.WellFormed ∧ b.outputs.usedRegsCount = 2 ∧
      (b.outputs.regs 0).componentsCount = 4 ∧
      (b.outputs.regs 1).componentsCount = 1) (code : List Dword) :
    Accepted { (b.storeInputOutput .output).storeInputOutput .uniform with code := code } where
  programType := by
    show b.programType = some b.header.programType
    rw [htype, hprogram]
  commandType := hcommand
  inputsCount := hinputsCount
  inputs := hinputs
  outputsCount := rfl
  outputs := rfl
  uniformsCount := rfl
  uniforms := rfl
  wellFormed := by
    intro ioType
    cases ioType with
    | input => exact hwell
    | output => exact houtputs.1
    | uniform => exact huniforms
  hasInput := hfixed.count
  vertex := by
    intro hvs
    have hvs : b.header.programType = .vertexShader := hvs
    rw [hprogram] at hvs
    exact nomatch hvs
  fragment := fun _ => ⟨hfixed, houtputs.2⟩

theorem finalizeDirectives_fragmentClean {directives : List Directive} {b b' : PicoGpuBinary}
    (hb : Declared directives b) (htype : b.programType = some .fragmentShader)
    (h : b.finalizeDirectives = .ok b') (hclean : b'.error = "") :
    b.inputs.usedRegsCount ≠ 0 ∧ (b.inputs.regs 0).componentsCount = 4 ∧
      b.outputs.usedRegsCount = 1 ∧ (b.outputs.regs 0).componentsCount = 4 ∧ b'.Accepted := by
  obtain ⟨programType, b1, b2, code, hsome, h1, h2, rfl, hclean1, hclean2⟩ :=
    finalizeDirectives_clean h hclean
  rw [htype] at hsome
  cases hsome
  obtain ⟨hinputs, hposition, hb1⟩ := finalizePosition_clean
    (.inr ⟨rfl, by simp [isFs, storeProgramType, htype]⟩) h1 hclean1
  have hinputs : b.inputs.usedRegsCount ≠ 0 := hinputs
  have hposition : (b.inputs.regs 0).componentsCount = 4 := hposition
  have hin1 : b1.inputs = b.inputs.withUsage 0 .fixed := by rw [hb1]; rfl
  have hout1 : b1.outputs = b.outputs := by rw [hb1]; rfl
  have huni1 : b1.uniforms = b.uniforms := by rw [hb1]; rfl
  have htype1 : b1.programType = some .fragmentShader := by rw [hb1]; exact htype
  have hprogram1 : b1.header.programType = .fragmentShader := by rw [hb1]; rfl
  have hcommand1 : b1.header.commandType = .storeIsa := by
    rw [hb1]
    show b.header.commandType = _
    rw [hb.header]
    rfl
  -- what finalizing the inputs has written to the header stays there
  have hcount1 : b1.header.inputsCount = intToNonZeroCount 2 b1.inputs.usedRegsCount := by
    rw [hb1]
    rfl
  have hfields1 : b1.header.inputs = InputOutputRegisters.toFields b1.inputs := by
    rw [hb1]
    rfl
  obtain ⟨houtputs, hcolor, hfree, rfl⟩ := finalizeOutput_fragmentClean htype1 h2 hclean2
  have hdepth := addDepth_outputs (hout1.trans (hb.registers .output)) (hb.collectable .output)
    houtputs hcolor hfree
  have hin : b.inputs = _ := hb.registers .input
  have huni : b.uniforms = _ := hb.registers .uniform
  rw [hout1] at houtputs hcolor
  obtain ⟨hheaderD, hinD, huniD, htypeD⟩ := b1.addDepth_same
  refine ⟨hinputs, hposition, houtputs, hcolor, ?_⟩
  apply accepted_fragment (htypeD.trans htype1) (by rw [hheaderD, hprogram1])
    (by rw [hheaderD, hcommand1]) (by rw [hheaderD, hinD, hcount1])
    (by rw [hheaderD, hinD, hfields1]) ?_ ?_ ?_ hdepth code
  · rw [hinD, hin1]
    rw [hin] at hinputs ⊢
    exact (collected_wellFormed (hb.collectable .input)).withUsage
      (Nat.pos_of_ne_zero hinputs) .fixed
  · rw [hinD, hin1]
    rw [hin] at hinputs hposition ⊢
    exact fixedFirst_collected (hb.collectable .input) hinputs hposition
  · rw [huniD, huni1, huni]
    exact collected_wellFormed (hb.collectable .uniform)

end PicoGpuBinary

/-! ## The rules -/

/-- The components that a directive may name are the first ones of these. -/
def componentOrder : List SwizzlePatternComponent := [.swizzleX, .swizzleY, .swizzleZ, .swizzleW]

/-- The documented rules for the directives of a shader. -/
structure DirectiveRules (directives : List Directive) : Prop where
  shaderType : ∃ programType, directives.filterMap Directive.shaderType = [programType]
  count : ∀ ioType, (declared ioType directives).length ≤ 3
  ordered : ∀ ioType, ∀ d ∈ declared ioType directives, d.2.components <+: componentOrder
  nodup : ∀ ioType, ((declared ioType directives).map Prod.fst).Nodup
  disjoint : ∀ r ∈ (declared .input directives).map Prod.fst,
    r ∉ (declared .uniform directives).map Prod.fst
  vertex : directives.filterMap Directive.shaderType = [.vertexShader] →
    declared .input directives ≠ [] ∧
      ∃ first ∈ (declared .output directives).head?, first.2.components.length = 4
  fragment : directives.filterMap Directive.shaderType = [.fragmentShader] →
    (∃ first ∈ (declared .input directives).head?, first.2.components.length = 4) ∧
      ∃ only, declared .output directives = [only] ∧ only.2.components.length = 4

theorem components_length_le (m : RegMask) : m.components.length ≤ 4 := by
  cases m <;> simp [RegMask.components]

/-- A mask of four components was written with four. -/
theorem four_components {m : RegMask} (hmask : constructMask m.components ∈ prefixMasks)
    (hcount : countBits (constructMask m.components) = 4) : m.components.length = 4 := by
  have hall : constructMask m.components = 0b1111 := by
    simp only [prefixMasks, List.mem_cons, List.not_mem_nil, or_false] at hmask
    rcases hmask with h | h | h | h
    · rw [h] at hcount
      exact absurd hcount (by decide)
    · rw [h] at hcount
      exact absurd hcount (by decide)
    · rw [h] at hcount
      exact absurd hcount (by decide)
    · exact h
  have hnamed : componentOrder ⊆ m.components := by
    intro component _
    have hbit := getLsbD_constructMask m.components 0
      ⟨component.value, by cases component <;> decide⟩
    have hnone : (0 : Dword).getLsbD (3 - component.value) = false := by
      rw [show (0 : Dword) = 0#32 from rfl, BitVec.getLsbD_zero]
    have hset : (0b1111 : Dword).getLsbD (3 - component.value) = true := by
      cases component <;> decide
    rw [hnone, Bool.false_or] at hbit
    have hany : m.components.any (fun c => c.value = component.value) = true := by
      rw [← hbit]
      unfold constructMask at hall
      rw [hall]
      exact hset
    obtain ⟨c, hc, hvalue⟩ := List.any_eq_true.mp hany
    have hcc : c = component := by
      revert hvalue
      cases c <;> cases component <;> decide
    rw [← hcc]
    exact hc
  have hlength := (List.Nodup.subperm (by decide) hnamed).length_le
  exact Nat.le_antisymm (components_length_le m) hlength

/-- The first declaration is the first register of the table. -/
theorem declared_first {directives : List Directive} {b : PicoGpuBinary} {ioType : IoType}
    (hb : Declared directives b) (hpos : (b.getIoRegisters ioType).usedRegsCount ≠ 0)
    (hcomponents : ((b.getIoRegisters ioType).regs 0).componentsCount = 4) :
    ∃ first ∈ (declared ioType directives).head?, first.2.components.length = 4 := by
  have hcollectable := hb.collectable ioType
  rw [hb.registers] at hpos hcomponents
  rw [collected_count, List.length_map] at hpos
  match hdeclared : declared ioType directives, hpos with
  | first :: rest, _ =>
    rw [hdeclared] at hcomponents hcollectable
    rw [collected_custom hcollectable 0 (by simp)] at hcomponents
    exact ⟨first, rfl, four_components (hcollectable.masks _ List.mem_cons_self) hcomponents⟩

theorem programType_declared {directives : List Directive} {b : PicoGpuBinary}
    (hb : Declared directives b) {programType : ProgramType}
    (h : directives.filterMap Directive.shaderType = [programType]) :
    b.programType = some programType := by
  have htype := hb.shaderType
  rw [h] at htype
  cases hsome : b.programType with
  | none =>
    rw [hsome] at htype
    exact nomatch htype
  | some other =>
    rw [hsome, Option.toList_some] at htype
    rw [(List.cons.inj htype).1]

/-- A section that is accepted at its end had no error before it. -/
theorem finalized_clean {b1 b : PicoGpuBinary}
    (h : calling b1.finalizeDirectives >>= validateBinary = .ok b) :
    b1.finalizeDirectives = .ok b ∧ b.error = "" ∧ b1.error = "" ∧
      ∃ programType, b1.programType = some programType := by
  obtain ⟨b2, h2, h⟩ := bind_ok.mp h
  obtain ⟨rfl, hno⟩ := validateBinary_ok h
  have hclean := hasError_clean hno
  have hfinalize := calling_ok h2
  obtain ⟨programType, b3, b4, code, hsome, h3, h4, -, hclean3, -⟩ :=
    PicoGpuBinary.finalizeDirectives_clean hfinalize hclean
  exact ⟨hfinalize, hclean,
    (PicoGpuBinary.finalizeInputOutputDirectives_continues h3).clean hclean3, programType, hsome⟩

theorem Program.parseDirectives_declared {p : Program} {b : PicoGpuBinary}
    (h : p.parseDirectives .new = .ok b) : ∃ b1, Declared p.directives b1 ∧
      b1.finalizeDirectives = .ok b ∧ b.error = "" ∧ ∃ programType, b1.programType = some programType := by
  obtain ⟨b1, h1, h⟩ := bind_ok.mp h
  obtain ⟨hfinalize, hclean, hclean1, hsome⟩ := finalized_clean h
  exact ⟨b1, declared_run p.directives declared_new h1 hclean1, hfinalize, hclean, hsome⟩

theorem Program.parseDirectives_accepted {p : Program} {b : PicoGpuBinary}
    (h : p.parseDirectives .new = .ok b) : b.Accepted := by
  obtain ⟨b1, hb1, hfinalize, hclean, programType, hsome⟩ := parseDirectives_declared h
  cases programType with
  | vertexShader =>
    exact (PicoGpuBinary.finalizeDirectives_vertex hb1 hsome hfinalize hclean).2.2.2
  | fragmentShader =>
    exact (PicoGpuBinary.finalizeDirectives_fragmentClean hb1 hsome hfinalize hclean).2.2.2.2

/-- **The directives of an accepted shader obey the documented rules exactly when no
    register is declared as an input and as a uniform, and no directive names its
    components in another order.** -/
theorem accepted_rules_iff {p : Program} {b : PicoGpuBinary} (h : p.parseDirectives .new = .ok b) :
    DirectiveRules p.directives ↔
      (∀ r ∈ (declared .input p.directives).map Prod.fst,
        r ∉ (declared .uniform p.directives).map Prod.fst) ∧
      ∀ ioType, ∀ d ∈ declared ioType p.directives, d.2.components <+: componentOrder := by
  refine ⟨fun hrules => ⟨hrules.disjoint, hrules.ordered⟩, fun ⟨hdisjoint, hordered⟩ => ?_⟩
  obtain ⟨b1, hb1, hfinalize, hclean, programType, hsome⟩ := Program.parseDirectives_declared h
  refine ⟨⟨programType, ?_⟩, fun ioType => ?_, hordered, fun ioType => ?_, hdisjoint,
    fun hvs => ?_, fun hfs => ?_⟩
  · rw [hb1.shaderType, hsome, Option.toList_some]
  · have hcount := (hb1.collectable ioType).count
    rwa [List.length_map] at hcount
  · have hnodup := (hb1.collectable ioType).nodup
    rwa [List.map_map] at hnodup
  · obtain ⟨hinputs, houtputs, hposition, -⟩ := PicoGpuBinary.finalizeDirectives_vertex hb1
      (programType_declared hb1 hvs) hfinalize hclean
    refine ⟨fun hnone => hinputs ?_, @declared_first _ _ .output hb1 houtputs hposition⟩
    have hregisters := hb1.registers .input
    rw [hnone] at hregisters
    rw [show b1.inputs = _ from hregisters]
    rfl
  · obtain ⟨hinputs, hposition, houtputs, hcolor, -⟩ :=
      PicoGpuBinary.finalizeDirectives_fragmentClean hb1 (programType_declared hb1 hfs) hfinalize
        hclean
    refine ⟨@declared_first _ _ .input hb1 hinputs hposition, ?_⟩
    obtain ⟨only, honly, hlength⟩ := @declared_first _ _ .output hb1
      (show b1.outputs.usedRegsCount ≠ 0 by omega) hcolor
    have hcount : (declared .output p.directives).length = 1 := by
      rw [show b1.outputs = _ from hb1.registers .output, collected_count, List.length_map]
        at houtputs
      exact houtputs
    obtain ⟨d, hd⟩ := List.length_eq_one_iff.mp hcount
    rw [hd] at honly
    cases honly
    exact ⟨_, hd, hlength⟩

theorem one_input_rules : DirectiveRules (oneInstruction .trap).directives := by
  refine (@accepted_rules_iff (oneInstruction .trap) _ rfl).mpr ⟨by decide, ?_⟩
  intro ioType
  cases ioType <;> decide

/-- A vertex shader whose input is also a uniform. -/
def overlapping : Program where
  directives := [.vertexShader, .input 0 (.four .swizzleX .swizzleY .swizzleZ .swizzleW),
    .uniform 0 (.one .swizzleX), .output 1 (.four .swizzleX .swizzleY .swizzleZ .swizzleW)]
  instructions := [.trap]
  directives_ne := List.cons_ne_nil _ _
  instructions_ne := List.cons_ne_nil _ _

/-- A vertex shader with the input `r0.yx`. -/
def unordered : Program where
  directives := [.vertexShader, .input 0 (.two .swizzleY .swizzleX),
    .output 1 (.four .swizzleX .swizzleY .swizzleZ .swizzleW)]
  instructions := [.trap]
  directives_ne := List.cons_ne_nil _ _
  instructions_ne := List.cons_ne_nil _ _

/-- The check against the other table looks at the table of the directive itself, and
    the check of the order looks at the mask, where the order is lost. -/
theorem broken_rules_accepted :
    (∃ b, overlapping.parseDirectives .new = .ok b) ∧ ¬ DirectiveRules overlapping.directives ∧
    (∃ b, unordered.parseDirectives .new = .ok b) ∧ ¬ DirectiveRules unordered.directives := by
  refine ⟨⟨_, rfl⟩, fun h => ?_, ⟨_, rfl⟩, fun h => ?_⟩
  · exact h.disjoint 0 (by decide) (by decide)
  · exact absurd (h.ordered .input (0, .two .swizzleY .swizzleX) (by decide)) (by decide)

end PicoGpu
