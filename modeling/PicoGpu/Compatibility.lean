import PicoGpu.RequestAgreement

/- `areShadersCompatible`, which is asked before two shaders are used together. The loop
   compares the outputs of the vertex shader with the inputs of the fragment shader, and
   the count before it those of the vertex shader with its own inputs. -/
namespace PicoGpu
open PicoGpuBinary

def PicoGpuBinary.areShadersCompatible (vs fs : PicoGpuBinary) : Except FatalError Bool :=
  if vs.programType = none then .error "bad_optional_access"
  else if !vs.isVs then .error "Expected a vertex shader"
  else if fs.programType = none then .error "bad_optional_access"
  else if !fs.isFs then .error "Expected a fragment shader"
  else if vs.outputs.usedRegsCount ≠ vs.inputs.usedRegsCount then .ok false
  else .ok ((List.range vs.outputs.usedRegsCount).all fun regIndex =>
    (vs.outputs.regs (Fin.ofNat 3 regIndex)).componentsCount =
      (fs.inputs.regs (Fin.ofNat 3 regIndex)).componentsCount)

/-- The fragment shader takes what the vertex shader gives. -/
structure Compatible (vs fs : PicoGpuBinary) : Prop where
  count : vs.outputs.usedRegsCount = fs.inputs.usedRegsCount
  components : ∀ i : Fin 3, i.val < vs.outputs.usedRegsCount →
    (vs.outputs.regs i).componentsCount = (fs.inputs.regs i).componentsCount

section
variable {vs fs : PicoGpuBinary}

/-- What the code computes: its own counts, and the sizes. -/
theorem areShadersCompatible_iff (hvs : vs.programType = some .vertexShader)
    (hfs : fs.programType = some .fragmentShader) (hcount : vs.outputs.usedRegsCount ≤ 3) :
    ∃ result, vs.areShadersCompatible fs = .ok result ∧
      (result = true ↔ vs.outputs.usedRegsCount = vs.inputs.usedRegsCount ∧
        ∀ i : Fin 3, i.val < vs.outputs.usedRegsCount →
          (vs.outputs.regs i).componentsCount = (fs.inputs.regs i).componentsCount) := by
  unfold areShadersCompatible isVs isFs
  rw [hvs, hfs]
  simp only [reduceCtorEq, decide_true, Bool.not_true, if_false, Bool.false_eq_true]
  by_cases hinputs : vs.outputs.usedRegsCount = vs.inputs.usedRegsCount
  · rw [if_neg (not_not_intro hinputs)]
    refine ⟨_, rfl, ?_⟩
    rw [List.all_eq_true]
    constructor
    · intro h
      refine ⟨hinputs, ?_⟩
      intro i hi
      have hall := h i.val (List.mem_range.mpr hi)
      rwa [Fin.ofNat_val_eq_self, decide_eq_true_eq] at hall
    · rintro ⟨-, h⟩ i hi
      have hi : i < vs.outputs.usedRegsCount := List.mem_range.mp hi
      have hval : (Fin.ofNat 3 i).val = i := Nat.mod_eq_of_lt (by omega)
      exact decide_eq_true (h (Fin.ofNat 3 i) (by omega))
  · rw [if_pos hinputs]
    exact ⟨false, rfl, by simp [hinputs]⟩

end

/-- **The answer is right exactly when the vertex shader has as many inputs as the fragment
    shader should have, or the sizes differ anyway.** -/
theorem areShadersCompatible_exact_iff {vsProgram : Program} {vs fs : PicoGpuBinary}
    (hvs : vsProgram.parse .new = .ok vs) (hvsType : vs.programType = some .vertexShader)
    (hfsType : fs.programType = some .fragmentShader) :
    (vs.areShadersCompatible fs = .ok true ↔ Compatible vs fs) ↔
      ((vs.outputs.usedRegsCount = vs.inputs.usedRegsCount ↔
          vs.outputs.usedRegsCount = fs.inputs.usedRegsCount) ∨
        ∃ i : Fin 3, i.val < vs.outputs.usedRegsCount ∧
          (vs.outputs.regs i).componentsCount ≠ (fs.inputs.regs i).componentsCount) := by
  obtain ⟨_, hvsParsed⟩ := Program.parse_parsed hvs
  obtain ⟨result, hresult, hiff⟩ := areShadersCompatible_iff hvsType hfsType
    (hvsParsed.accepted.wellFormed .output).count
  have htrue : vs.areShadersCompatible fs = .ok true ↔ result = true := by
    rw [hresult]
    constructor
    · intro h
      cases h
      rfl
    · rintro rfl
      rfl
  rw [htrue, hiff]
  by_cases hsizes : ∀ i : Fin 3, i.val < vs.outputs.usedRegsCount →
      (vs.outputs.regs i).componentsCount = (fs.inputs.regs i).componentsCount
  · have hcompatible : Compatible vs fs ↔ vs.outputs.usedRegsCount = fs.inputs.usedRegsCount :=
      ⟨Compatible.count, fun hcount => ⟨hcount, hsizes⟩⟩
    rw [hcompatible, and_iff_left hsizes, or_iff_left]
    rintro ⟨i, hi, hne⟩
    exact hne (hsizes i hi)
  · have hincompatible : ¬ Compatible vs fs := fun h => hsizes h.components
    push Not at hsizes
    constructor
    · intro _
      exact Or.inr hsizes
    · intro _
      constructor
      · rintro ⟨-, h⟩
        obtain ⟨i, hi, hne⟩ := hsizes
        exact absurd (h i hi) hne
      · intro h
        exact absurd h hincompatible

/-- A vertex shader with one input and two outputs. -/
def twoOutputs : Program where
  directives := [.vertexShader, .input 0 (.four .swizzleX .swizzleY .swizzleZ .swizzleW),
    .output 12 (.four .swizzleX .swizzleY .swizzleZ .swizzleW), .output 13 (.one .swizzleX)]
  instructions := [.trap]
  directives_ne := List.cons_ne_nil _ _
  instructions_ne := trap_ne

/-- The fragment shader that goes with it. -/
def twoFragmentInputs : Program where
  directives := [.fragmentShader, .input 0 (.four .swizzleX .swizzleY .swizzleZ .swizzleW),
    .input 1 (.one .swizzleX), .output 2 (.four .swizzleX .swizzleY .swizzleZ .swizzleW)]
  instructions := [.trap]
  directives_ne := List.cons_ne_nil _ _
  instructions_ne := trap_ne

def parsedTwoOutputs : PicoGpuBinary := (twoOutputs.parse .new).toOption.getD .new

def parsedTwoInputs : PicoGpuBinary := (twoFragmentInputs.parse .new).toOption.getD .new

/-- Shaders that fit are refused, and shaders that do not fit are let through. -/
theorem areShadersCompatible_inexact :
    (twoOutputs.parse .new = .ok parsedTwoOutputs ∧
      twoFragmentInputs.parse .new = .ok parsedTwoInputs ∧
      (oneInstruction .trap).parse .new = .ok (parsedBinary .trap)) ∧
    (parsedTwoOutputs.areShadersCompatible parsedTwoInputs = .ok false ∧
      Compatible parsedTwoOutputs parsedTwoInputs) ∧
    ((parsedBinary .trap).areShadersCompatible parsedTwoInputs = .ok true ∧
      ¬ Compatible (parsedBinary .trap) parsedTwoInputs) := by
  refine ⟨⟨rfl, rfl, rfl⟩, ⟨rfl, rfl, by decide⟩, rfl, ?_⟩
  intro h
  exact absurd h.count (by decide)

theorem areShadersCompatible_exact_one_input :
    (parsedBinary .trap).areShadersCompatible parsedFragment = .ok true ↔
      Compatible (parsedBinary .trap) parsedFragment := by
  apply (@areShadersCompatible_exact_iff (oneInstruction .trap) _ parsedFragment rfl rfl rfl).mpr
  left
  decide

end PicoGpu
