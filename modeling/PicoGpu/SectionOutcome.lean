import PicoGpu.DirectiveTables
import PicoGpu.DirectiveAcceptance
import PicoGpu.SectionReading

/- What becomes of a directive section. None of its actions aborts the simulation, whatever
   the directives are, so that the section is accepted or the parse ends with an error; it
   is accepted exactly when the directives keep the rules that the actions check. -/
namespace PicoGpu

/-! ## No action aborts -/

theorem constructMask_bits (values : List SwizzlePatternComponent) (mask : Dword) :
    (values.foldl (fun mask component => mask ||| (1 : Dword) <<< (3 - component.value)) mask) &&&
      ~~~0b1111 = mask &&& ~~~0b1111 := by
  induction values generalizing mask with
  | nil => rfl
  | cons component values ih =>
    have hbit : ((1 : Dword) <<< (3 - component.value)) &&& ~~~0b1111 = 0 := by
      cases component <;> rfl
    rw [List.foldl_cons, ih, BitVec.and_or_distrib_right, hbit]
    exact BitVec.or_zero

/-- A mask has bits, and four of them at most. -/
theorem mask_accepted (m : RegMask) : constructMask m.components ≠ 0 ∧
    constructMask m.components &&& ~~~0b1111 = 0 := by
  refine ⟨fun hzero => ?_, (constructMask_bits m.components 0).trans BitVec.zero_and⟩
  obtain ⟨component, hmem⟩ : ∃ component, component ∈ m.components := by
    cases m <;> exact ⟨_, List.mem_cons_self⟩
  have hbit := getLsbD_constructMask m.components 0 ⟨component.value, by cases component <;> decide⟩
  have hany : m.components.any (fun c => c.value = component.value) = true :=
    List.any_eq_true.mpr ⟨component, hmem, decide_eq_true rfl⟩
  unfold constructMask at hzero
  rw [hzero, hany, show (0 : Dword) = 0#32 from rfl, BitVec.getLsbD_zero] at hbit
  cases hbit

/-- The parse goes on, or ends with an error. -/
def Returns {α : Type} (x : Except ParseStop α) : Prop :=
  (∃ a, x = .ok a) ∨ ∃ text, x = .error (.yyabort text)

theorem Returns.bind {α β : Type} {x : Except ParseStop α} (hx : Returns x)
    {f : α → Except ParseStop β} (hf : ∀ a, x = .ok a → Returns (f a)) : Returns (x >>= f) := by
  obtain ⟨a, rfl⟩ | ⟨text, rfl⟩ := hx
  · exact hf a rfl
  · exact .inr ⟨text, rfl⟩

theorem validateBinary_returns (b : PicoGpuBinary) : Returns (validateBinary b) := by
  unfold validateBinary
  split
  · exact .inr ⟨_, rfl⟩
  · exact .inl ⟨_, rfl⟩

theorem inputOutput_returns (ioType : IoType) (reg : RegisterIndex) (mask : RegMask)
    (b : PicoGpuBinary) : Returns (Directive.inputOutput ioType reg mask b) := by
  unfold Directive.inputOutput RegMask.action
  split
  · exact .inr ⟨_, rfl⟩
  · obtain ⟨hzero, hbits⟩ := mask_accepted mask
    obtain ⟨b', h'⟩ := RegisterDirective.perform_total ⟨reg, _, ioType, hzero, hbits⟩ b
    have h' : b.encodeDirectiveInputOutput reg (constructMask mask.components) ioType = .ok b' := h'
    show Returns (calling (b.encodeDirectiveInputOutput reg _ ioType) >>= validateBinary)
    rw [h']
    exact validateBinary_returns b'

theorem action_returns (d : Directive) (b : PicoGpuBinary) : Returns (d.action b) := by
  cases d with
  | input | output | uniform => exact inputOutput_returns _ _ _ b
  | vertexShader | fragmentShader => exact .inl ⟨_, rfl⟩
  | undefinedRegs => exact validateBinary_returns _

theorem actions_return (ds : List Directive) (b : PicoGpuBinary) :
    Returns (ds.foldlM (fun b d => d.action b) b) := by
  induction ds generalizing b with
  | nil => exact .inl ⟨b, rfl⟩
  | cons d ds ih =>
    rw [List.foldlM_cons]
    exact (action_returns d b).bind fun b' _ => ih b'

/-! ## Finalizing returns -/

/-- What the actions leave, with an error or without one. -/
structure Collected (b : PicoGpuBinary) : Prop where
  registers : ∀ ioType, ∃ io, Collectable io ∧ b.getIoRegisters ioType = collected io
  code : b.code = []

theorem collected_inputOutput {ioType : IoType} {reg : RegisterIndex} {mask : RegMask}
    {b b' : PicoGpuBinary} (hb : Collected b) (h : Directive.inputOutput ioType reg mask b = .ok b') :
    Collected b' := by
  obtain ⟨-, hcall, hclean⟩ := inputOutput_clean h
  obtain ⟨hmask, hfree, hcount, rfl⟩ :=
    PicoGpuBinary.encodeDirectiveInputOutput_clean hcall hclean
  obtain ⟨io, hio, hregisters⟩ := hb.registers ioType
  rw [hregisters] at hfree hcount
  constructor
  · intro other
    rw [getIoRegisters_set]
    split
    · rw [hregisters, ← collected_append]
      exact ⟨_, hio.append hmask hfree hcount, rfl⟩
    · exact hb.registers other
  · cases ioType <;> exact hb.code

theorem Collected.same {b b' : PicoGpuBinary} (hb : Collected b)
    (hregisters : ∀ ioType, b'.getIoRegisters ioType = b.getIoRegisters ioType)
    (hcode : b'.code = b.code) : Collected b' := by
  refine ⟨fun ioType => ?_, hcode.trans hb.code⟩
  rw [hregisters]
  exact hb.registers ioType

theorem collected_action {d : Directive} {b b' : PicoGpuBinary} (hb : Collected b)
    (h : d.action b = .ok b') : Collected b' := by
  cases d with
  | input | output | uniform => exact collected_inputOutput hb h
  | vertexShader | fragmentShader =>
    cases h
    unfold PicoGpuBinary.encodeDirectiveShaderType
    split
    · exact hb.same (getIoRegisters_addError b _) rfl
    · exact hb.same (fun ioType => by cases ioType <;> rfl) rfl
  | undefinedRegs =>
    obtain ⟨rfl, -⟩ := validateBinary_ok h
    unfold PicoGpuBinary.encodeDirectiveUndefinedRegs
    split
    · exact hb.same (getIoRegisters_addError b _) rfl
    · exact hb.same (fun ioType => by cases ioType <;> rfl) rfl

theorem collected_new : Collected .new where
  registers := by
    intro ioType
    refine ⟨[], ⟨Nat.zero_le _, List.nodup_nil, nofun⟩, ?_⟩
    cases ioType <;> rfl
  code := rfl

theorem collected_actions {ds : List Directive} {b : PicoGpuBinary}
    (h : ds.foldlM (fun b d => d.action b) PicoGpuBinary.new = .ok b) : Collected b :=
  @foldlM_inv _ _ _ _ (fun _ b => Collected b) (fun hb h => collected_action hb h) ds [] _ _
    collected_new h

namespace PicoGpuBinary

/-- The first register is a custom one, where there is one. -/
def FirstCustom (b : PicoGpuBinary) (ioType : IoType) : Prop :=
  (b.getIoRegisters ioType).usedRegsCount ≠ 0 →
    ((b.getIoRegisters ioType).regs 0).usage = .custom

theorem collected_firstCustom {b : PicoGpuBinary} (hb : Collected b) (ioType : IoType) :
    b.FirstCustom ioType := by
  intro hcount
  obtain ⟨io, hio, hregisters⟩ := hb.registers ioType
  rw [hregisters] at hcount ⊢
  rw [collected_count] at hcount
  rw [collected_custom hio 0 (Nat.pos_of_ne_zero hcount)]

/-- What finalizing a table leaves alone. -/
structure Finalizes (b b' : PicoGpuBinary) : Prop where
  programType : b'.programType = b.programType
  undefinedRegs : b'.undefinedRegs = b.undefinedRegs
  code : b'.code = b.code

theorem finalizeInput_total {b : PicoGpuBinary} (hcustom : b.FirstCustom .input) :
    ∃ b', b.finalizeInputOutputDirectives .input = .ok b' ∧ b.Finalizes b' ∧
      (b'.inputs = b.inputs ∨ b'.inputs = b.inputs.withPosition) ∧ b'.outputs = b.outputs := by
  unfold finalizeInputOutputDirectives
  simp only [reduceCtorEq, false_and, true_and, false_or, if_false]
  split
  · exact ⟨_, rfl, ⟨rfl, rfl, rfl⟩, .inl rfl, rfl⟩
  split
  · split
    · exact ⟨_, rfl, ⟨rfl, rfl, rfl⟩, .inl rfl, rfl⟩
    next hcount =>
    split
    · exact ⟨_, rfl, ⟨rfl, rfl, rfl⟩, .inl rfl, rfl⟩
    · rw [if_neg (by simp [hcustom hcount])]
      exact ⟨_, rfl, ⟨rfl, rfl, rfl⟩, .inr rfl, rfl⟩
  · exact ⟨_, rfl, ⟨rfl, rfl, rfl⟩, .inl rfl, rfl⟩

theorem finalizeOutput_total {b : PicoGpuBinary} (hcustom : b.FirstCustom .output) :
    ∃ b', b.finalizeInputOutputDirectives .output = .ok b' ∧ b.Finalizes b' ∧
      b'.inputs = b.inputs := by
  unfold finalizeInputOutputDirectives
  simp only [reduceCtorEq, false_and, true_and, or_false, if_false]
  split
  · split
    · exact ⟨_, rfl, ⟨rfl, rfl, rfl⟩, rfl⟩
    next hcount =>
    split
    · exact ⟨_, rfl, ⟨rfl, rfl, rfl⟩, rfl⟩
    · rw [if_neg (by simp [hcustom hcount])]
      exact ⟨_, rfl, ⟨rfl, rfl, rfl⟩, rfl⟩
  split
  · split
    · exact ⟨_, rfl, ⟨rfl, rfl, rfl⟩, rfl⟩
    next hcount =>
    have hcount : (b.getIoRegisters .output).usedRegsCount = 1 := Classical.not_not.mp hcount
    split
    · exact ⟨_, rfl, ⟨rfl, rfl, rfl⟩, rfl⟩
    · rw [if_neg (by simp [hcustom (by rw [hcount]; decide)])]
      obtain ⟨b1, h1⟩ := encodeDirectiveInputOutput_total (b.inputs.regs 0).index
        (show 0b1000 ∈ prefixMasks by decide) .output (b.setUsage .output 0 .fixed)
      rw [h1]
      refine ⟨_, rfl, ?_⟩
      rcases encodeDirectiveInputOutput_cases h1 with ⟨text, rfl⟩ | rfl
      · exact ⟨⟨rfl, rfl, rfl⟩, rfl⟩
      · exact ⟨⟨rfl, rfl, rfl⟩, rfl⟩
  · exact ⟨_, rfl, ⟨rfl, rfl, rfl⟩, rfl⟩

/-- The three tables, one after the other. -/
theorem finalizeTables_total {b : PicoGpuBinary} (hb : Collected b) (programType : ProgramType) :
    ∃ b1 b2, finalizeInputOutputDirectives .input (b.storeProgramType programType) = .ok b1 ∧
      finalizeInputOutputDirectives .output b1 = .ok b2 ∧
      b.Finalizes (b2.storeInputOutput .uniform) ∧
      (b2.inputs = b.inputs ∨ b2.inputs = b.inputs.withPosition) := by
  obtain ⟨b1, h1, hfinal1, hinputs1, houtputs1⟩ :=
    @finalizeInput_total (b.storeProgramType programType) (collected_firstCustom hb .input)
  have hcustom1 : b1.FirstCustom .output := by
    have hcustom := collected_firstCustom hb .output
    have houtputs : b1.getIoRegisters .output = b.getIoRegisters .output := houtputs1
    unfold FirstCustom at hcustom ⊢
    rwa [houtputs]
  obtain ⟨b2, h2, hfinal2, hinputs2⟩ := finalizeOutput_total hcustom1
  refine ⟨b1, b2, h1, h2, ⟨hfinal2.programType.trans hfinal1.programType,
    hfinal2.undefinedRegs.trans hfinal1.undefinedRegs, hfinal2.code.trans hfinal1.code⟩, ?_⟩
  rw [hinputs2]
  exact hinputs1

/-! ### The preamble -/

theorem interpolationRegisters_withPosition (io : InputOutputRegisters) :
    interpolationRegisters io.withPosition = interpolationRegisters io := by
  have hregs : ∀ i : Fin 3, i ≠ 0 → io.withPosition.regs i = io.regs i :=
    fun i hi => Function.update_of_ne hi _ _
  unfold interpolationRegisters
  rw [hregs 1 (by decide), hregs 2 (by decide)]
  rfl

/-- There are registers left, with no inputs at all too. -/
theorem interpolationRegisters_total {io : InputOutputRegisters}
    {inputs : List (RegisterIndex × Dword)} (hinputs : Collectable inputs)
    (hio : io = collected inputs ∨ io = (collected inputs).withPosition) :
    ∃ r, interpolationRegisters io = .ok r := by
  have hsame : interpolationRegisters io = interpolationRegisters (collected inputs) := by
    obtain rfl | rfl := hio
    · rfl
    · exact interpolationRegisters_withPosition _
  rw [hsame]
  cases inputs with
  | nil => exact ⟨_, rfl⟩
  | cons input more =>
    obtain ⟨r, hr, -⟩ := interpolationRegisters_placed hinputs (Nat.succ_pos _)
    exact ⟨r, (interpolationRegisters_withPosition _).symm.trans hr⟩

theorem encodeAttributeInterpolation_total {b : PicoGpuBinary}
    {inputs : List (RegisterIndex × Dword)} (hinputs : Collectable inputs)
    (hio : b.inputs = collected inputs ∨ b.inputs = (collected inputs).withPosition)
    (hcode : b.code = []) :
    ∃ b', b.encodeAttributeInterpolationForFragmentShader = .ok b' ∧ b'.code.length ≤ 38 := by
  obtain ⟨r, hr⟩ := interpolationRegisters_total hinputs hio
  obtain ⟨hfit, hlength⟩ := interpolation_fit (b.inputs.regs 0).index r
    (fun i => (b.inputs.regs i).usage = .custom) b.inputs.regs
  obtain ⟨b', h'⟩ := @encodeAll_total _ b (fun i hi => (hfit i hi).1) (by
    rw [hcode, List.length_nil, Nat.zero_add]
    exact Nat.lt_of_le_of_lt hlength (by decide))
  refine ⟨b', ?_, ?_⟩
  · unfold encodeAttributeInterpolationForFragmentShader interpolationInstructions
    rw [hr]
    exact h'
  · obtain ⟨rfl, -, -⟩ := encodeAll_ok h'
    show (b.code ++ programDwords _).length ≤ 38
    rw [hcode, List.nil_append]
    exact hlength

/-- Finalizing returns a binary, whatever the directives were. -/
theorem finalizeDirectives_total {b : PicoGpuBinary} (hb : Collected b) :
    ∃ b', b.finalizeDirectives = .ok b' := by
  cases htype : b.programType with
  | none => exact ⟨_, finalizeDirectives_untyped htype⟩
  | some programType =>
    obtain ⟨b1, b2, h1, h2, hfinal, hinputs2⟩ := finalizeTables_total hb programType
    let b3 := b2.storeInputOutput .uniform
    have h3 : finalizeInputOutputDirectives .uniform b2 = .ok b3 := rfl
    have hcode3 : b3.code = [] := hfinal.code.trans hb.code
    obtain ⟨io, hio, hregisters⟩ := hb.registers .input
    have hinputs3 : b3.inputs = collected io ∨ b3.inputs = (collected io).withPosition := by
      rw [← hregisters]
      exact hinputs2
    obtain ⟨b4, h4, hlength⟩ : ∃ b4, (if b3.programType = some .fragmentShader then
        encodeAttributeInterpolationForFragmentShader b3 else .ok b3) = .ok b4 ∧
        b4.code.length ≤ 38 := by
      split
      · exact encodeAttributeInterpolation_total hio hinputs3 hcode3
      · exact ⟨b3, rfl, by rw [hcode3]; exact Nat.zero_le _⟩
    obtain ⟨b', h'⟩ := @registerSetup_total b4 (Nat.lt_of_le_of_lt
      (Nat.add_le_add_right hlength 2) (by decide))
    refine ⟨b', ?_⟩
    unfold finalizeDirectives
    rw [htype]
    show (finalizeInputOutputDirectives .input (b.storeProgramType programType) >>= _) = _
    rw [h1, ok_bind, h2, ok_bind, h3, ok_bind, h4, ok_bind]
    exact h'

end PicoGpuBinary

theorem directiveSection_returns (ds : List Directive) : Returns (directiveSection ds .new) := by
  refine (actions_return ds .new).bind fun b hb => ?_
  obtain ⟨b', h'⟩ := PicoGpuBinary.finalizeDirectives_total (collected_actions hb)
  rw [h']
  exact validateBinary_returns b'

end PicoGpu
