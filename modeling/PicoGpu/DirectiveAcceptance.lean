import PicoGpu.DirectiveRules
import PicoGpu.Preamble

/- Which of the directive sections that obey the documented rules are accepted. The
   rules make every call for a register add it, and every check that finalizes the
   tables pass, except that the depth of a fragment shader is declared like an output
   of the user, in the register of the position. -/
namespace PicoGpu

/-! ## The calls of a section -/

/-- Components in their order make a mask that is accepted. -/
theorem ordered_components {m : RegMask} (h : m.components <+: componentOrder) :
    constructMask m.components ∈ prefixMasks ∧ hasDuplicates m.components = false := by
  have hall : ∀ n : Fin 4, constructMask (componentOrder.take (n + 1)) ∈ prefixMasks ∧
      hasDuplicates (componentOrder.take (n + 1)) = false := by decide
  rw [List.prefix_iff_eq_take.mp h]
  cases m with
  | one => exact hall 0
  | two => exact hall 1
  | three => exact hall 2
  | four => exact hall 3

theorem ordered_four {m : RegMask} (h : m.components <+: componentOrder)
    (hfour : m.components.length = 4) : constructMask m.components = 0b1111 := by
  have htake := List.prefix_iff_eq_take.mp h
  rw [hfour] at htake
  rw [htake]
  decide

/-- What the calls report: only a repeated `#undefinedRegs` leaves a message. -/
structure Reported (directives : List Directive) (b : PicoGpuBinary) : Prop where
  undefinedRegs : b.undefinedRegs = true ↔ .undefinedRegs ∈ directives
  error : b.error = "" ↔ directives.count .undefinedRegs ≤ 1

theorem reported_other {directives : List Directive} {b b' : PicoGpuBinary} {d : Directive}
    (hb : Reported directives b) (hd : d ≠ .undefinedRegs)
    (hregs : b'.undefinedRegs = b.undefinedRegs) (herror : b'.error = b.error) :
    Reported (directives ++ [d]) b' := by
  constructor
  · rw [hregs, hb.undefinedRegs, List.mem_append, List.mem_singleton]
    constructor
    · intro h
      exact .inl h
    · rintro (h | h)
      · exact h
      · exact absurd h.symm hd
  · rw [herror, hb.error, List.count_append, List.count_singleton, if_neg (by simpa using hd),
      Nat.add_zero]

theorem reported_undefinedRegs {directives : List Directive} {b : PicoGpuBinary}
    (hb : Reported directives b) :
    Reported (directives ++ [.undefinedRegs]) b.encodeDirectiveUndefinedRegs := by
  have hcount : (directives ++ [Directive.undefinedRegs]).count .undefinedRegs =
      directives.count .undefinedRegs + 1 := by
    rw [List.count_append, List.count_singleton_self]
  have hmem : Directive.undefinedRegs ∈ directives ++ [.undefinedRegs] := by simp
  unfold PicoGpuBinary.encodeDirectiveUndefinedRegs
  split
  next hset =>
    have hpos := List.count_pos_iff.mpr (hb.undefinedRegs.mp hset)
    refine ⟨⟨fun _ => hmem, fun _ => hset⟩, ⟨fun h => ?_, fun h => ?_⟩⟩
    · exact absurd (PicoGpuBinary.addError_clean h) (by decide)
    · omega
  next hset =>
    have hzero : directives.count .undefinedRegs = 0 :=
      List.count_eq_zero.mpr fun h => hset (hb.undefinedRegs.mpr h)
    refine ⟨⟨fun _ => hmem, fun _ => rfl⟩, ⟨fun _ => by omega, fun _ => ?_⟩⟩
    show b.error = ""
    exact hb.error.mpr (by omega)

section
variable {done rest : List Directive} {d : Directive}

/-- A register of a section that obeys the rules is not declared yet, and there is room. -/
theorem declarable {ioType : IoType} {reg : RegisterIndex} {mask : RegMask}
    (hrules : DirectiveRules (done ++ d :: rest)) (hd : d.declares ioType = some (reg, mask)) :
    mask.components <+: componentOrder ∧ reg ∉ (declared ioType done).map Prod.fst ∧
      (declared ioType done).length < 3 := by
  have hsplit : declared ioType (done ++ d :: rest) =
      declared ioType done ++ (reg, mask) :: declared ioType rest := by
    unfold declared
    rw [List.filterMap_append, List.filterMap_cons_some hd]
  refine ⟨hrules.ordered ioType (reg, mask) (by simp [hsplit]), fun hmem => ?_, ?_⟩
  · have hnodup := hrules.nodup ioType
    rw [hsplit, List.map_append, List.map_cons, List.nodup_append] at hnodup
    exact hnodup.2.2 reg hmem reg List.mem_cons_self rfl
  · have hcount := hrules.count ioType
    rw [hsplit, List.length_append, List.length_cons] at hcount
    omega

theorem call_register {ioType : IoType} {reg : RegisterIndex} {mask : RegMask} {b : PicoGpuBinary}
    (hrules : DirectiveRules (done ++ d :: rest))
    (hdeclares : ∀ other, d.declares other = if other = ioType then some (reg, mask) else none)
    (hshader : d.shaderType = none) (hd : d ≠ .undefinedRegs) (hb : Declared done b)
    (hreported : Reported done b) :
    ∃ b', b.encodeDirectiveInputOutput reg (constructMask mask.components) ioType = .ok b' ∧
      Declared (done ++ [d]) b' ∧ Reported (done ++ [d]) b' := by
  obtain ⟨hordered, hnew, hroom⟩ := declarable hrules ((hdeclares ioType).trans (if_pos rfl))
  obtain ⟨hmask, hdistinct⟩ := ordered_components hordered
  have hfree : isBitSet (b.getIoRegisters ioType).usedRegsMask reg = false := by
    rw [hb.registers, Bool.eq_false_iff]
    intro hset
    have hmem := collected_isBitSet.mp hset
    rw [List.map_map] at hmem
    exact hnew hmem
  have hcount : (b.getIoRegisters ioType).usedRegsCount < 3 := by
    rw [hb.registers, collected_count, List.length_map]
    exact hroom
  refine ⟨_, PicoGpuBinary.encodeDirectiveInputOutput_add hmask hfree hcount,
    declared_add hb hdeclares hshader hdistinct hmask hfree (by omega), ?_⟩
  apply reported_other hreported hd
  · cases ioType <;> rfl
  · cases ioType <;> rfl

theorem call_shaderType {programType : ProgramType} {b : PicoGpuBinary}
    (hrules : DirectiveRules (done ++ d :: rest)) (hdeclares : ∀ other, d.declares other = none)
    (hshader : d.shaderType = some programType) (hd : d ≠ .undefinedRegs) (hb : Declared done b)
    (hreported : Reported done b) :
    Declared (done ++ [d]) (b.encodeDirectiveShaderType programType) ∧
      Reported (done ++ [d]) (b.encodeDirectiveShaderType programType) := by
  obtain ⟨only, honly⟩ := hrules.shaderType
  -- the only directive for the type is this one
  have hnone : b.programType = none := by
    have hlength := congrArg List.length honly
    rw [List.filterMap_append, List.filterMap_cons_some hshader, List.length_append,
      List.length_cons, List.length_singleton, hb.shaderType] at hlength
    cases hsome : b.programType with
    | none => rfl
    | some other =>
      rw [hsome, Option.toList_some, List.length_singleton] at hlength
      omega
  have hset : b.encodeDirectiveShaderType programType =
      { b with programType := some programType } := by
    unfold PicoGpuBinary.encodeDirectiveShaderType
    rw [hnone]
    rfl
  rw [hset]
  refine ⟨declared_other hb hdeclares (fun other => by cases other <;> rfl) ?_ rfl rfl,
    reported_other hreported hd rfl rfl⟩
  rw [hshader, hnone]
  rfl

/-- One call of a section that obeys the rules. -/
theorem call_declared {b : PicoGpuBinary} (hrules : DirectiveRules (done ++ d :: rest))
    (hb : Declared done b) (hreported : Reported done b) :
    ∃ b', d.call.perform b = .ok b' ∧ Declared (done ++ [d]) b' ∧ Reported (done ++ [d]) b' := by
  cases d with
  | input reg mask =>
    apply @call_register _ _ _ .input reg mask b hrules _ rfl (by simp) hb hreported
    intro other
    cases other <;> rfl
  | output reg mask =>
    apply @call_register _ _ _ .output reg mask b hrules _ rfl (by simp) hb hreported
    intro other
    cases other <;> rfl
  | uniform reg mask =>
    apply @call_register _ _ _ .uniform reg mask b hrules _ rfl (by simp) hb hreported
    intro other
    cases other <;> rfl
  | vertexShader =>
    exact ⟨_, rfl, call_shaderType hrules (fun _ => rfl) rfl (by simp) hb hreported⟩
  | fragmentShader =>
    exact ⟨_, rfl, call_shaderType hrules (fun _ => rfl) rfl (by simp) hb hreported⟩
  | undefinedRegs =>
    refine ⟨_, rfl, ?_, reported_undefinedRegs hreported⟩
    unfold PicoGpuBinary.encodeDirectiveUndefinedRegs
    split
    · exact declared_other hb (fun _ => rfl) (fun other => by cases other <;> rfl)
        (List.append_nil _).symm rfl rfl
    · exact declared_other hb (fun _ => rfl) (fun other => by cases other <;> rfl)
        (List.append_nil _).symm rfl rfl

end

theorem calls_declared (rest : List Directive) {done : List Directive} {b : PicoGpuBinary}
    (hrules : DirectiveRules (done ++ rest)) (hb : Declared done b) (hreported : Reported done b) :
    ∃ b', AssemblerCall.performAll (rest.map Directive.call) b = .ok b' ∧
      Declared (done ++ rest) b' ∧ Reported (done ++ rest) b' := by
  induction rest generalizing done b with
  | nil =>
    rw [List.append_nil]
    exact ⟨b, rfl, hb, hreported⟩
  | cons d rest ih =>
    obtain ⟨b1, h1, hb1, hreported1⟩ := call_declared hrules hb hreported
    have hassoc : done ++ d :: rest = done ++ [d] ++ rest := by simp
    rw [hassoc] at hrules ⊢
    obtain ⟨b', h', hb'⟩ := ih hrules hb1 hreported1
    refine ⟨b', ?_, hb'⟩
    unfold AssemblerCall.performAll at h' ⊢
    rw [List.map_cons, List.foldlM_cons, h1]
    exact h'

theorem reported_new : Reported [] .new := by
  constructor
  · simp [PicoGpuBinary.new]
  · simp [PicoGpuBinary.new]

/-! ## Finalizing -/

namespace PicoGpuBinary

theorem finalizeInput_vertexShader {b : PicoGpuBinary} (htype : b.programType = some .vertexShader)
    (hpos : b.inputs.usedRegsCount ≠ 0) :
    b.finalizeInputOutputDirectives .input = .ok (b.storeInputOutput .input) := by
  have hvs : b.isVs = true := by simp [isVs, htype]
  have hfs : b.isFs = false := by simp [isFs, htype]
  have hpos' : (b.getIoRegisters .input).usedRegsCount ≠ 0 := hpos
  unfold finalizeInputOutputDirectives
  simp only [hvs, hfs, hpos', and_false, if_false, reduceCtorEq, false_and, or_self,
    Bool.false_eq_true]

theorem finalizeOutput_vertexShader {b : PicoGpuBinary}
    (htype : b.programType = some .vertexShader) (hpos : b.outputs.usedRegsCount ≠ 0)
    (hcomponents : (b.outputs.regs 0).componentsCount = 4)
    (husage : (b.outputs.regs 0).usage = .custom) :
    b.finalizeInputOutputDirectives .output =
      .ok ((b.setUsage .output 0 .fixed).storeInputOutput .output) := by
  have hvs : b.isVs = true := by simp [isVs, htype]
  have hpos' : (b.getIoRegisters .output).usedRegsCount ≠ 0 := hpos
  have hcomponents' : ((b.getIoRegisters .output).regs 0).componentsCount = 4 := hcomponents
  have husage' : ((b.getIoRegisters .output).regs 0).usage = .custom := husage
  unfold finalizeInputOutputDirectives
  simp only [hvs, hpos', hcomponents', husage', reduceCtorEq, false_and, and_true, true_or,
    if_false, if_true, ne_eq, not_true_eq_false]

/-- The depth is added when the register of the position is none of the outputs. -/
theorem finalizeOutput_added {b b' : PicoGpuBinary} (htype : b.programType = some .fragmentShader)
    (hcount : b.outputs.usedRegsCount = 1) (hcomponents : (b.outputs.regs 0).componentsCount = 4)
    (husage : (b.outputs.regs 0).usage = .custom) (herror : b.error = "")
    (hfree : isBitSet b.outputs.usedRegsMask (b.inputs.regs 0).index = false)
    (h : b.finalizeInputOutputDirectives .output = .ok b') : b'.error = "" := by
  have hadd := @encodeDirectiveInputOutput_add (b.inputs.regs 0).index 0b1000 .output
    (b.setUsage .output 0 .fixed) (by decide) hfree (by
      show b.outputs.usedRegsCount < 3
      omega)
  have hvs : b.isVs = false := by simp [isVs, htype]
  have hfs : b.isFs = true := by simp [isFs, htype]
  have hcount' : (b.getIoRegisters .output).usedRegsCount = 1 := hcount
  have hcomponents' : ((b.getIoRegisters .output).regs 0).componentsCount = 4 := hcomponents
  have husage' : ((b.getIoRegisters .output).regs 0).usage = .custom := husage
  unfold finalizeInputOutputDirectives at h
  simp only [hvs, hfs, hcount', hcomponents', husage', hadd, and_false, and_true, or_self,
    if_false, if_true, reduceCtorEq, Bool.false_eq_true, ne_eq, not_true_eq_false] at h
  cases h
  exact herror

/-- There is space for the instructions that set up the registers. -/
theorem registerSetup_total {b : PicoGpuBinary} (hlen : b.code.length + 2 < Isa.maxIsaSize) :
    ∃ b', (do
      let b ← encodeNullary .lduni b
      if b.undefinedRegs then .ok b else encodeNullary .initregs b) = .ok b' := by
  have h1 := @append_total b (Instruction.mk .lduni .nullary).dwords (Nat.lt_of_succ_lt hlen)
  have h1 : encodeNullary .lduni b = _ := h1
  rw [h1, ok_bind]
  split
  · exact ⟨_, rfl⟩
  · refine ⟨_, append_total ?_⟩
    show (b.code ++ (Instruction.mk .lduni .nullary).dwords).length + 1 < _
    rw [List.length_append]
    exact hlen

theorem finalizeDirectives_vertexTotal {b : PicoGpuBinary}
    (htype : b.programType = some .vertexShader) (hinputs : b.inputs.usedRegsCount ≠ 0)
    (houtputs : b.outputs.usedRegsCount ≠ 0) (hcomponents : (b.outputs.regs 0).componentsCount = 4)
    (husage : (b.outputs.regs 0).usage = .custom) (hcode : b.code = []) :
    ∃ b', b.finalizeDirectives = .ok b' ∧ b'.error = b.error := by
  let b1 := (b.storeProgramType .vertexShader).storeInputOutput .input
  let b2 := (b1.setUsage .output 0 .fixed).storeInputOutput .output
  let b3 := b2.storeInputOutput .uniform
  have h1 : finalizeInputOutputDirectives .input (b.storeProgramType .vertexShader) = .ok b1 :=
    finalizeInput_vertexShader htype hinputs
  have h2 : finalizeInputOutputDirectives .output b1 = .ok b2 :=
    finalizeOutput_vertexShader htype houtputs hcomponents husage
  have h3 : finalizeInputOutputDirectives .uniform b2 = .ok b3 := rfl
  have htype3 : b3.programType = some .vertexShader := htype
  obtain ⟨b', h'⟩ := @registerSetup_total b3 (by
    show b.code.length + 2 < _
    rw [hcode]
    decide)
  have h : b.finalizeDirectives = .ok b' := by
    unfold finalizeDirectives
    rw [htype]
    show (finalizeInputOutputDirectives .input (b.storeProgramType .vertexShader) >>= _) = _
    rw [h1, ok_bind, h2, ok_bind, h3, ok_bind, htype3, if_neg (by decide), ok_bind]
    exact h'
  obtain ⟨c1, c2, code, g1, g2, rfl⟩ := finalizeDirectives_tables htype h
  rw [h1] at g1
  cases g1
  rw [h2] at g2
  cases g2
  exact ⟨_, h, rfl⟩

end PicoGpuBinary

/-! ## The sections that are accepted -/

/-- The first declaration of a kind is the first register of its table. -/
theorem declared_head {directives : List Directive} {b : PicoGpuBinary} {ioType : IoType}
    {first : RegisterIndex × RegMask} (hb : Declared directives b)
    (hfirst : (declared ioType directives).head? = some first) :
    (b.getIoRegisters ioType).usedRegsCount = (declared ioType directives).length ∧
      ((b.getIoRegisters ioType).regs 0).index = first.1 ∧
      ((b.getIoRegisters ioType).regs 0).usage = .custom ∧
      ((b.getIoRegisters ioType).regs 0).componentsCount =
        countBits (constructMask first.2.components) := by
  have hcollectable := hb.collectable ioType
  rw [hb.registers, collected_count, List.length_map]
  match hdeclared : declared ioType directives, hfirst with
  | d :: rest, hd =>
    cases hd
    rw [hdeclared] at hcollectable
    rw [collected_custom hcollectable 0 (by simp)]
    exact ⟨rfl, rfl, rfl, rfl⟩

/-- The color of a fragment shader is in the register of its position. -/
def ColorInPosition (directives : List Directive) : Prop :=
  directives.filterMap Directive.shaderType = [.fragmentShader] ∧
    ((declared .output directives).map Prod.fst).head? =
      ((declared .input directives).map Prod.fst).head?

theorem finalized_vertex {directives : List Directive} {b : PicoGpuBinary}
    (hb : Declared directives b) (hvs : directives.filterMap Directive.shaderType = [.vertexShader])
    (hinputs : declared .input directives ≠ []) {first : RegisterIndex × RegMask}
    (hfirst : (declared .output directives).head? = some first)
    (hmask : constructMask first.2.components = 0b1111) :
    ∃ b', b.finalizeDirectives = .ok b' ∧ b'.error = b.error := by
  obtain ⟨hcount, -, husage, hcomponents⟩ := @declared_head _ _ .output _ hb hfirst
  apply PicoGpuBinary.finalizeDirectives_vertexTotal (programType_declared hb hvs) _ _ _ husage
    hb.code
  · have hin : b.inputs = _ := hb.registers .input
    rw [hin, collected_count, List.length_map]
    exact mt List.length_eq_zero_iff.mp hinputs
  · have hout : b.outputs.usedRegsCount = _ := hcount
    rw [hout]
    intro hzero
    rw [List.length_eq_zero_iff.mp hzero] at hfirst
    cases hfirst
  · refine Eq.trans hcomponents ?_
    rw [hmask]
    decide

theorem finalized_fragment {directives : List Directive} {b : PicoGpuBinary}
    (hb : Declared directives b)
    (hfs : directives.filterMap Directive.shaderType = [.fragmentShader])
    {position color : RegisterIndex × RegMask}
    (hposition : (declared .input directives).head? = some position)
    (hmask : constructMask position.2.components = 0b1111)
    (hcolor : declared .output directives = [color])
    (hmaskOut : constructMask color.2.components = 0b1111) :
    ∃ b', b.finalizeDirectives = .ok b' ∧
      (b'.error = "" ↔ b.error = "" ∧ ((declared .output directives).map Prod.fst).head? ≠
        ((declared .input directives).map Prod.fst).head?) := by
  have htype := programType_declared hb hfs
  have hcolorFirst : (declared .output directives).head? = some color := by rw [hcolor]; rfl
  obtain ⟨hinputs, hindex, husage, hcomponents⟩ := @declared_head _ _ .input _ hb hposition
  obtain ⟨houtputs, -, husageOut, hcomponentsOut⟩ := @declared_head _ _ .output _ hb hcolorFirst
  have hfour : countBits (0b1111 : Dword) = 4 := by decide
  rw [hmask, hfour] at hcomponents
  rw [hmaskOut, hfour] at hcomponentsOut
  rw [hcolor, List.length_singleton] at houtputs
  have hpositive : 1 ≤ (declared .input directives).length := by
    rw [Nat.one_le_iff_ne_zero]
    intro hzero
    rw [List.length_eq_zero_iff.mp hzero] at hposition
    cases hposition
  have hinputs : b.inputs.usedRegsCount = _ := hinputs
  -- the preamble fits in the memory of a unit
  obtain ⟨r, -, hpreamble⟩ := interpolationInstructions_placed (hb.collectable .input)
    (by rw [List.length_map]; exact hpositive)
  rw [← hb.registers .input] at hpreamble
  obtain ⟨hfit, hlength⟩ := preamble_instructions ((declared .input directives).map passed)
    (registerAt ((declared .input directives).map passed) 0) r
  obtain ⟨b', h, -⟩ := PicoGpuBinary.finalizeDirectives_fragment htype
    (by rw [hinputs]; omega) hcomponents husage (fun _ => husageOut) hb.code hpreamble
    (fun i hi => (hfit i hi).1) (Nat.lt_of_le_of_lt (Nat.add_le_add_right hlength 2) (by decide))
  refine ⟨b', h, ?_⟩
  obtain ⟨b1, b2, code, h1, h2, rfl⟩ := PicoGpuBinary.finalizeDirectives_tables htype h
  rw [@PicoGpuBinary.finalizeInput_fragment (b.storeProgramType .fragmentShader) htype
    (by show b.inputs.usedRegsCount ≠ 0; omega) hcomponents husage] at h1
  -- finalizing the inputs leaves the outputs and the register of the position
  have htype1 : b1.programType = some .fragmentShader := by cases h1; exact htype
  have hout1 : b1.outputs = collected ((declared .output directives).map passed) := by
    cases h1
    exact hb.registers .output
  have herror1 : b1.error = b.error := by cases h1; rfl
  have hindex1 : (b1.inputs.regs 0).index = position.1 := by
    cases h1
    exact (InputOutputRegisters.withUsage_same _ 0 0 .fixed).2.trans hindex
  have houtputs1 : b1.outputs = b.outputs := hout1.trans (hb.registers .output).symm
  -- the only output of the user is the color
  have hfree : isBitSet b1.outputs.usedRegsMask (b1.inputs.regs 0).index = false ↔
      ((declared .output directives).map Prod.fst).head? ≠
        ((declared .input directives).map Prod.fst).head? := by
    rw [hout1, hindex1, List.head?_map, List.head?_map, hposition, hcolorFirst,
      ← Bool.not_eq_true, collected_isBitSet, hcolor]
    simp [passed, eq_comm]
  show b2.error = "" ↔ _
  rw [← hfree]
  constructor
  · intro hclean
    have hclean1 := (PicoGpuBinary.finalizeInputOutputDirectives_continues h2).clean hclean
    exact ⟨herror1.symm.trans hclean1,
      (PicoGpuBinary.finalizeOutput_fragmentClean htype1 h2 hclean).2.2.1⟩
  · rintro ⟨herror, hclean⟩
    apply PicoGpuBinary.finalizeOutput_added htype1 _ _ _ (herror1.trans herror) hclean h2
    · rw [houtputs1]
      exact houtputs
    · rw [houtputs1]
      exact hcomponentsOut
    · rw [houtputs1]
      exact husageOut

/-- **The calls of a directive section that obeys the documented rules abort nowhere, and
    they leave no error exactly when `#undefinedRegs` is not repeated and the section is
    not that of a fragment shader with its color in the register of its position.** -/
theorem directives_accepted_iff {directives : List Directive}
    (hrules : DirectiveRules directives) :
    (∃ b, AssemblerCall.performAll (directives.map Directive.call ++ [.finalizeDirectives]) .new =
        .ok b) ∧
      ((∃ b, AssemblerCall.performAll
          (directives.map Directive.call ++ [.finalizeDirectives]) .new = .ok b ∧ b.error = "") ↔
        directives.count .undefinedRegs ≤ 1 ∧ ¬ ColorInPosition directives) := by
  obtain ⟨b, hcalls, hb, hreported⟩ := @calls_declared directives [] .new hrules declared_new
    reported_new
  rw [List.nil_append] at hb hreported
  have hfinalized : ∃ b', b.finalizeDirectives = .ok b' ∧
      (b'.error = "" ↔ b.error = "" ∧ ¬ ColorInPosition directives) := by
    obtain ⟨programType, htype⟩ := hrules.shaderType
    cases programType with
    | vertexShader =>
      obtain ⟨hinputs, first, hfirst, hfour⟩ := hrules.vertex htype
      obtain ⟨b', h', herror⟩ := finalized_vertex hb htype hinputs hfirst
        (ordered_four (hrules.ordered .output first (List.mem_of_mem_head? hfirst)) hfour)
      refine ⟨b', h', ?_⟩
      have hnot : ¬ ColorInPosition directives := by
        intro h
        have hfs := h.1
        rw [htype] at hfs
        cases hfs
      rw [herror, and_iff_left hnot]
    | fragmentShader =>
      obtain ⟨⟨position, hposition, hposition4⟩, color, hcolor, hcolor4⟩ := hrules.fragment htype
      obtain ⟨b', h', herror⟩ := finalized_fragment hb htype hposition
        (ordered_four (hrules.ordered .input position (List.mem_of_mem_head? hposition)) hposition4)
        hcolor (ordered_four (hrules.ordered .output color (by simp [hcolor])) hcolor4)
      refine ⟨b', h', ?_⟩
      rw [herror, ColorInPosition, and_iff_right htype]
  obtain ⟨b', h', herror⟩ := hfinalized
  have hrun : AssemblerCall.performAll
      (directives.map Directive.call ++ [.finalizeDirectives]) .new = .ok b' := by
    apply AssemblerCall.performAll_append.mpr
    refine ⟨b, hcalls, ?_⟩
    show (b.finalizeDirectives >>= pure) = .ok b'
    rw [h']
    rfl
  refine ⟨⟨b', hrun⟩, ?_⟩
  rw [← hreported.error, ← herror]
  constructor
  · rintro ⟨c, hc, hclean⟩
    rw [hrun] at hc
    cases hc
    exact hclean
  · intro hclean
    exact ⟨b', hrun, hclean⟩

/-- A fragment shader that passes its position on as the color. -/
def passthrough : List Directive :=
  [.fragmentShader, .input 0 (.four .swizzleX .swizzleY .swizzleZ .swizzleW),
    .output 0 (.four .swizzleX .swizzleY .swizzleZ .swizzleW)]

theorem passthrough_rules : DirectiveRules passthrough where
  shaderType := ⟨.fragmentShader, rfl⟩
  count := by
    intro ioType
    cases ioType <;> decide
  ordered := by
    intro ioType
    cases ioType <;> decide
  nodup := by
    intro ioType
    cases ioType <;> decide
  disjoint := by decide
  vertex := by
    intro h
    cases h
  fragment := fun _ => ⟨⟨_, rfl, rfl⟩, _, rfl, rfl⟩

theorem passthrough_refused : DirectiveRules passthrough ∧
    ¬ ∃ b, AssemblerCall.performAll (passthrough.map Directive.call ++ [.finalizeDirectives]) .new =
      .ok b ∧ b.error = "" := by
  refine ⟨passthrough_rules, ?_⟩
  rintro ⟨b, h, hclean⟩
  cases h
  revert hclean
  decide

theorem directives_accepted_one_input : ∃ b, AssemblerCall.performAll
    ((oneInstruction .trap).directives.map Directive.call ++ [.finalizeDirectives]) .new =
      .ok b ∧ b.error = "" := by
  apply (directives_accepted_iff one_input_rules).2.mpr
  refine ⟨by decide, fun h => ?_⟩
  exact absurd h.1 (by decide)

end PicoGpu
