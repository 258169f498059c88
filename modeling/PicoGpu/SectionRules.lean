import PicoGpu.SectionOutcome

/- The directive sections that are accepted. Each directive is checked against the ones
   before it, and the end of the section against what its type of shader needs; the length
   of the code that an accepted section begins with follows from its directives. -/
namespace PicoGpu

/-! ## The rules that the actions check -/

/-- What is checked at the directives themselves. -/
structure Declarable (directives : List Directive) : Prop where
  shaderType : (directives.filterMap Directive.shaderType).length ≤ 1
  undefinedRegs : directives.count .undefinedRegs ≤ 1
  registers : ∀ ioType, Collectable ((declared ioType directives).map passed)
  distinct : ∀ ioType, ∀ d ∈ declared ioType directives, hasDuplicates d.2.components = false

/-- The rules for a directive section: the components of a directive differ and are the first
    ones, in any order. -/
structure AcceptedDirectives (directives : List Directive) : Prop extends Declarable directives where
  hasType : directives.filterMap Directive.shaderType ≠ []
  vertex : directives.filterMap Directive.shaderType = [.vertexShader] →
    declared .input directives ≠ [] ∧
      ∃ first ∈ (declared .output directives).head?, first.2.components.length = 4
  fragment : directives.filterMap Directive.shaderType = [.fragmentShader] →
    ∃ position ∈ (declared .input directives).head?, position.2.components.length = 4 ∧
      ∃ color, declared .output directives = [color] ∧ color.2.components.length = 4 ∧
        color.1 ≠ position.1

theorem Declarable.append_left {directives more : List Directive}
    (h : Declarable (directives ++ more)) : Declarable directives := by
  have hdeclared : ∀ ioType, declared ioType (directives ++ more) =
      declared ioType directives ++ declared ioType more := fun _ => List.filterMap_append
  obtain ⟨hshader, hundefined, hregisters, hdistinct⟩ := h
  rw [List.filterMap_append, List.length_append] at hshader
  rw [List.count_append] at hundefined
  refine ⟨by omega, by omega, fun ioType => ?_, fun ioType d hd => ?_⟩
  · have h := hregisters ioType
    rw [hdeclared, List.map_append] at h
    exact h.append_left
  · exact hdistinct ioType d (by rw [hdeclared]; exact List.mem_append_left _ hd)

/-- Four components that differ are all of them. -/
theorem distinct_four {m : RegMask} (hdistinct : hasDuplicates m.components = false)
    (hfour : m.components.length = 4) (hmask : constructMask m.components ∈ prefixMasks) :
    constructMask m.components = 0b1111 := by
  cases m with
  | one | two | three => cases hfour
  | four a b c d =>
    revert hdistinct hmask
    cases a <;> cases b <;> cases c <;> cases d <;> decide

/-! ## The directives -/

/-- A binary that the directives so far have left without an error. -/
structure Clean (directives : List Directive) (b : PicoGpuBinary) : Prop extends
    Declared directives b, Reported directives b where
  clean : b.error = ""

theorem clean_new : Clean [] .new := ⟨declared_new, reported_new, rfl⟩

section
variable {directives : List Directive} {d : Directive} {b b' : PicoGpuBinary}

theorem reported_inputOutput {ioType : IoType} {reg : RegisterIndex} {mask : RegMask}
    (hb : Reported directives b) (hd : d ≠ .undefinedRegs)
    (h : Directive.inputOutput ioType reg mask b = .ok b') : Reported (directives ++ [d]) b' := by
  obtain ⟨-, hcall, hclean⟩ := inputOutput_clean h
  obtain ⟨-, -, -, rfl⟩ := PicoGpuBinary.encodeDirectiveInputOutput_clean hcall hclean
  apply reported_other hb hd
  · cases ioType <;> rfl
  · cases ioType <;> rfl

theorem clean_action (hb : Clean directives b) (h : d.action b = .ok b') (hclean : b'.error = "") :
    Clean (directives ++ [d]) b' := by
  refine ⟨declared_step hb.toDeclared h hclean, ?_, hclean⟩
  cases d with
  | input | output | uniform => exact reported_inputOutput hb.toReported nofun h
  | vertexShader | fragmentShader =>
    cases h
    unfold PicoGpuBinary.encodeDirectiveShaderType at hclean ⊢
    split at hclean
    · exact absurd (PicoGpuBinary.addError_clean hclean) (by decide)
    next hnone =>
    rw [if_neg hnone]
    exact reported_other hb.toReported nofun rfl rfl
  | undefinedRegs =>
    obtain ⟨rfl, -⟩ := validateBinary_ok h
    exact reported_undefinedRegs hb.toReported

theorem validateBinary_clean (h : b.error = "") : validateBinary b = .ok b := by
  unfold validateBinary PicoGpuBinary.hasError
  rw [h]
  rfl

theorem inputOutput_total {ioType : IoType} {reg : RegisterIndex} {mask : RegMask}
    (hb : Clean directives b)
    (hdeclares : ∀ other, d.declares other = if other = ioType then some (reg, mask) else none)
    (hd : Declarable (directives ++ [d])) :
    ∃ b', Directive.inputOutput ioType reg mask b = .ok b' ∧ b'.error = "" := by
  have hdeclared : declared ioType (directives ++ [d]) =
      declared ioType directives ++ [(reg, mask)] := by
    rw [declared_append, hdeclares, if_pos rfl]
    rfl
  have hdistinct := hd.distinct ioType (reg, mask) (by simp [hdeclared])
  have hcollectable := hd.registers ioType
  rw [hdeclared, List.map_append] at hcollectable
  obtain ⟨hcount, hnodup, hmasks⟩ := hcollectable
  have hmask : constructMask mask.components ∈ prefixMasks := hmasks (passed (reg, mask)) (by simp)
  have hfree : isBitSet (b.getIoRegisters ioType).usedRegsMask reg = false := by
    rw [hb.registers, Bool.eq_false_iff]
    intro hset
    rw [List.map_append, List.nodup_append] at hnodup
    exact hnodup.2.2 reg (collected_isBitSet.mp hset) reg (by simp [passed]) rfl
  have hroom : (b.getIoRegisters ioType).usedRegsCount < 3 := by
    rw [hb.registers, collected_count]
    rw [List.length_append] at hcount
    exact hcount
  have hadd := PicoGpuBinary.encodeDirectiveInputOutput_add hmask hfree hroom
  have hclean := fun io => (error_setIoRegisters b io ioType).trans hb.clean
  have hdistinct : hasDuplicates mask.components = false := hdistinct
  have hrun : Directive.inputOutput ioType reg mask b = .ok (b.setIoRegisters
      ((b.getIoRegisters ioType).add (reg, constructMask mask.components)) ioType) := by
    unfold Directive.inputOutput RegMask.action
    rw [hdistinct]
    show (calling (b.encodeDirectiveInputOutput reg (constructMask mask.components) ioType) >>=
      validateBinary) = _
    rw [hadd]
    exact validateBinary_clean (hclean _)
  exact ⟨_, hrun, hclean _⟩

theorem shaderType_total {programType : ProgramType} (hb : Clean directives b)
    (hshader : d.shaderType = some programType) (hd : Declarable (directives ++ [d])) :
    (b.encodeDirectiveShaderType programType).error = "" := by
  have hlength := hd.shaderType
  rw [List.filterMap_append, List.filterMap_cons_some hshader, List.length_append, hb.shaderType,
    List.length_cons] at hlength
  unfold PicoGpuBinary.encodeDirectiveShaderType
  cases htype : b.programType with
  | none => exact hb.clean
  | some other =>
    rw [htype, Option.toList_some, List.length_singleton] at hlength
    omega

theorem action_total (hb : Clean directives b) (hd : Declarable (directives ++ [d])) :
    ∃ b', d.action b = .ok b' ∧ b'.error = "" := by
  cases d with
  | input reg mask => exact inputOutput_total hb (fun other => by cases other <;> rfl) hd
  | output reg mask => exact inputOutput_total hb (fun other => by cases other <;> rfl) hd
  | uniform reg mask => exact inputOutput_total hb (fun other => by cases other <;> rfl) hd
  | vertexShader => exact ⟨_, rfl, shaderType_total hb rfl hd⟩
  | fragmentShader => exact ⟨_, rfl, shaderType_total hb rfl hd⟩
  | undefinedRegs =>
    have hclean : b.encodeDirectiveUndefinedRegs.error = "" :=
      (reported_undefinedRegs hb.toReported).error.mpr hd.undefinedRegs
    exact ⟨_, validateBinary_clean hclean, hclean⟩

end

theorem actions_total (rest : List Directive) {directives : List Directive} {b : PicoGpuBinary}
    (hb : Clean directives b) (hrest : Declarable (directives ++ rest)) :
    ∃ b', rest.foldlM (fun b d => d.action b) b = .ok b' ∧ Clean (directives ++ rest) b' := by
  induction rest generalizing directives b with
  | nil =>
    rw [List.append_nil]
    exact ⟨b, rfl, hb⟩
  | cons d rest ih =>
    have hassoc : directives ++ d :: rest = directives ++ [d] ++ rest := by simp
    rw [hassoc] at hrest ⊢
    obtain ⟨b1, h1, hclean1⟩ := action_total hb hrest.append_left
    obtain ⟨b', h', hb'⟩ := ih (clean_action hb h1 hclean1) hrest
    refine ⟨b', ?_, hb'⟩
    rw [List.foldlM_cons, h1]
    exact h'

theorem clean_actions {directives : List Directive} {b : PicoGpuBinary}
    (h : directives.foldlM (fun b d => d.action b) PicoGpuBinary.new = .ok b)
    (hclean : b.error = "") : Clean directives b := by
  have hrun := @foldlM_inv _ _ _ _ (fun past b => b.error = "" → Clean past b)
    (fun hb h hclean => clean_action (hb ((action_continues h).clean hclean)) h hclean)
    directives [] _ _ (fun _ => clean_new) h
  exact hrun hclean

theorem Clean.declarable {directives : List Directive} {b : PicoGpuBinary}
    (h : Clean directives b) : Declarable directives where
  shaderType := by
    rw [h.shaderType]
    cases b.programType with
    | none => exact Nat.zero_le 1
    | some => exact Nat.le_refl 1
  undefinedRegs := h.toReported.error.mp h.clean
  registers := h.collectable
  distinct := h.distinct

theorem Clean.collected {directives : List Directive} {b : PicoGpuBinary}
    (h : Clean directives b) : Collected b :=
  ⟨fun ioType => ⟨_, h.collectable ioType, h.registers ioType⟩, h.code⟩

/-! ## The end of the section -/

section
variable {directives : List Directive} {b b' : PicoGpuBinary}

theorem Declarable.four (h : Declarable directives) {ioType : IoType}
    {first : RegisterIndex × RegMask} (hfirst : (declared ioType directives).head? = some first)
    (hfour : first.2.components.length = 4) : constructMask first.2.components = 0b1111 := by
  have hmem := List.mem_of_mem_head? hfirst
  exact distinct_four (h.distinct ioType first hmem) hfour
    ((h.registers ioType).masks (passed first) (List.mem_map_of_mem hmem))

theorem count_declared (hb : Declared directives b) (ioType : IoType) :
    (b.getIoRegisters ioType).usedRegsCount = (declared ioType directives).length := by
  rw [hb.registers, collected_count, List.length_map]

theorem accepted_vertexRules (hb : Clean directives b)
    (hvs : directives.filterMap Directive.shaderType = [.vertexShader])
    (h : b.finalizeDirectives = .ok b') (hclean : b'.error = "") :
    declared .input directives ≠ [] ∧
      ∃ first ∈ (declared .output directives).head?, first.2.components.length = 4 := by
  obtain ⟨hinputs, houtputs, hposition, -⟩ := PicoGpuBinary.finalizeDirectives_vertex
    hb.toDeclared (programType_declared hb.toDeclared hvs) h hclean
  refine ⟨fun hnone => hinputs ?_, @declared_first _ _ .output hb.toDeclared houtputs hposition⟩
  have hcount := count_declared hb.toDeclared .input
  rw [hnone] at hcount
  exact hcount

theorem accepted_fragmentRules (hb : Clean directives b)
    (hfs : directives.filterMap Directive.shaderType = [.fragmentShader])
    (h : b.finalizeDirectives = .ok b') (hclean : b'.error = "") :
    ∃ position ∈ (declared .input directives).head?, position.2.components.length = 4 ∧
      ∃ color, declared .output directives = [color] ∧ color.2.components.length = 4 ∧
        color.1 ≠ position.1 := by
  obtain ⟨hinputs, hcomponents, houtputs, hcomponentsOut, -⟩ :=
    PicoGpuBinary.finalizeDirectives_fragmentClean hb.toDeclared
      (programType_declared hb.toDeclared hfs) h hclean
  obtain ⟨position, hposition, hposition4⟩ :=
    @declared_first _ _ .input hb.toDeclared hinputs hcomponents
  obtain ⟨color, hcolor, hcolor4⟩ := @declared_first _ _ .output hb.toDeclared
    (show b.outputs.usedRegsCount ≠ 0 by omega) hcomponentsOut
  have honly : declared .output directives = [color] := by
    have hcount : b.outputs.usedRegsCount = _ := count_declared hb.toDeclared .output
    rw [houtputs] at hcount
    obtain ⟨only, honly⟩ := List.length_eq_one_iff.mp hcount.symm
    rw [honly] at hcolor ⊢
    cases hcolor
    rfl
  refine ⟨position, hposition, hposition4, color, honly, hcolor4, ?_⟩
  -- the depth could be added
  obtain ⟨b1, h1, herror⟩ := finalized_fragment hb.toDeclared hfs hposition
    (hb.declarable.four hposition hposition4) honly (hb.declarable.four hcolor hcolor4)
  rw [h] at h1
  cases h1
  have hne := (herror.mp hclean).2
  rw [List.head?_map, List.head?_map, hcolor, hposition] at hne
  exact fun heq => hne (congrArg some heq)

/-- The end of a section leaves no error exactly when the directives keep the rules. -/
theorem finalized_iff (hb : Clean directives b) :
    (∃ b', b.finalizeDirectives = .ok b' ∧ b'.error = "") ↔ AcceptedDirectives directives := by
  constructor
  · rintro ⟨b', h, hclean⟩
    obtain ⟨programType, b1, b2, code, htype, -⟩ := PicoGpuBinary.finalizeDirectives_clean h hclean
    refine ⟨hb.declarable, ?_, fun hvs => accepted_vertexRules hb hvs h hclean,
      fun hfs => accepted_fragmentRules hb hfs h hclean⟩
    rw [hb.shaderType, htype]
    exact List.cons_ne_nil _ _
  · intro hrules
    obtain ⟨programType, htype⟩ : ∃ programType,
        directives.filterMap Directive.shaderType = [programType] :=
      List.length_eq_one_iff.mp (Nat.le_antisymm hrules.shaderType
        (List.length_pos_iff.mpr hrules.hasType))
    cases programType with
    | vertexShader =>
      obtain ⟨hinputs, first, hfirst, hfour⟩ := hrules.vertex htype
      obtain ⟨b', h', herror⟩ := finalized_vertex hb.toDeclared htype hinputs hfirst
        (hrules.toDeclarable.four hfirst hfour)
      exact ⟨b', h', herror.trans hb.clean⟩
    | fragmentShader =>
      obtain ⟨position, hposition, hposition4, color, hcolor, hcolor4, hne⟩ := hrules.fragment htype
      have hcolorFirst : (declared .output directives).head? = some color := by rw [hcolor]; rfl
      obtain ⟨b', h', herror⟩ := finalized_fragment hb.toDeclared htype hposition
        (hrules.toDeclarable.four hposition hposition4) hcolor
        (hrules.toDeclarable.four hcolorFirst hcolor4)
      refine ⟨b', h', herror.mpr ⟨hb.clean, ?_⟩⟩
      rw [List.head?_map, List.head?_map, hcolorFirst, hposition]
      exact fun heq => hne (Option.some.inj heq)

end

/-- An accepted section has left no error before its end either. -/
theorem directiveSection_ok {directives : List Directive} {b : PicoGpuBinary}
    (h : directiveSection directives .new = .ok b) : ∃ b1, Clean directives b1 ∧
      b1.finalizeDirectives = .ok b ∧ b.error = "" := by
  obtain ⟨b1, h1, h⟩ := bind_ok.mp h
  obtain ⟨hfinalize, hclean, hclean1, -⟩ := finalized_clean h
  exact ⟨b1, clean_actions h1 hclean1, hfinalize, hclean⟩

theorem directiveSection_iff (directives : List Directive) :
    (∃ b, directiveSection directives .new = .ok b) ↔ AcceptedDirectives directives := by
  constructor
  · rintro ⟨b, h⟩
    obtain ⟨b1, hb1, hfinalize, hclean⟩ := directiveSection_ok h
    exact (finalized_iff hb1).mp ⟨b, hfinalize, hclean⟩
  · intro hrules
    obtain ⟨b1, h1, hb1⟩ := actions_total directives clean_new
      (by rw [List.nil_append]; exact hrules.toDeclarable)
    rw [List.nil_append] at hb1
    obtain ⟨b, h, hclean⟩ := (finalized_iff hb1).mpr hrules
    refine ⟨b, ?_⟩
    unfold directiveSection
    rw [h1]
    show (calling b1.finalizeDirectives >>= validateBinary) = _
    rw [h]
    exact validateBinary_clean hclean

/-! ## The code of a section -/

open PicoGpuBinary

/-- The dwords that a section puts before the first instruction. -/
def preambleLength (directives : List Directive) : Nat :=
  (if directives.filterMap Directive.shaderType = [.fragmentShader] then
    26 + 6 * ((declared .input directives).length - 1) else 0) + 1 +
    (if .undefinedRegs ∈ directives then 0 else 1)

theorem attributePart_length {inputs : List (RegisterIndex × Dword)} (hin : Collectable inputs)
    (r : InterpolationRegisters) {i : Fin 3} (hi : 1 ≤ i.val) :
    (programDwords (attributePart inputs r i)).length = if i.val < inputs.length then 6 else 0 := by
  have hregs : (collected inputs).withPosition.regs i = collectedRegister inputs i := by
    show Function.update (collected inputs).regs 0 _ i = _
    rw [Function.update_of_ne (by rintro rfl; exact absurd hi (by decide)), collected_regs hin.count]
  unfold attributePart
  rw [hregs]
  unfold collectedRegister
  by_cases hlt : i.val < inputs.length
  · rw [List.getElem?_eq_getElem hlt, if_pos rfl, if_pos hlt]
    exact (attributeInstructions_fit _ r i).2
  · rw [List.getElem?_eq_none (Nat.le_of_not_lt hlt), if_neg nofun, if_neg hlt]
    rfl

theorem interpolation_length {inputs : List (RegisterIndex × Dword)} (hin : Collectable inputs)
    (hpos : 1 ≤ inputs.length) {is : List Instruction}
    (h : interpolationInstructions (collected inputs).withPosition = .ok is) :
    (programDwords is).length = 26 + 6 * (inputs.length - 1) := by
  obtain ⟨r, -, his⟩ := interpolationInstructions_placed hin hpos
  rw [h] at his
  cases his
  have hdepth := (depthInstructions_fit (registerAt inputs 0) r).2
  have h1 := attributePart_length hin r (show 1 ≤ (1 : Fin 3).val from Nat.le_refl 1)
  have h2 := attributePart_length hin r (show 1 ≤ (2 : Fin 3).val from Nat.le_succ 1)
  have hcount := hin.count
  unfold programDwords at hdepth h1 h2 ⊢
  rw [List.flatMap_append, List.flatMap_append, List.length_append, List.length_append, hdepth, h1,
    h2, show (1 : Fin 3).val = 1 from rfl, show (2 : Fin 3).val = 2 from rfl]
  split <;> split <;> omega

/-- The code of the preamble, before the registers are set up. -/
theorem interpolationCode_length {directives : List Directive} {b b3 b4 : PicoGpuBinary}
    (hb : Declared directives b) (hpos : b.inputs.usedRegsCount ≠ 0)
    (hinputs : b3.inputs = b.inputs.withPosition) (hcode : b3.code = [])
    (h : encodeAttributeInterpolationForFragmentShader b3 = .ok b4) :
    b4.code.length = 26 + 6 * ((declared .input directives).length - 1) := by
  have hregisters : b.inputs = _ := hb.registers .input
  obtain ⟨is, his, hencode⟩ := bind_ok.mp h
  obtain ⟨rfl, -⟩ := encodeAll_ok hencode
  rw [hinputs, hregisters] at his
  rw [hregisters, collected_count] at hpos
  show (b3.code ++ programDwords is).length = _
  rw [hcode, List.nil_append,
    interpolation_length (hb.collectable .input) (Nat.pos_of_ne_zero hpos) his, List.length_map]

theorem finalizeDirectives_length {directives : List Directive} {b b' : PicoGpuBinary}
    (hb : Clean directives b) (h : b.finalizeDirectives = .ok b') (hclean : b'.error = "") :
    b'.code.length = preambleLength directives ∧ b'.programType = b.programType := by
  obtain ⟨programType, -, -, -, htype, -⟩ := finalizeDirectives_clean h hclean
  obtain ⟨b1, b2, b3, b4, b5, h1, h2, h3, h4, h5, h6⟩ := finalizeDirectives_steps htype h
  obtain ⟨c1, c2, g1, g2, hfinal, -⟩ := finalizeTables_total hb.collected programType
  rw [h1] at g1
  cases g1
  rw [h2] at g2
  cases g2
  cases h3
  have hcode3 := hfinal.code.trans hb.code
  obtain ⟨rfl, -⟩ := append_ok h5
  have hshader : directives.filterMap Directive.shaderType = [programType] := by
    rw [hb.shaderType, htype]
    rfl
  -- the setup of the registers
  have hsetup : b' = { b4 with code := b'.code } ∧ b'.code.length =
      b4.code.length + 1 + (if b4.undefinedRegs then 0 else 1) := by
    split at h6
    · next hset =>
      cases h6
      rw [if_pos hset]
      exact ⟨rfl, List.length_append⟩
    · next hset =>
      obtain ⟨rfl, -⟩ := append_ok h6
      rw [if_neg hset]
      refine ⟨rfl, ?_⟩
      show ((b4.code ++ _) ++ _).length = _
      rw [List.length_append, List.length_append]
      rfl
  obtain ⟨hsame, hlength⟩ := hsetup
  have hundefined : b4.undefinedRegs = b.undefinedRegs ∧ b4.programType = b.programType ∧
      b4.code.length = (if directives.filterMap Directive.shaderType = [.fragmentShader] then
        26 + 6 * ((declared .input directives).length - 1) else 0) := by
    rw [hshader]
    split at h4
    · next hfs =>
      have hfs : b.programType = some .fragmentShader := hfinal.programType.symm.trans hfs
      obtain ⟨hpos, hposition⟩ := finalizeDirectives_position hfs h hclean
      obtain ⟨is, -, hencode⟩ := bind_ok.mp h4
      obtain ⟨hb4, -⟩ := encodeAll_ok hencode
      have hinputs : (b2.storeInputOutput .uniform).inputs = b.inputs.withPosition := by
        rw [← hposition, hsame, hb4]
      rw [hfs] at htype
      cases htype
      rw [if_pos rfl]
      refine ⟨?_, ?_, interpolationCode_length hb.toDeclared hpos hinputs hcode3 h4⟩
      · rw [hb4]
        exact hfinal.undefinedRegs
      · rw [hb4]
        exact hfinal.programType
    · next hfs =>
      cases h4
      rw [if_neg, hcode3]
      · exact ⟨hfinal.undefinedRegs, hfinal.programType, rfl⟩
      · intro heq
        cases heq
        exact hfs (hfinal.programType.trans htype)
  obtain ⟨hregs, htype4, hlength4⟩ := hundefined
  refine ⟨?_, by rw [hsame]; exact htype4⟩
  unfold preambleLength
  rw [hlength, hlength4, hregs]
  congr 1
  by_cases hmem : Directive.undefinedRegs ∈ directives
  · rw [if_pos hmem, if_pos (hb.toReported.undefinedRegs.mpr hmem)]
  · rw [if_neg hmem, if_neg (mt hb.toReported.undefinedRegs.mp hmem)]

/-- What an accepted section leaves for the instructions. -/
theorem directiveSection_length {directives : List Directive} {b : PicoGpuBinary}
    (h : directiveSection directives .new = .ok b) :
    b.code.length = preambleLength directives ∧ b.error = "" ∧
      directives.filterMap Directive.shaderType = b.programType.toList := by
  obtain ⟨b0, hb0, hfinalize, hclean⟩ := directiveSection_ok h
  obtain ⟨hlength, htype⟩ := finalizeDirectives_length hb0 hfinalize hclean
  exact ⟨hlength, hclean, by rw [hb0.shaderType, htype]⟩

end PicoGpu
