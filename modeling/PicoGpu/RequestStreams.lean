import PicoGpu.ShaderRequests
import PicoGpu.ShaderResults

/- A request on its way from a client through the frontend to a shader unit. The client
   takes the sizes from its pins, the frontend from the request, the unit from the
   header of the binary. They agree because all of them come from the tables that the
   directives filled, and so every dword is found where it was put. -/
namespace PicoGpu

/-! ## Units that run a binary -/

/-- The unit's metadata is the header of the binary, apart from `hasNextCommand`. -/
def ShaderUnit.Runs {V : Type} (u : ShaderUnit V) (b : PicoGpuBinary) : Prop :=
  { u.isaMetadata with hasNextCommand := b.header.hasNextCommand } = b.header

namespace PicoGpuBinary

theorem Accepted.inputsCount_eq {b : PicoGpuBinary} (h : b.Accepted) :
    nonZeroCountToInt b.header.inputsCount = b.inputs.usedRegsCount := by
  have hle : b.inputs.usedRegsCount ≤ 3 := (h.wellFormed .input).count
  rw [h.inputsCount, nonZeroCount_roundtrip h.hasInput (by omega)]

theorem Accepted.hasOutput {b : PicoGpuBinary} (h : b.Accepted) : 1 ≤ b.outputs.usedRegsCount := by
  cases htype : b.header.programType with
  | vertexShader => exact (h.vertex htype).1.count
  | fragmentShader =>
    have htwo := (h.fragment htype).2.1
    omega

theorem Accepted.outputsCount_eq {b : PicoGpuBinary} (h : b.Accepted) :
    nonZeroCountToInt b.header.outputsCount = b.outputs.usedRegsCount := by
  have hle : b.outputs.usedRegsCount ≤ 3 := (h.wellFormed .output).count
  rw [h.outputsCount, nonZeroCount_roundtrip h.hasOutput (by omega)]

theorem Accepted.uniformsCount_eq {b : PicoGpuBinary} (h : b.Accepted) :
    b.header.uniformsCount.toNat = b.uniforms.usedRegsCount := by
  have hle : b.uniforms.usedRegsCount ≤ 3 := (h.wellFormed .uniform).count
  rw [h.uniformsCount, BitVec.toNat_ofNat, Nat.mod_eq_of_lt (by omega)]

/-- The registers of the inputs as they come through a stream: of the position of a
    fragment there are three components, whatever the header says. -/
def streamInputs (b : PicoGpuBinary) : List (RegisterIndex × Nat) :=
  if b.header.programType = .fragmentShader then
    b.inputs.registers.modifyHead fun (register, _) => (register, 3)
  else b.inputs.registers

end PicoGpuBinary

section
variable {V : Type} {b : PicoGpuBinary} {u : ShaderUnit V}

theorem ShaderUnit.Runs.isaMetadata (h : u.Runs b) :
    u.isaMetadata = { b.header with hasNextCommand := u.isaMetadata.hasNextCommand } := by
  rw [← show _ = b.header from h]

theorem ShaderUnit.Runs.countsFit (h : u.Runs b) (hb : b.Accepted) : u.CountsFit := by
  refine ⟨?_, ?_⟩
  · rw [h.isaMetadata]
    show b.header.uniformsCount.toNat ≤ 3
    rw [hb.uniformsCount_eq]
    exact (hb.wellFormed .uniform).count
  · rw [h.isaMetadata]
    show nonZeroCountToInt b.header.inputsCount ≤ 3
    rw [hb.inputsCount_eq]
    exact (hb.wellFormed .input).count

theorem ShaderUnit.Runs.isFs (h : u.Runs b) :
    u.isFs = decide (b.header.programType = .fragmentShader) := by
  rw [ShaderUnit.isFs, h.isaMetadata]

theorem ShaderUnit.Runs.inputsOf (h : u.Runs b) (hb : b.Accepted) :
    u.inputsOf = b.streamInputs := by
  have hregisters : b.header.inputs.registers (nonZeroCountToInt b.header.inputsCount) =
      b.inputs.registers := by
    rw [hb.inputsCount_eq, hb.inputs]
    exact InputOutputRegisters.toFields_registers (hb.wellFormed .input)
  unfold ShaderUnit.inputsOf PicoGpuBinary.streamInputs
  rw [h.isFs, h.isaMetadata]
  dsimp only
  rw [hregisters]
  simp only [decide_eq_true_eq]

theorem ShaderUnit.Runs.uniformsOf (h : u.Runs b) (hb : b.Accepted) :
    u.uniformsOf = b.uniforms.registers := by
  unfold ShaderUnit.uniformsOf
  rw [h.isaMetadata]
  dsimp only
  rw [hb.uniformsCount_eq, hb.uniforms]
  exact InputOutputRegisters.toFields_registers (hb.wellFormed .uniform)

end

/-! ## Requests that fit a binary -/

/-- A request with the sizes of a binary. The first input of a fragment shader is `x` and
    `y`; the components of its position come with the attributes. -/
structure RequestFits (request : ShaderFrontendRequest) (b : PicoGpuBinary) : Prop where
  programType : request.programType = b.header.programType
  inputsCount : request.inputsCount = b.header.inputsCount
  inputSize0 : request.inputSize0 =
    if b.header.programType = .fragmentShader then intToNonZeroCount 2 2 else b.header.inputs.size0
  inputSize1 : 1 < b.inputs.usedRegsCount → request.inputSize1 = b.header.inputs.size1
  inputSize2 : 2 < b.inputs.usedRegsCount → request.inputSize2 = b.header.inputs.size2
  outputsCount : request.outputsCount = b.header.outputsCount
  outputSize0 : request.outputSize0 = b.header.outputs.size0
  outputSize1 : 1 < b.outputs.usedRegsCount → request.outputSize1 = b.header.outputs.size1
  outputSize2 : 2 < b.outputs.usedRegsCount → request.outputSize2 = b.header.outputs.size2
  uniformsCount : request.uniformsCount = b.header.uniformsCount
  uniformSize0 : 0 < b.uniforms.usedRegsCount → request.uniformSize0 = b.header.uniforms.size0
  uniformSize1 : 1 < b.uniforms.usedRegsCount → request.uniformSize1 = b.header.uniforms.size1
  uniformSize2 : 2 < b.uniforms.usedRegsCount → request.uniformSize2 = b.header.uniforms.size2

/-- A check that finds no difference. -/
theorem fatalErrorIf_fits {count bound : Nat} {size size' : BitVec 2} {error : FatalError}
    (h : bound < count → size' = size) :
    fatalErrorIf (count > bound && size ≠ size') error = .ok () := by
  by_cases hcount : bound < count
  · rw [h hcount]
    simp [fatalErrorIf]
  · simp [fatalErrorIf, hcount]

theorem RequestFits.validated {request : ShaderFrontendRequest} {b : PicoGpuBinary}
    (h : RequestFits request b) (hb : b.Accepted) (hasNextCommand : BitVec 1) :
    validateRequest request { b.header with hasNextCommand := hasNextCommand } = .ok () := by
  have hnone : ∀ error, fatalErrorIf false error = .ok () := fun _ => rfl
  have hposition : b.header.programType = .fragmentShader →
      b.header.inputs.size0 = intToNonZeroCount 2 4 := by
    intro hfs
    rw [hb.inputs]
    show intToNonZeroCount 2 (b.inputs.regs 0).componentsCount = _
    rw [(hb.fragment hfs).1.components]
  unfold validateRequest
  dsimp only
  rw [← h.inputsCount, ← h.outputsCount, ← h.outputSize0, ← h.uniformsCount, h.programType]
  rw [h.inputsCount, hb.inputsCount_eq, fatalErrorIf_fits h.inputSize1, fatalErrorIf_fits h.inputSize2,
    h.outputsCount, hb.outputsCount_eq, fatalErrorIf_fits h.outputSize1,
    fatalErrorIf_fits h.outputSize2, h.uniformsCount, hb.uniformsCount_eq,
    fatalErrorIf_fits h.uniformSize0, fatalErrorIf_fits h.uniformSize1,
    fatalErrorIf_fits h.uniformSize2]
  by_cases hfs : b.header.programType = .fragmentShader
  · rw [if_pos hfs, h.inputSize0, if_pos hfs, hposition hfs]
    simp [hnone]
  · rw [if_neg hfs, h.inputSize0, if_neg hfs]
    simp [hnone]

/-! ## Counts -/

theorem sizesOf_congr {count : Nat} {size0 size1 size2 size0' size1' size2' : BitVec 2}
    (h0 : 0 < count → size0 = size0') (h1 : 1 < count → size1 = size1')
    (h2 : 2 < count → size2 = size2') :
    sizesOf count size0 size1 size2 = sizesOf count size0' size1' size2' := by
  match count with
  | 0 => rfl
  | 1 => rw [h0 (by decide)]; rfl
  | 2 => rw [h0 (by decide), h1 (by decide)]; rfl
  | count + 3 => rw [h0 (by omega), h1 (by omega), h2 (by omega)]

theorem RequestFits.uniforms {request : ShaderFrontendRequest} {b : PicoGpuBinary}
    (h : RequestFits request b) (hb : b.Accepted) :
    sizesOf request.uniformsCount.toNat request.uniformSize0 request.uniformSize1
      request.uniformSize2 = b.uniforms.sizes := by
  rw [h.uniformsCount, hb.uniformsCount_eq,
    sizesOf_congr h.uniformSize0 h.uniformSize1 h.uniformSize2, hb.uniforms]
  exact InputOutputRegisters.sizesOf_toFields (hb.wellFormed .uniform)

theorem sizesOf_tail_sum (count : Nat) (size0 size1 size2 : BitVec 2) :
    (sizesOf count size0 size1 size2).tail.sum =
      (if count > 1 then nonZeroCountToInt size1 else 0) +
        (if count > 2 then nonZeroCountToInt size2 else 0) := by
  match count with
  | 0 | 1 | 2 => rfl
  | count + 3 =>
    simp only [sizesOf, List.take_succ_cons, List.take_nil, List.tail_cons, List.sum_cons,
      List.sum_nil]
    simp

/-- The inputs behind the first one have the sizes of the table in both kinds of shaders. -/
theorem RequestFits.inputs_tail {request : ShaderFrontendRequest} {b : PicoGpuBinary}
    (h : RequestFits request b) (hb : b.Accepted) (size0 : BitVec 2) :
    (sizesOf b.inputs.usedRegsCount size0 request.inputSize1 request.inputSize2).tail =
      b.inputs.sizes.tail := by
  have hwell : b.inputs.WellFormed := hb.wellFormed .input
  have hfirst : ∀ size0' : BitVec 2,
      (sizesOf b.inputs.usedRegsCount size0 request.inputSize1 request.inputSize2).tail =
        (sizesOf b.inputs.usedRegsCount size0' request.inputSize1 request.inputSize2).tail := by
    intro size0'
    cases b.inputs.usedRegsCount <;> rfl
  rw [hfirst b.header.inputs.size0, ← InputOutputRegisters.sizesOf_toFields hwell,
    sizesOf_congr (fun _ => rfl) h.inputSize1 h.inputSize2, hb.inputs]
  rfl

theorem streamInputs_fs {b : PicoGpuBinary} (hb : b.Accepted)
    (hfs : b.header.programType = .fragmentShader) :
    b.streamInputs.map Prod.snd = 3 :: b.inputs.sizes.tail := by
  have hpos := hb.hasInput
  unfold PicoGpuBinary.streamInputs InputOutputRegisters.sizes InputOutputRegisters.registers
  obtain ⟨count, hcount⟩ := Nat.exists_eq_add_of_le' hpos
  rw [hcount, if_pos hfs]
  rfl

theorem streamInputs_vs {b : PicoGpuBinary} (hvs : b.header.programType ≠ .fragmentShader) :
    b.streamInputs = b.inputs.registers :=
  if_neg hvs

/-- What the frontend forwards: the dwords of the threads, of the uniforms, and for a
    fragment shader of the attributes of three vertices. -/
theorem RequestFits.calculateShaderInputsCount {request : ShaderFrontendRequest}
    {b : PicoGpuBinary} (h : RequestFits request b) (hb : b.Accepted) :
    PicoGpu.calculateShaderInputsCount request =
      if b.header.programType = .fragmentShader then
        nonZeroCountToInt request.threadCount * 2 + b.uniforms.sizes.sum +
          verticesInPrimitive * (b.streamInputs.map Prod.snd).sum
      else nonZeroCountToInt request.threadCount * (b.streamInputs.map Prod.snd).sum +
        b.uniforms.sizes.sum := by
  unfold PicoGpu.calculateShaderInputsCount
  dsimp only
  rw [h.programType, componentsOf_eq, componentsOf_eq, h.uniforms hb, h.inputsCount,
    hb.inputsCount_eq]
  split
  · next hfs =>
    have htail := h.inputs_tail hb request.inputSize0
    rw [streamInputs_fs hb hfs, List.sum_cons, ← htail, sizesOf_tail_sum, verticesInPrimitive]
    omega
  · next hvs =>
    have hwell : b.inputs.WellFormed := hb.wellFormed .input
    have hsizes : sizesOf b.inputs.usedRegsCount request.inputSize0 request.inputSize1
        request.inputSize2 = b.inputs.sizes := by
      rw [← InputOutputRegisters.sizesOf_toFields hwell,
        sizesOf_congr (fun _ => h.inputSize0) h.inputSize1 h.inputSize2, if_neg hvs, hb.inputs]
      rfl
    rw [hsizes, streamInputs_vs hvs, Nat.mul_comm]
    rfl

/-! ## What a unit does with the dwords -/

section
variable {V : Type} {b : PicoGpuBinary} {u : ShaderUnit V} {request : ShaderFrontendRequest}

theorem ShaderUnit.Runs.threadDwords (h : u.Runs b) (hb : b.Accepted) :
    u.threadDwords =
      if b.header.programType = .fragmentShader then 2 else (b.streamInputs.map Prod.snd).sum := by
  unfold ShaderUnit.threadDwords
  rw [h.isFs, h.inputsOf hb]
  simp only [decide_eq_true_eq]

theorem ShaderUnit.Runs.uniformsDwords (h : u.Runs b) (hb : b.Accepted) :
    u.uniformsDwords = b.uniforms.sizes.sum := by
  rw [ShaderUnit.uniformsDwords, h.uniformsOf hb]
  rfl

/-- The unit receives as many dwords as the frontend forwards. -/
theorem RequestFits.received (h : RequestFits request b) (hb : b.Accepted) (hu : u.Runs b) :
    u.inputDwordsCount (nonZeroCountToInt request.threadCount) =
      .ok (PicoGpu.calculateShaderInputsCount request) := by
  rw [ShaderUnit.inputDwordsCount_eq (hu.countsFit hb), h.calculateShaderInputsCount hb,
    hu.threadDwords hb, hu.uniformsDwords hb, hu.inputsOf hb, hu.isFs]
  by_cases hfs : b.header.programType = .fragmentShader
  · simp only [hfs, decide_true, if_true]
  · simp only [hfs, decide_false, if_false, Bool.false_eq_true, Nat.add_zero]

/-- The unit sends as many dwords as the frontend reads. -/
theorem RequestFits.sent (h : RequestFits request b) (hb : b.Accepted) (hu : u.Runs b) :
    ∃ values, u.appendOutputRegistersValues (nonZeroCountToInt request.threadCount) = .ok values ∧
      values.length = calculateShaderOutputsCount request := by
  have hcount : nonZeroCountToInt u.isaMetadata.outputsCount ≤ 3 := by
    rw [hu.isaMetadata]
    show nonZeroCountToInt b.header.outputsCount ≤ 3
    rw [hb.outputsCount_eq]
    exact (hb.wellFormed .output).count
  obtain ⟨values, hvalues⟩ : ∃ values,
      u.appendOutputRegistersValues (nonZeroCountToInt request.threadCount) = .ok values := by
    unfold ShaderUnit.appendOutputRegistersValues
    rw [ShaderUnit.outputRegisters_eq hcount]
    exact ⟨_, rfl⟩
  refine ⟨values, hvalues, ?_⟩
  have hlength := ShaderUnit.appendOutputRegistersValues_length hvalues
  rw [hu.isaMetadata] at hlength
  exact hlength.trans (validateRequest_outputs (h.validated hb 0))

end

/-! ## Uniforms -/

theorem uniformValues_length (sizes : List Nat) (inpUniformsData : Nat → Nat → Dword) :
    (uniformValues sizes inpUniformsData).length = sizes.sum := by
  induction sizes generalizing inpUniformsData with
  | nil => rfl
  | cons size sizes ih =>
    rw [uniformValues, List.length_append, List.length_map, List.length_range, ih, List.sum_cons]

theorem uniformValues_at {registers : List (RegisterIndex × Nat)}
    (inpUniformsData : Nat → Nat → Dword) {i k : Nat} (hi : i < registers.length)
    (hk : k < registers[i].2) :
    (uniformValues (registers.map Prod.snd) inpUniformsData).getD (offsetOf registers i + k) 0 =
      inpUniformsData i k := by
  induction registers generalizing i inpUniformsData with
  | nil => exact nomatch hi
  | cons register registers ih =>
    rw [List.map_cons, uniformValues]
    cases i with
    | zero =>
      have hk : k < register.2 := hk
      have hoffset : offsetOf (register :: registers) 0 + k = k := Nat.zero_add k
      rw [hoffset, List.getD_append _ _ _ _ (by rwa [List.length_map, List.length_range]),
        List.getD_eq_getElem _ _ (by rwa [List.length_map, List.length_range]), List.getElem_map,
        List.getElem_range]
    | succ i =>
      have hlength : ((List.range register.2).map (inpUniformsData 0)).length = register.2 := by
        rw [List.length_map, List.length_range]
      rw [offsetOf_succ_cons, Nat.add_assoc,
        List.getD_append_right _ _ _ _ (by rw [hlength]; exact Nat.le_add_right _ _), hlength,
        Nat.add_sub_cancel_left]
      exact ih _ (Nat.lt_of_succ_lt_succ hi) hk

/-- The first dwords of a stream are the data of a request. -/
def Carries (stream : Nat → Dword) (data : List Dword) : Prop :=
  ∀ k < data.length, stream k = data.getD k 0

/-- The dwords of a part of the data. -/
theorem Carries.part {stream : Nat → Dword} {front part back : List Dword}
    (h : Carries stream (front ++ part ++ back)) {k : Nat} (hk : k < part.length) :
    stream (front.length + k) = part.getD k 0 := by
  have hlength : (front ++ part ++ back).length = front.length + part.length + back.length := by
    rw [List.length_append, List.length_append]
  rw [h _ (by omega), List.append_assoc,
    List.getD_append_right _ _ _ _ (Nat.le_add_right _ _), Nat.add_sub_cancel_left,
    List.getD_append _ _ _ _ hk]

theorem Carries.front {stream : Nat → Dword} {part back : List Dword}
    (h : Carries stream (part ++ back)) {k : Nat} (hk : k < part.length) :
    stream k = part.getD k 0 := by
  rw [h _ (by rw [List.length_append]; omega), List.getD_append _ _ _ _ hk]

/-- The registers of the uniforms hold them in every thread when `lduni` has loaded them,
    whatever the registers and `pc` are by then. -/
def UniformsPlaced (alu : Alu Dword) (b : PicoGpuBinary) (threadCount : Nat)
    (inpUniformsData : Nat → Nat → Dword) (u : ShaderUnit Dword) : Prop :=
  ∀ gpr pc, ∃ gpr', ({ u with gpr, pc } : ShaderUnit Dword).loadUniforms alu threadCount = .ok gpr' ∧
    ∀ l < threadCount, ∀ i, ∀ hi : i < b.uniforms.registers.length,
      ∀ k : Fin 4, k.val < b.uniforms.registers[i].2 →
        (gpr' l b.uniforms.registers[i].1).get k = inpUniformsData i k

theorem uniformsPlaced {alu : Alu Dword} {b : PicoGpuBinary} (hb : b.Accepted)
    {u : ShaderUnit Dword} (hu : u.Runs b) {threadCount : Nat}
    {inpUniformsData : Nat → Nat → Dword} {stream : Nat → Dword} {front back : List Dword}
    (hcarries : Carries stream
      (front ++ uniformValues b.uniforms.sizes inpUniformsData ++ back))
    (huniforms : ∀ k, u.uniformDwords k =
      if k < b.uniforms.sizes.sum then stream (front.length + k) else alu.zero) :
    UniformsPlaced alu b threadCount inpUniformsData u := by
  intro gpr pc
  have hrun : ({ u with gpr, pc } : ShaderUnit Dword).Runs b := hu
  refine ⟨_, ShaderUnit.loadUniforms_eq (hrun.countsFit hb) alu threadCount, ?_⟩
  intro l hl i hi k hk
  have hoffset := offsetOf_add_le hi
  have hinside : offsetOf b.uniforms.registers i + k.val < b.uniforms.sizes.sum := by
    unfold InputOutputRegisters.sizes
    omega
  have hpart := hcarries.part (by rw [uniformValues_length]; exact hinside)
  have hwell : b.uniforms.WellFormed := hb.wellFormed .uniform
  rw [if_pos hl, hrun.uniformsOf hb, storeRegisters_at _
    (InputOutputRegisters.registers_nodup hwell) hi, copyComponents_get, if_pos hk]
  show u.uniformDwords _ = _
  rw [huniforms, if_pos hinside, hpart]
  exact uniformValues_at inpUniformsData hi hk

end PicoGpu
