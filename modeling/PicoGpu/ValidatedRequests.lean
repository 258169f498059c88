import PicoGpu.RequestAgreement

/- What the check of the frontend lets through. It compares counts and sizes, but not the
   type of the program, which the request and the header each hold for themselves. The
   frontend counts the dwords of a request by the one and a unit by the other, so a
   shader that is bound to the wrong block passes the check and shifts the stream. -/
namespace PicoGpu

/-! ## Requests that pass the check -/

/-- What holds of a request and a header when the check finds no difference. -/
structure Validated (request : ShaderFrontendRequest) (command : CommandStoreIsa) : Prop where
  inputsCount : command.inputsCount = request.inputsCount
  fragment : request.programType = .fragmentShader →
    request.inputSize0 = intToNonZeroCount 2 2 ∧ command.inputs.size0 = intToNonZeroCount 2 4
  vertex : request.programType ≠ .fragmentShader → command.inputs.size0 = request.inputSize0
  inputSize1 : nonZeroCountToInt command.inputsCount > 1 →
    command.inputs.size1 = request.inputSize1
  inputSize2 : nonZeroCountToInt command.inputsCount > 2 →
    command.inputs.size2 = request.inputSize2
  outputsCount : command.outputsCount = request.outputsCount
  outputSize0 : command.outputs.size0 = request.outputSize0
  outputSize1 : nonZeroCountToInt command.outputsCount > 1 →
    command.outputs.size1 = request.outputSize1
  outputSize2 : nonZeroCountToInt command.outputsCount > 2 →
    command.outputs.size2 = request.outputSize2
  uniformsCount : command.uniformsCount = request.uniformsCount
  uniformSize0 : command.uniformsCount.toNat > 0 → command.uniforms.size0 = request.uniformSize0
  uniformSize1 : command.uniformsCount.toNat > 1 → command.uniforms.size1 = request.uniformSize1
  uniformSize2 : command.uniformsCount.toNat > 2 → command.uniforms.size2 = request.uniformSize2

theorem validateRequest_ok {request : ShaderFrontendRequest} {command : CommandStoreIsa}
    (h : validateRequest request command = .ok ()) : Validated request command := by
  have himp : ∀ {p q : Prop}, ¬ p ∨ q → p → q := fun h hp => h.resolve_left fun hn => hn hp
  have hlast : ∀ {condition : Bool} {error : FatalError},
      fatalErrorIf condition error = .ok () → condition = false := by
    intro condition error h
    cases condition with
    | false => rfl
    | true => exact nomatch h
  obtain ⟨hinputs, h⟩ := fatalErrorIf_bind.mp h
  split at h
  · next hfs =>
    obtain ⟨hfs2, h⟩ := fatalErrorIf_bind.mp h
    obtain ⟨hfs4, h⟩ := fatalErrorIf_bind.mp h
    simp only [fatalErrorIf_bind] at h
    obtain ⟨hin1, hin2, hout, hout0, hout1, hout2, huni, huni0, huni1, h⟩ := h
    have huni2 := hlast h
    simp only [Bool.and_eq_false_iff, decide_eq_false_iff_not, not_not] at *
    exact ⟨hinputs, fun _ => ⟨hfs2, hfs4⟩, fun hn => absurd hfs hn, himp hin1, himp hin2, hout,
      hout0, himp hout1, himp hout2, huni, himp huni0, himp huni1, himp huni2⟩
  · next hvs =>
    simp only [fatalErrorIf_bind] at h
    obtain ⟨hin0, hin1, hin2, hout, hout0, hout1, hout2, huni, huni0, huni1, h⟩ := h
    have huni2 := hlast h
    simp only [Bool.and_eq_false_iff, decide_eq_false_iff_not, not_not] at *
    exact ⟨hinputs, fun hfs => absurd hfs hvs, fun _ => hin0, himp hin1, himp hin2, hout, hout0,
      himp hout1, himp hout2, huni, himp huni0, himp huni1, himp huni2⟩

section
variable {V : Type} {request : ShaderFrontendRequest} {b : PicoGpuBinary}
  {hasNextCommand : BitVec 1} {u : ShaderUnit V}

/-- Apart from the type and the first size, such a request fits the binary. -/
theorem Validated.fits
    (h : Validated request { b.header with hasNextCommand := hasNextCommand }) (hb : b.Accepted) :
    RequestFits { request with
      programType := b.header.programType
      inputSize0 := if b.header.programType = .fragmentShader then intToNonZeroCount 2 2
        else b.header.inputs.size0 } b where
  programType := rfl
  inputsCount := h.inputsCount.symm
  inputSize0 := rfl
  inputSize1 := fun hcount => (h.inputSize1 (by rwa [hb.inputsCount_eq])).symm
  inputSize2 := fun hcount => (h.inputSize2 (by rwa [hb.inputsCount_eq])).symm
  outputsCount := h.outputsCount.symm
  outputSize0 := h.outputSize0.symm
  outputSize1 := fun hcount => (h.outputSize1 (by rwa [hb.outputsCount_eq])).symm
  outputSize2 := fun hcount => (h.outputSize2 (by rwa [hb.outputsCount_eq])).symm
  uniformsCount := h.uniformsCount.symm
  uniformSize0 := fun hcount => (h.uniformSize0 (by rwa [hb.uniformsCount_eq])).symm
  uniformSize1 := fun hcount => (h.uniformSize1 (by rwa [hb.uniformsCount_eq])).symm
  uniformSize2 := fun hcount => (h.uniformSize2 (by rwa [hb.uniformsCount_eq])).symm

/-! ## Dwords by the type of the program -/

/-- The dwords of a request with these inputs. -/
def dwordsFor (programType : ProgramType) (threadCount size0 further uniforms : Nat) : Nat :=
  if programType = .fragmentShader then
    threadCount * 2 + uniforms + verticesInPrimitive * (3 + further)
  else threadCount * (size0 + further) + uniforms

theorem sizesOf_sum {count : Nat} (hpos : 1 ≤ count) (size0 size1 size2 : BitVec 2) :
    (sizesOf count size0 size1 size2).sum =
      nonZeroCountToInt size0 + (sizesOf count size0 size1 size2).tail.sum := by
  obtain ⟨n, rfl⟩ := Nat.exists_eq_add_of_le' hpos
  rfl

/-- The frontend goes by the type in the request. -/
theorem Validated.forwarded
    (h : Validated request { b.header with hasNextCommand := hasNextCommand }) (hb : b.Accepted) :
    calculateShaderInputsCount request = dwordsFor request.programType
      (nonZeroCountToInt request.threadCount) (nonZeroCountToInt request.inputSize0)
      b.inputs.sizes.tail.sum b.uniforms.sizes.sum := by
  have hcount : nonZeroCountToInt request.inputsCount = b.inputs.usedRegsCount := by
    rw [← h.inputsCount]
    exact hb.inputsCount_eq
  have htail : (sizesOf b.inputs.usedRegsCount request.inputSize0 request.inputSize1
      request.inputSize2).tail = b.inputs.sizes.tail :=
    (h.fits hb).inputs_tail hb request.inputSize0
  have huniforms : sizesOf request.uniformsCount.toNat request.uniformSize0 request.uniformSize1
      request.uniformSize2 = b.uniforms.sizes := (h.fits hb).uniforms hb
  unfold calculateShaderInputsCount dwordsFor
  dsimp only
  rw [componentsOf_eq, componentsOf_eq, huniforms, hcount, ← htail, sizesOf_tail_sum,
    sizesOf_sum hb.hasInput, sizesOf_tail_sum]
  split
  · rw [verticesInPrimitive]
    omega
  · rw [Nat.mul_comm]

/-- A unit goes by the type in the header. -/
theorem ShaderUnit.Runs.inputDwordsCount_eq (hu : u.Runs b) (hb : b.Accepted) (threadCount : Nat) :
    u.inputDwordsCount threadCount = .ok (dwordsFor b.header.programType threadCount
      (nonZeroCountToInt b.header.inputs.size0) b.inputs.sizes.tail.sum b.uniforms.sizes.sum) := by
  have hwell : b.inputs.WellFormed := hb.wellFormed .input
  rw [ShaderUnit.inputDwordsCount_eq (hu.countsFit hb), hu.threadDwords hb, hu.uniformsDwords hb,
    hu.inputsOf hb, hu.isFs]
  unfold dwordsFor
  by_cases hfs : b.header.programType = .fragmentShader
  · simp only [hfs, decide_true, if_true, streamInputs_fs hb hfs, List.sum_cons]
  · have hsum : (b.streamInputs.map Prod.snd).sum =
        nonZeroCountToInt b.header.inputs.size0 + b.inputs.sizes.tail.sum := by
      have hsizes := sizesOf_sum hb.hasInput (intToNonZeroCount 2 (b.inputs.regs 0).componentsCount)
        (intToNonZeroCount 2 (b.inputs.regs 1).componentsCount)
        (intToNonZeroCount 2 (b.inputs.regs 2).componentsCount)
      rw [InputOutputRegisters.sizesOf_toFields hwell] at hsizes
      rw [streamInputs_vs hfs, hb.inputs]
      exact hsizes
    simp only [hfs, decide_false, if_false, Bool.false_eq_true, Nat.add_zero, hsum]

/-- The two ways of counting agree for four threads with one further component only. -/
theorem dwordsFor_iff {threadCount further uniforms : Nat} :
    dwordsFor .fragmentShader threadCount 4 further uniforms =
        dwordsFor .vertexShader threadCount 4 further uniforms ↔
      threadCount = 4 ∧ further = 1 := by
  have hfs : dwordsFor .fragmentShader threadCount 4 further uniforms =
      threadCount * 2 + uniforms + (9 + 3 * further) := by
    rw [dwordsFor, if_pos rfl, verticesInPrimitive]
    omega
  have hvs : dwordsFor .vertexShader threadCount 4 further uniforms =
      threadCount * 2 + threadCount * (2 + further) + uniforms := by
    rw [dwordsFor, if_neg (by decide), ← Nat.mul_add, ← Nat.add_assoc]
  rw [hfs, hvs]
  constructor
  · intro h
    have hsum : threadCount * (2 + further) = 9 + 3 * further := by omega
    -- three threads take too little and five too much
    have hfew : ¬ threadCount ≤ 3 := by
      intro hle
      have := Nat.mul_le_mul_right (2 + further) hle
      omega
    have hmany : ¬ 5 ≤ threadCount := by
      intro hle
      have := Nat.mul_le_mul_right (2 + further) hle
      omega
    obtain rfl : threadCount = 4 := by omega
    exact ⟨rfl, by omega⟩
  · rintro ⟨rfl, rfl⟩
    omega

/-! ## When the counts agree -/

/-- The unit receives what the frontend forwards, and sends what the frontend reads. -/
def CountsAgree (request : ShaderFrontendRequest) (u : ShaderUnit V) : Prop :=
  u.inputDwordsCount (nonZeroCountToInt request.threadCount) =
      .ok (calculateShaderInputsCount request) ∧
    ∃ values, u.appendOutputRegistersValues (nonZeroCountToInt request.threadCount) = .ok values ∧
      values.length = calculateShaderOutputsCount request

/-- When only one of the types is the one of fragment shaders, the first input has four
    components for both. -/
theorem Validated.first
    (h : Validated request { b.header with hasNextCommand := hasNextCommand }) (hb : b.Accepted)
    (hne : request.programType ≠ b.header.programType) :
    nonZeroCountToInt b.header.inputs.size0 = 4 ∧
      (request.programType = .vertexShader → nonZeroCountToInt request.inputSize0 = 4) := by
  cases htype : request.programType with
  | fragmentShader =>
    have hsize : b.header.inputs.size0 = intToNonZeroCount 2 4 := (h.fragment htype).2
    exact ⟨by rw [hsize]; rfl, fun hvs => nomatch hvs⟩
  | vertexShader =>
    have hfs : b.header.programType = .fragmentShader := by
      cases hheader : b.header.programType with
      | vertexShader => exact absurd (htype.trans hheader.symm) hne
      | fragmentShader => rfl
    have hsize : b.header.inputs.size0 = intToNonZeroCount 2 4 := by
      rw [hb.inputs]
      exact congrArg (intToNonZeroCount 2) (hb.fragment hfs).1.components
    have hsame : b.header.inputs.size0 = request.inputSize0 :=
      h.vertex (by rw [htype]; decide)
    exact ⟨by rw [hsize]; rfl, fun _ => by rw [← hsame, hsize]; rfl⟩

theorem Validated.inputs_iff
    (h : Validated request { b.header with hasNextCommand := hasNextCommand }) (hb : b.Accepted)
    (hu : u.Runs b) :
    u.inputDwordsCount (nonZeroCountToInt request.threadCount) =
        .ok (calculateShaderInputsCount request) ↔
      request.programType = b.header.programType ∨
        nonZeroCountToInt request.threadCount = 4 ∧ b.inputs.sizes.tail.sum = 1 := by
  rw [hu.inputDwordsCount_eq hb, h.forwarded hb, Except.ok.injEq]
  by_cases hsame : request.programType = b.header.programType
  · refine ⟨fun _ => .inl hsame, fun _ => ?_⟩
    by_cases hfs : b.header.programType = .fragmentShader
    · rw [hsame, hfs]
      rfl
    · have hsize : b.header.inputs.size0 = request.inputSize0 := h.vertex (by rwa [hsame])
      rw [hsame, hsize]
  · obtain ⟨hheader, hrequest⟩ := h.first hb hsame
    rw [or_iff_right hsame, hheader]
    cases hrequestType : request.programType with
    | vertexShader =>
      cases hheaderType : b.header.programType with
      | vertexShader => exact absurd (hrequestType.trans hheaderType.symm) hsame
      | fragmentShader =>
        rw [hrequest hrequestType]
        exact dwordsFor_iff
    | fragmentShader =>
      cases hheaderType : b.header.programType with
      | fragmentShader => exact absurd (hrequestType.trans hheaderType.symm) hsame
      | vertexShader => exact eq_comm.trans dwordsFor_iff

/-- One component more is one register more. -/
theorem further_iff (hb : b.Accepted) :
    b.inputs.sizes.tail.sum = 1 ↔ b.inputs.sizes.tail = [1] := by
  have hwell : b.inputs.WellFormed := hb.wellFormed .input
  have hpos : ∀ size ∈ b.inputs.sizes.tail, 1 ≤ size := fun size hsize =>
    (InputOutputRegisters.sizes_bounds hwell size (List.mem_of_mem_tail hsize)).1
  match b.inputs.sizes.tail, hpos with
  | [], _ => simp
  | [size], _ => simp
  | size :: size' :: sizes, hpos =>
    have hfirst := hpos size (by simp)
    have hsecond := hpos size' (by simp)
    simp only [List.sum_cons, List.cons.injEq, List.cons_ne_nil, and_false, iff_false]
    omega

/-- **The check is enough exactly for the right type of program**, apart from batches of
    four threads with a second input of one component. -/
theorem validated_counts_iff {p : Program} (hp : p.parse .new = .ok b)
    (hvalid : validateRequest request { b.header with hasNextCommand := hasNextCommand } = .ok ())
    (hu : u.Runs b) :
    CountsAgree request u ↔ request.programType = b.header.programType ∨
      nonZeroCountToInt request.threadCount = 4 ∧ b.inputs.sizes.tail = [1] := by
  obtain ⟨_, hparsed⟩ := Program.parse_parsed hp
  have hb := hparsed.accepted
  have h := validateRequest_ok hvalid
  have hsent : ∃ values,
      u.appendOutputRegistersValues (nonZeroCountToInt request.threadCount) = .ok values ∧
        values.length = calculateShaderOutputsCount request := (h.fits hb).sent hb hu
  rw [CountsAgree, and_iff_left hsent, h.inputs_iff hb hu, further_iff hb]

end

/-! ## A vertex shader in the fragment shader block -/

/-- A vertex shader that outputs its inputs, a position and one more component. -/
def passThrough : Program where
  directives := [.vertexShader, .input 0 (.four .swizzleX .swizzleY .swizzleZ .swizzleW),
    .input 1 (.one .swizzleX), .output 0 (.four .swizzleX .swizzleY .swizzleZ .swizzleW),
    .output 1 (.one .swizzleX)]
  instructions := [.trap]
  directives_ne := List.cons_ne_nil _ _
  instructions_ne := trap_ne

def passThroughBinary : PicoGpuBinary := (passThrough.parse .new).toOption.getD .new

/-- The pins of the fragment shader block when it is given the vertex shader. -/
def misboundPins : FragmentShaderPins where
  inpShaderAddress := 0
  inpCustomInputComponents := ⟨1, 0, 3, 3⟩
  inpUniforms := ⟨0, 3, 3, 3⟩
  inpUniformsData := fun _ _ => 0

def misboundRequest (threadCount : BitVec 5) : ShaderFrontendRequest where
  isaAddress := 0
  clientToken := 1
  threadCount := threadCount
  programType := .fragmentShader
  inputsCount := 1
  inputSize0 := 1
  inputSize1 := 0
  inputSize2 := 3
  outputsCount := 1
  outputSize0 := 3
  outputSize1 := 0
  outputSize2 := 0
  uniformsCount := 0
  uniformSize0 := 3
  uniformSize1 := 3
  uniformSize2 := 3

/-- With four fragments the counts happen to agree. -/
theorem misbound_four_agree :
    CountsAgree (misboundRequest 3) (binaryUnit passThroughBinary) :=
  (@validated_counts_iff _ (misboundRequest 3) passThroughBinary 0 (binaryUnit passThroughBinary)
    passThrough rfl rfl rfl).mpr (.inr (by decide))

/-- A request for one fragment passes the check; the frontend forwards 14 dwords and the
    unit receives 5 of them. -/
theorem misbound_shader_accepted :
    passThrough.parse .new = .ok passThroughBinary ∧
      misboundPins.SetFor passThroughBinary passThroughBinary ∧
      (∃ data, misboundPins.request (BitVec.setWidth 32) 0 [⟨0, 0⟩] (fun _ => 0) =
        .ok (misboundRequest 0, data)) ∧
      validateRequest (misboundRequest 0) passThroughBinary.header = .ok () ∧
      calculateShaderInputsCount (misboundRequest 0) = 14 ∧
      (binaryUnit passThroughBinary).Runs passThroughBinary ∧
      (binaryUnit passThroughBinary).inputDwordsCount
        (nonZeroCountToInt (misboundRequest 0).threadCount) = .ok 5 :=
  ⟨rfl, ⟨rfl, rfl⟩, ⟨_, rfl⟩, rfl, rfl, rfl, rfl⟩

end PicoGpu
