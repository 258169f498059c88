import PicoGpu.PrimitiveAssembler

/- The lengths of the transfers between the blocks. Only the first package of a transfer
   is handshaked, so both ends have to know how many dwords there are, and each works it
   out for itself from its pins, from a request or from a constant. For a pair of shaders
   that belong together this goes well on three links. The vertex shader block sends the
   rasterizer one dword more than there is, since it counts the header of the response
   it has received, and the fragment shader block waits for the results of a full
   batch, however many fragments it sent. -/
namespace PicoGpu

/-! ## The links -/

/-- The dwords of a transfer at its two ends, and those that the sender has for it. -/
structure TransferLengths where
  sent : Nat
  received : Nat
  produced : Nat
  deriving DecidableEq, Repr

def TransferLengths.Agree (l : TransferLengths) : Prop := l.sent = l.received ∧ l.sent ≤ l.produced

structure PipelineLengths where
  assemblerToVertexShader : TransferLengths
  vertexShaderToRasterizer : TransferLengths
  rasterizerToFragmentShader : TransferLengths
  frontendToVertexShader : TransferLengths
  frontendToFragmentShader : TransferLengths
  deriving DecidableEq, Repr

/-- **Both ends agree on every link**, and nothing is sent that was not produced. -/
structure PipelineLengths.Agree (l : PipelineLengths) : Prop where
  assemblerToVertexShader : l.assemblerToVertexShader.Agree
  vertexShaderToRasterizer : l.vertexShaderToRasterizer.Agree
  rasterizerToFragmentShader : l.rasterizerToFragmentShader.Agree
  frontendToVertexShader : l.frontendToVertexShader.Agree
  frontendToFragmentShader : l.frontendToFragmentShader.Agree

/-- `PrimitiveAssembler::assemble` fills and sends `componentsToTransfer` dwords. -/
def PrimitiveAssemblerPins.componentsToTransfer (pins : PrimitiveAssemblerPins) :
    Except FatalError Nat := do
  return verticesInPrimitive * (← pins.inpCustomInputComponents.getTotalCustomComponents)

/-- `sizeof(ShaderFrontendResponse) / sizeof(uint32_t)`. -/
def responseHeaderDwords : Nat := 1

/-- `dwordsToReceive` of `VertexShader::main`, for the response and for the rasterizer. -/
def VertexShaderPins.dwordsToReceive (pins : VertexShaderPins) : Except FatalError Nat := do
  let threadCount := 3
  return responseHeaderDwords +
    (4 + (← pins.inpCustomOutputComponents.getTotalCustomComponents)) * threadCount

/-- What `Rasterizer::receiveFromVs` reads. -/
def receivedVerticesCount (customComponentsPerVertex : Nat) : Nat :=
  verticesInPrimitive * (4 + customComponentsPerVertex)

/-- The loops of `Rasterizer::setupPerTriangleFsState` that fill `dataToSend`. -/
def dataToSendCount (customComponentsPerVertex : Nat) : Nat :=
  (List.range verticesInPrimitive).foldl
    (fun dataToSendCount _ => dataToSendCount + 1 + 1 + 1 + customComponentsPerVertex) 0

/-- `sizeof(response) / sizeof(uint32_t)` of `perFragmentThread`. -/
def fragmentResponseDwords : Nat :=
  let componentsPerOutputFragment := 5
  responseHeaderDwords + Isa.simdSize * componentsPerOutputFragment

/-- What `responseThread` sends to a client: the header, the first result and the others. -/
def responseDwords (request : ShaderFrontendRequest) : Nat :=
  responseHeaderDwords + 1 + (calculateShaderOutputsCount request - 1)

/-- The lengths for a triangle and for a batch of its fragments. The rasterizer and the
    fragment shader block share the pins for the custom components. -/
def transferLengths {V : Type} (paPins : PrimitiveAssemblerPins) (vsPins : VertexShaderPins)
    (fsPins : FragmentShaderPins) (vsUnit fsUnit : ShaderUnit V) (clientToken : BitVec 16)
    (received : Nat → Dword) (floatBytes : BitVec 16 → Dword) (fragments : List UnshadedFragment)
    (perTriangleAttribs : Nat → Dword) : Except FatalError PipelineLengths := do
  let (vsRequest, _) ← vsPins.request clientToken received
  let (fsRequest, _) ← fsPins.request floatBytes clientToken fragments perTriangleAttribs
  let vsResults ← vsUnit.appendOutputRegistersValues (nonZeroCountToInt vsRequest.threadCount)
  let fsResults ← fsUnit.appendOutputRegistersValues (nonZeroCountToInt fsRequest.threadCount)
  let componentsToTransfer ← paPins.componentsToTransfer
  let dwordsToReceive ← vsPins.dwordsToReceive
  let customComponentsPerVertex ← fsPins.inpCustomInputComponents.getTotalCustomComponents
  return {
    assemblerToVertexShader :=
      ⟨componentsToTransfer, ← vsPins.totalInputComponents, componentsToTransfer⟩
    vertexShaderToRasterizer :=
      ⟨dwordsToReceive, receivedVerticesCount customComponentsPerVertex,
        dwordsToReceive - responseHeaderDwords⟩
    rasterizerToFragmentShader :=
      ⟨dataToSendCount customComponentsPerVertex,
        ← calculateTriangleAttributesCount fsPins.inpCustomInputComponents,
        dataToSendCount customComponentsPerVertex⟩
    frontendToVertexShader :=
      ⟨responseDwords vsRequest, dwordsToReceive, responseHeaderDwords + vsResults.length⟩
    frontendToFragmentShader :=
      ⟨responseDwords fsRequest, fragmentResponseDwords,
        responseHeaderDwords + fsResults.length⟩ }

/-! ## The lengths -/

theorem RequestFits.calculateShaderOutputsCount {request : ShaderFrontendRequest}
    {b : PicoGpuBinary} (h : RequestFits request b) (hb : b.Accepted) :
    PicoGpu.calculateShaderOutputsCount request =
      b.outputs.sizes.sum * nonZeroCountToInt request.threadCount := by
  have hwell : b.outputs.WellFormed := hb.wellFormed .output
  have hsizes : sizesOf b.outputs.usedRegsCount request.outputSize0 request.outputSize1
      request.outputSize2 = b.outputs.sizes := by
    rw [← InputOutputRegisters.sizesOf_toFields hwell,
      sizesOf_congr (fun _ => h.outputSize0) h.outputSize1 h.outputSize2, hb.outputs]
    rfl
  unfold PicoGpu.calculateShaderOutputsCount
  rw [componentsOf_eq, h.outputsCount, hb.outputsCount_eq, hsizes]

/-- The outputs of a fragment shader: its color, and the interpolated `z`. -/
theorem PicoGpuBinary.Accepted.fragmentOutputs {fs : PicoGpuBinary} (hfs : fs.Accepted)
    (htype : fs.programType = some .fragmentShader) : fs.outputs.sizes = [4, 1] := by
  have hheader : fs.header.programType = .fragmentShader :=
    Option.some.inj (hfs.programType.symm.trans htype)
  obtain ⟨-, hcount, h0, h1⟩ := hfs.fragment hheader
  unfold InputOutputRegisters.sizes InputOutputRegisters.registers
  rw [hcount]
  show [(fs.outputs.regs 0).componentsCount, (fs.outputs.regs 1).componentsCount] = [4, 1]
  rw [h0, h1]

theorem dataToSendCount_eq (customComponentsPerVertex : Nat) :
    dataToSendCount customComponentsPerVertex =
      verticesInPrimitive * (3 + customComponentsPerVertex) := by
  show 0 + 1 + 1 + 1 + customComponentsPerVertex + 1 + 1 + 1 + customComponentsPerVertex + 1 + 1 +
    1 + customComponentsPerVertex = 3 * (3 + customComponentsPerVertex)
  omega

/-- The lengths for shaders with `components` input components, `custom` custom components
    between them, and a batch of `fragmentsCount`. -/
def lengthsFor (components custom fragmentsCount : Nat) : PipelineLengths where
  assemblerToVertexShader := ⟨3 * components, 3 * components, 3 * components⟩
  vertexShaderToRasterizer := ⟨1 + 3 * (4 + custom), 3 * (4 + custom), 3 * (4 + custom)⟩
  rasterizerToFragmentShader := ⟨3 * (3 + custom), 3 * (3 + custom), 3 * (3 + custom)⟩
  frontendToVertexShader :=
    ⟨1 + 3 * (4 + custom), 1 + 3 * (4 + custom), 1 + 3 * (4 + custom)⟩
  frontendToFragmentShader := ⟨1 + 5 * fragmentsCount, 161, 1 + 5 * fragmentsCount⟩

section
variable {V : Type} {vs fs : PicoGpuBinary} {paPins : PrimitiveAssemblerPins}
  {vsPins : VertexShaderPins} {fsPins : FragmentShaderPins} {vsUnit fsUnit : ShaderUnit V}

theorem transferLengths_eq (hvs : vs.Accepted) (hfs : fs.Accepted)
    (hvsType : vs.programType = some .vertexShader)
    (hfsType : fs.programType = some .fragmentShader) (hmatch : vs.outputs.sizes = fs.inputs.sizes)
    (hpaPins : vs.getVsCustomInputComponents = .ok paPins.inpCustomInputComponents)
    (hvsPins : vsPins.SetFor vs) (hfsPins : fsPins.SetFor vs fs)
    (hvsUnit : vsUnit.Runs vs) (hfsUnit : fsUnit.Runs fs) (clientToken : BitVec 16)
    (received : Nat → Dword) (floatBytes : BitVec 16 → Dword) {fragments : List UnshadedFragment}
    (hpos : fragments ≠ []) (hle : fragments.length ≤ 32) (perTriangleAttribs : Nat → Dword) :
    transferLengths paPins vsPins fsPins vsUnit fsUnit clientToken received floatBytes fragments
        perTriangleAttribs =
      .ok (lengthsFor vs.inputs.sizes.sum vs.outputs.sizes.tail.sum fragments.length) := by
  obtain ⟨-, -, -, -, hpaInputs⟩ := hvs.getVsCustomInputComponents hpaPins
  obtain ⟨-, -, -, -, hvsInputs⟩ := hvs.getVsCustomInputComponents hvsPins.inputs
  obtain ⟨-, -, -, hvsOutputs⟩ := hvs.getVsPsCustomComponents hvsType hvsPins.outputs
  obtain ⟨-, -, -, hfsInputs⟩ := hvs.getVsPsCustomComponents hvsType hfsPins.inputs
  obtain ⟨vsRequest, hvsRequest, hvsFits, hvsThreads⟩ :=
    vsPins.request_fits hvs hvsType hvsPins clientToken received
  obtain ⟨fsRequest, hfsRequest, hfsFits, hfsThreads⟩ := fsPins.request_fits hvs hfs hvsType hfsType
    hmatch hfsPins floatBytes clientToken hpos hle perTriangleAttribs
  obtain ⟨vsResults, hvsResults, hvsLength⟩ := hvsFits.sent hvs hvsUnit
  obtain ⟨fsResults, hfsResults, hfsLength⟩ := hfsFits.sent hfs hfsUnit
  -- the number of results, by the counts of the two headers
  have hvsCount : calculateShaderOutputsCount vsRequest = 3 * (4 + vs.outputs.sizes.tail.sum) := by
    have hcons := InputOutputRegisters.sizes_cons (hvs.vertexOutputs hvsType).2
    rw [hvsFits.calculateShaderOutputsCount hvs, hvsThreads, hcons, List.sum_cons, List.tail_cons,
      Nat.mul_comm]
    rfl
  have hfsCount : calculateShaderOutputsCount fsRequest = 5 * fragments.length := by
    rw [hfsFits.calculateShaderOutputsCount hfs, hfsThreads, hfs.fragmentOutputs hfsType]
    rfl
  have hlength : 1 ≤ fragments.length := List.length_pos_iff.mpr hpos
  unfold transferLengths PrimitiveAssemblerPins.componentsToTransfer
    VertexShaderPins.dwordsToReceive
  simp only [hvsRequest, hfsRequest, hvsResults, hfsResults, ok_bind,
    CustomShaderComponents.getTotalCustomComponents_eq, VertexShaderPins.totalInputComponents_eq,
    calculateTriangleAttributesCount_eq, hpaInputs, hvsInputs, hvsOutputs, hfsInputs]
  show Except.ok _ = Except.ok _
  rw [lengthsFor]
  simp only [Except.ok.injEq, PipelineLengths.mk.injEq, TransferLengths.mk.injEq,
    dataToSendCount_eq, receivedVerticesCount, responseDwords, responseHeaderDwords,
    fragmentResponseDwords, verticesInPrimitive, Isa.simdSize, hvsLength, hfsLength, hvsCount,
    hfsCount, true_and, and_true]
  omega

/-- Three links agree always, one only for full batches, and the one from the vertex shader
    to the rasterizer never. -/
theorem lengthsFor_agree (components custom fragmentsCount : Nat) :
    (lengthsFor components custom fragmentsCount).assemblerToVertexShader.Agree ∧
    ¬ (lengthsFor components custom fragmentsCount).vertexShaderToRasterizer.Agree ∧
    (lengthsFor components custom fragmentsCount).rasterizerToFragmentShader.Agree ∧
    (lengthsFor components custom fragmentsCount).frontendToVertexShader.Agree ∧
    ((lengthsFor components custom fragmentsCount).frontendToFragmentShader.Agree ↔
      fragmentsCount = 32) := by
  simp only [lengthsFor, TransferLengths.Agree, true_and]
  omega

end

/-- **The two ends never agree on all links.** -/
theorem transfer_lengths_disagree {V : Type} {vsProgram fsProgram : Program} {vs fs : PicoGpuBinary}
    (hvs : vsProgram.parse .new = .ok vs) (hfs : fsProgram.parse .new = .ok fs)
    (hvsType : vs.programType = some .vertexShader)
    (hfsType : fs.programType = some .fragmentShader) (hmatch : vs.outputs.sizes = fs.inputs.sizes)
    {paPins : PrimitiveAssemblerPins}
    (hpaPins : vs.getVsCustomInputComponents = .ok paPins.inpCustomInputComponents)
    {vsPins : VertexShaderPins} (hvsPins : vsPins.SetFor vs)
    {fsPins : FragmentShaderPins} (hfsPins : fsPins.SetFor vs fs)
    {vsUnit fsUnit : ShaderUnit V} (hvsUnit : vsUnit.Runs vs) (hfsUnit : fsUnit.Runs fs)
    (clientToken : BitVec 16) (received : Nat → Dword) (floatBytes : BitVec 16 → Dword)
    {fragments : List UnshadedFragment} (hpos : fragments ≠ []) (hle : fragments.length ≤ 32)
    (perTriangleAttribs : Nat → Dword) :
    ∃ lengths, transferLengths paPins vsPins fsPins vsUnit fsUnit clientToken received floatBytes
        fragments perTriangleAttribs = .ok lengths ∧ ¬ lengths.Agree := by
  obtain ⟨_, hvsParsed⟩ := Program.parse_parsed hvs
  obtain ⟨_, hfsParsed⟩ := Program.parse_parsed hfs
  refine ⟨_, transferLengths_eq hvsParsed.accepted hfsParsed.accepted hvsType hfsType hmatch hpaPins
    hvsPins hfsPins hvsUnit hfsUnit clientToken received floatBytes hpos hle perTriangleAttribs,
    fun hagree => ?_⟩
  exact (lengthsFor_agree _ _ _).2.1 hagree.vertexShaderToRasterizer

theorem transfer_lengths_one_input : ∃ lengths,
    transferLengths oneTriangle oneInputPins oneFragmentPins (binaryUnit (parsedBinary .trap))
        (binaryUnit parsedFragment) 0 (fun _ => 0) (BitVec.setWidth 32) [⟨1, 2⟩] (fun _ => 7) =
      .ok lengths ∧ ¬ lengths.Agree :=
  @transfer_lengths_disagree Dword (oneInstruction .trap) oneFragmentInstruction
    (parsedBinary .trap) parsedFragment rfl rfl rfl rfl (by decide) oneTriangle rfl oneInputPins
    oneInputPins_setFor oneFragmentPins oneFragmentPins_setFor (binaryUnit (parsedBinary .trap))
    (binaryUnit parsedFragment) rfl rfl 0 (fun _ => 0) (BitVec.setWidth 32) [⟨1, 2⟩]
    (List.cons_ne_nil _ _) (by decide) fun _ => 7

/-- For a position and nothing else the rasterizer reads 12 dwords of 13, and the fragment
    shader block waits for 161 results of which 6 are sent. -/
theorem position_lengths :
    (oneInstruction .trap).parse .new = .ok (parsedBinary .trap) ∧
      oneFragmentInstruction.parse .new = .ok parsedFragment ∧
      oneInputPins.SetFor (parsedBinary .trap) ∧
      oneFragmentPins.SetFor (parsedBinary .trap) parsedFragment ∧
      ∃ lengths, transferLengths oneTriangle oneInputPins oneFragmentPins
          (binaryUnit (parsedBinary .trap)) (binaryUnit parsedFragment) 0 (fun _ => 0)
          (BitVec.setWidth 32) [⟨1, 2⟩] (fun _ => 7) = .ok lengths ∧
        lengths.vertexShaderToRasterizer = ⟨13, 12, 12⟩ ∧
        lengths.frontendToFragmentShader = ⟨6, 161, 6⟩ :=
  ⟨rfl, rfl, ⟨rfl, rfl, rfl⟩, ⟨rfl, rfl⟩, _, rfl, rfl, rfl⟩

end PicoGpu
