import PicoGpu.RequestAgreement
import PicoGpu.TransferStream

/- The arrays of fixed size that a request goes through: two clients collect it, the
   frontend forwards it, a unit receives it, and the results come back the same way. No
   code checks an index. Each function below is the list of the elements that the
   function of the source touches, loop by loop; the sizes of the arrays are compared
   with these lists only in the theorems. -/
namespace PicoGpu

/-! ## Accesses -/

inductive StagingBuffer where
  | vertexRequestData | vertexData | fragmentRequestData | shaderInput | shaderOutputs
  | perThreadDwords | uniformDwords | fsVertexAttributesDwords | outputStream
  deriving DecidableEq, Repr

def registerComponentsCount : Nat := 4

/-- The sizes as the source declares them. -/
def StagingBuffer.size : StagingBuffer → Nat
  | vertexRequestData => verticesInPrimitive * registerComponentsCount * Isa.maxInputOutputRegisters
  | vertexData => verticesInPrimitive * registerComponentsCount * Isa.maxInputOutputRegisters
  | fragmentRequestData =>
    Isa.simdSize * 2 + verticesInPrimitive * Isa.maxInputOutputRegisters * registerComponentsCount
  | shaderInput => registerComponentsCount * Isa.maxInputOutputRegisters * (1 + Isa.simdSize)
  | shaderOutputs => registerComponentsCount * Isa.maxInputOutputRegisters * Isa.simdSize + 1
  | perThreadDwords => Isa.simdSize * Isa.maxInputOutputRegisters * registerComponentsCount
  | uniformDwords => Isa.maxInputOutputRegisters * registerComponentsCount
  | fsVertexAttributesDwords =>
    verticesInPrimitive * Isa.maxInputOutputRegisters * registerComponentsCount
  | outputStream => registerComponentsCount * Isa.maxInputOutputRegisters * Isa.simdSize

/-- An element of a buffer that is read or written. -/
structure Access where
  buffer : StagingBuffer
  index : Nat
  deriving DecidableEq, Repr

def Access.InBounds (a : Access) : Prop := a.index < a.buffer.size

instance (a : Access) : Decidable a.InBounds := inferInstanceAs (Decidable (_ < _))

def touch (buffer : StagingBuffer) (indices : List Nat) : List Access :=
  indices.map fun index => ⟨buffer, index⟩

/-- A buffer behind a header, when both are passed as one array. -/
def touchBehind (headerDwords : Nat) (buffer : StagingBuffer) (indices : List Nat) : List Access :=
  touch buffer ((indices.filter (headerDwords ≤ ·)).map (· - headerDwords))

/-- The elements that `sendArrayImpl` and `receiveArrayImpl` go through, package by package. -/
def transferIndices (ports count : Nat) : List Nat :=
  (List.range (packagesCount count ports)).flatMap fun package =>
    (List.range (min ports (count - package * ports))).map (package * ports + ·)

/-- Pieces of these sizes, one behind the other from `start` on. -/
def pieceIndices (start : Nat) : List Nat → List Nat
  | [] => []
  | size :: sizes => (List.range size).map (start + ·) ++ pieceIndices (start + size) sizes

/-- The packages are the array again. -/
theorem transferIndices_eq {ports count : Nat} (hports : 0 < ports) :
    transferIndices ports count = List.range count := by
  have hsome : ∀ packages, ((List.range packages).flatMap fun package =>
      (List.range (min ports (count - package * ports))).map (package * ports + ·)) =
        List.range (min count (packages * ports)) := by
    intro packages
    induction packages with
    | zero => rw [Nat.zero_mul, Nat.min_zero]; rfl
    | succ packages ih =>
      have hsplit : min count ((packages + 1) * ports) =
          min count (packages * ports) + min ports (count - packages * ports) := by
        rw [Nat.succ_mul]
        omega
      rw [List.range_succ, List.flatMap_append, ih, hsplit, List.range_add]
      simp only [List.flatMap_cons, List.flatMap_nil, List.append_nil]
      -- a package behind the end is empty
      by_cases hend : packages * ports ≤ count
      · rw [Nat.min_eq_right hend]
      · have hempty : min ports (count - packages * ports) = 0 := by omega
        rw [hempty]
        rfl
  have hall : count ≤ packagesCount count ports * ports := by
    have hlast := (@lt_packagesCount count ports (packagesCount count ports) hports).not
    exact Nat.le_of_not_lt (hlast.mp (Nat.lt_irrefl _))
  rw [transferIndices, hsome, Nat.min_eq_left hall]

theorem mem_transferIndices {ports count i : Nat} (hports : 0 < ports) :
    i ∈ transferIndices ports count ↔ i < count := by
  rw [transferIndices_eq hports, List.mem_range]

theorem mem_pieceIndices {start i : Nat} {sizes : List Nat} :
    i ∈ pieceIndices start sizes ↔ start ≤ i ∧ i < start + sizes.sum := by
  induction sizes generalizing start with
  | nil =>
    rw [pieceIndices, List.sum_nil]
    simp only [List.not_mem_nil, false_iff]
    omega
  | cons size sizes ih =>
    rw [pieceIndices, List.mem_append, ih, List.sum_cons]
    simp only [List.mem_map, List.mem_range]
    constructor
    · rintro (⟨k, hk, rfl⟩ | ⟨hlow, hhigh⟩)
      · omega
      · omega
    · rintro ⟨hlow, hhigh⟩
      by_cases hi : i < start + size
      · exact .inl ⟨i - start, by omega, by omega⟩
      · exact .inr ⟨by omega, by omega⟩

/-! ## What the blocks touch -/

def CustomShaderComponents.componentsCounts (c : CustomShaderComponents) :
    Except FatalError (List Nat) :=
  (List.range c.registersCount.toNat).mapM c.getCustomComponents

/-- `VertexShader::main` for one triangle. -/
def VertexShaderPins.accesses (pins : VertexShaderPins) : Except FatalError (List Access) := do
  let totalInputComponents ← pins.totalInputComponents
  let uniforms ← pins.inpUniforms.componentsCounts
  let dataDwords := totalInputComponents + uniforms.sum
  let dwordsToReceive := 1 + (4 + (← pins.inpCustomOutputComponents.getTotalCustomComponents)) * 3
  return touch .vertexRequestData (transferIndices 9 totalInputComponents) ++
    touch .vertexRequestData (pieceIndices totalInputComponents uniforms) ++
    touchBehind 3 .vertexRequestData (transferIndices 1 (3 + dataDwords)) ++
    touchBehind 1 .vertexData (transferIndices 1 dwordsToReceive) ++
    touch .vertexData (transferIndices 12 dwordsToReceive)

/-- `FragmentShader::perFragmentThread` for one batch. -/
def FragmentShaderPins.accesses (pins : FragmentShaderPins) (fragmentsCount : Nat) :
    Except FatalError (List Access) := do
  let triangleAttributesCount ← calculateTriangleAttributesCount pins.inpCustomInputComponents
  let positions := List.replicate fragmentsCount 2
  let uniforms ← pins.inpUniforms.componentsCounts
  let dataDwords := positions.sum + uniforms.sum
  return touch .fragmentRequestData (pieceIndices 0 positions) ++
    touch .fragmentRequestData (pieceIndices positions.sum uniforms) ++
    touch .fragmentRequestData (pieceIndices dataDwords [triangleAttributesCount]) ++
    touchBehind 3 .fragmentRequestData
      (transferIndices 1 (3 + (dataDwords + triangleAttributesCount)))

/-- `requestThread` with `executeIsa`, and `responseThread`: the token, the first result and
    the others are stored, and all of them are sent. -/
def frontendAccesses (request : ShaderFrontendRequest) : List Access :=
  let shaderInputsCount := calculateShaderInputsCount request
  let stored := [1, 1, calculateShaderOutputsCount request - 1]
  touch .shaderInput (List.range shaderInputsCount) ++
    touch .shaderInput (List.range shaderInputsCount) ++
    touch .shaderOutputs (pieceIndices 0 stored) ++ touch .shaderOutputs (List.range stored.sum)

/-- `processExecuteIsaCommand`: what is received, what the registers are filled with, the
    loads of the uniforms, and the results. -/
def ShaderUnit.accesses {V : Type} (threadCount : Nat) (u : ShaderUnit V) :
    Except FatalError (List Access) := do
  let inputComponentsCounts := (← u.inputRegisters).map Prod.snd
  let uniformsTotalComponentCount ← u.uniformsTotalComponentCount
  let uniforms ← (List.range u.isaMetadata.uniformsCount.toNat).mapM fun uniformIndex =>
    nonZeroCountToInt <$> u.getUniformSize uniformIndex
  let outputComponentsCounts := (← u.outputRegisters).map Prod.snd
  let outputs := (List.range threadCount).flatMap fun _ => outputComponentsCounts
  let inputs :=
    if u.isFs then
      touch .perThreadDwords (transferIndices 1 (threadCount * 2)) ++
        touch .fsVertexAttributesDwords
          (transferIndices 1 (verticesInPrimitive * inputComponentsCounts.sum)) ++
        touch .perThreadDwords (pieceIndices 0 (List.replicate threadCount 2)) ++
        touch .fsVertexAttributesDwords
          (pieceIndices 0 ((List.range verticesInPrimitive).flatMap fun _ => inputComponentsCounts))
    else
      touch .perThreadDwords (transferIndices 1 (threadCount * inputComponentsCounts.sum)) ++
        touch .perThreadDwords
          (pieceIndices 0 ((List.range threadCount).flatMap fun _ => inputComponentsCounts))
  return inputs ++ touch .uniformDwords (List.range StagingBuffer.uniformDwords.size) ++
    touch .uniformDwords (transferIndices 1 uniformsTotalComponentCount) ++
    touch .uniformDwords (pieceIndices 0 uniforms) ++
    touch .outputStream (pieceIndices 0 outputs) ++
    touch .outputStream (transferIndices 1 outputs.sum)

/-- All of them, for the requests for a triangle and for a batch of its fragments. -/
def requestAccesses {V : Type} (vsPins : VertexShaderPins) (fsPins : FragmentShaderPins)
    (vsUnit fsUnit : ShaderUnit V) (clientToken : BitVec 16) (received : Nat → Dword)
    (floatBytes : BitVec 16 → Dword) (fragments : List UnshadedFragment)
    (perTriangleAttribs : Nat → Dword) : Except FatalError (List Access) := do
  let (vsRequest, _) ← vsPins.request clientToken received
  let (fsRequest, _) ← fsPins.request floatBytes clientToken fragments perTriangleAttribs
  let vertexShader ← vsPins.accesses
  let vertexUnit ← vsUnit.accesses (nonZeroCountToInt vsRequest.threadCount)
  let fragmentShader ← fsPins.accesses fragments.length
  let fragmentUnit ← fsUnit.accesses (nonZeroCountToInt fsRequest.threadCount)
  return vertexShader ++ frontendAccesses vsRequest ++ vertexUnit ++
    (fragmentShader ++ frontendAccesses fsRequest ++ fragmentUnit)

/-! ## When they stay in bounds -/

def InBounds (accesses : List Access) : Prop := ∀ a ∈ accesses, a.InBounds

instance (accesses : List Access) : Decidable (InBounds accesses) :=
  inferInstanceAs (Decidable (∀ a ∈ accesses, a.InBounds))

theorem inBounds_append {xs ys : List Access} :
    InBounds (xs ++ ys) ↔ InBounds xs ∧ InBounds ys :=
  List.forall_mem_append

theorem inBounds_touch {buffer : StagingBuffer} {indices : List Nat} :
    InBounds (touch buffer indices) ↔ ∀ i ∈ indices, i < buffer.size := by
  unfold InBounds touch
  rw [List.forall_mem_map]
  rfl

/-- Indices that are all those below a bound. -/
theorem inBounds_below {buffer : StagingBuffer} {indices : List Nat} {count : Nat}
    (hindices : ∀ i, i ∈ indices ↔ i < count) :
    InBounds (touch buffer indices) ↔ count ≤ buffer.size := by
  rw [inBounds_touch]
  simp only [hindices]
  exact forall_lt_iff_le

theorem inBounds_transfer {buffer : StagingBuffer} {ports count : Nat} (hports : 0 < ports) :
    InBounds (touch buffer (transferIndices ports count)) ↔ count ≤ buffer.size :=
  inBounds_below fun _ => mem_transferIndices hports

theorem inBounds_range {buffer : StagingBuffer} {count : Nat} :
    InBounds (touch buffer (List.range count)) ↔ count ≤ buffer.size :=
  inBounds_below fun _ => List.mem_range

theorem inBounds_behind {buffer : StagingBuffer} {ports count headerDwords : Nat}
    (hports : 0 < ports) :
    InBounds (touchBehind headerDwords buffer (transferIndices ports count)) ↔
      count ≤ headerDwords + buffer.size := by
  rw [touchBehind, inBounds_touch]
  simp only [List.mem_map, List.mem_filter, mem_transferIndices hports, decide_eq_true_eq]
  constructor
  · intro h
    by_contra hlt
    have := h buffer.size ⟨headerDwords + buffer.size, ⟨by omega, by omega⟩, by omega⟩
    omega
  · rintro h i ⟨j, ⟨hj, hheader⟩, rfl⟩
    omega

theorem inBounds_pieces {buffer : StagingBuffer} {start : Nat} {sizes : List Nat} :
    InBounds (touch buffer (pieceIndices start sizes)) ↔
      sizes.sum = 0 ∨ start + sizes.sum ≤ buffer.size := by
  rw [inBounds_touch]
  simp only [mem_pieceIndices]
  constructor
  · intro h
    by_contra hlt
    have := h (start + sizes.sum - 1) ⟨by omega, by omega⟩
    omega
  · intro h i hi
    omega

/-! ## The clients -/

theorem CustomShaderComponents.componentsCounts_eq (c : CustomShaderComponents) :
    c.componentsCounts = .ok c.sizes := by
  have hcount : c.registersCount.toNat < 4 := c.registersCount.isLt
  unfold componentsCounts sizes sizesOf
  generalize c.registersCount.toNat = count at hcount ⊢
  obtain rfl | rfl | rfl | rfl : count = 0 ∨ count = 1 ∨ count = 2 ∨ count = 3 := by omega
  all_goals rfl

theorem VertexShaderPins.accesses_iff (pins : VertexShaderPins) :
    ∃ accesses, pins.accesses = .ok accesses ∧ (InBounds accesses ↔
      verticesInPrimitive * pins.inpCustomInputComponents.sizes.sum + pins.inpUniforms.sizes.sum ≤
          StagingBuffer.vertexRequestData.size ∧
        1 + (4 + pins.inpCustomOutputComponents.sizes.sum) * 3 ≤ StagingBuffer.vertexData.size) := by
  unfold accesses
  rw [totalInputComponents_eq, CustomShaderComponents.componentsCounts_eq,
    CustomShaderComponents.getTotalCustomComponents_eq]
  refine ⟨_, rfl, ?_⟩
  simp only [inBounds_append, inBounds_transfer (by decide : 0 < 9),
    inBounds_transfer (by decide : 0 < 12), inBounds_behind (by decide : 0 < 1), inBounds_pieces]
  omega

theorem FragmentShaderPins.accesses_iff (pins : FragmentShaderPins) (fragmentsCount : Nat) :
    ∃ accesses, pins.accesses fragmentsCount = .ok accesses ∧ (InBounds accesses ↔
      2 * fragmentsCount + pins.inpUniforms.sizes.sum +
          verticesInPrimitive * (3 + pins.inpCustomInputComponents.sizes.sum) ≤
        StagingBuffer.fragmentRequestData.size) := by
  unfold accesses
  rw [calculateTriangleAttributesCount_eq, CustomShaderComponents.componentsCounts_eq]
  refine ⟨_, rfl, ?_⟩
  simp only [inBounds_append, inBounds_behind (by decide : 0 < 1), inBounds_pieces,
    List.sum_replicate_nat, List.sum_cons, List.sum_nil, verticesInPrimitive]
  omega

/-! ## The frontend -/

theorem componentsOf_le (count : Nat) (size0 size1 size2 : BitVec 2) :
    componentsOf count size0 size1 size2 ≤ 12 := by
  have hle : ∀ size : BitVec 2, nonZeroCountToInt size ≤ 4 := fun size => size.isLt
  have h0 := hle size0
  have h1 := hle size1
  have h2 := hle size2
  unfold componentsOf
  split <;> split <;> split <;> omega

theorem threadCount_le (threadCount : BitVec 5) : nonZeroCountToInt threadCount ≤ 32 :=
  threadCount.isLt

/-- The arrays of the frontend are large enough for every request. -/
theorem frontendAccesses_inBounds (request : ShaderFrontendRequest) :
    InBounds (frontendAccesses request) := by
  have hthreads := threadCount_le request.threadCount
  have huniforms := componentsOf_le request.uniformsCount.toNat request.uniformSize0
    request.uniformSize1 request.uniformSize2
  have hinputs : calculateShaderInputsCount request ≤ StagingBuffer.shaderInput.size := by
    have hsize : StagingBuffer.shaderInput.size = 396 := rfl
    have h1 : nonZeroCountToInt request.inputSize1 ≤ 4 := request.inputSize1.isLt
    have h2 : nonZeroCountToInt request.inputSize2 ≤ 4 := request.inputSize2.isLt
    have hthread := Nat.mul_le_mul (componentsOf_le (nonZeroCountToInt request.inputsCount)
      request.inputSize0 request.inputSize1 request.inputSize2) hthreads
    unfold calculateShaderInputsCount
    dsimp only
    split
    · split <;> split <;> omega
    · omega
  have houtputs : calculateShaderOutputsCount request + 1 ≤ StagingBuffer.shaderOutputs.size := by
    have hsize : StagingBuffer.shaderOutputs.size = 385 := rfl
    have hthread := Nat.mul_le_mul (componentsOf_le (nonZeroCountToInt request.outputsCount)
      request.outputSize0 request.outputSize1 request.outputSize2) hthreads
    unfold calculateShaderOutputsCount
    omega
  have hpos : 2 ≤ StagingBuffer.shaderOutputs.size := by decide
  unfold frontendAccesses
  simp only [inBounds_append, inBounds_range, inBounds_pieces, List.sum_cons, List.sum_nil]
  omega

/-! ## A unit -/

theorem sum_flatMap_range (count : Nat) (sizes : List Nat) :
    ((List.range count).flatMap fun _ => sizes).sum = count * sizes.sum := by
  induction count with
  | zero => rw [List.range_zero, List.flatMap_nil, Nat.zero_mul]; rfl
  | succ count ih =>
    rw [List.range_succ, List.flatMap_append, List.sum_append, ih, Nat.succ_mul]
    simp

/-- At most three registers of at most four components. -/
theorem IoFields.registers_sum_le (fields : IoFields) (count : Nat) :
    ((fields.registers count).map Prod.snd).sum ≤ 12 := by
  rw [IoFields.registers_sizes, ← componentsOf_eq]
  exact componentsOf_le _ _ _ _

namespace ShaderUnit
variable {V : Type} {u : ShaderUnit V}

theorem inputsOf_sum_le (u : ShaderUnit V) : (u.inputsOf.map Prod.snd).sum ≤ 12 := by
  have h1 : nonZeroCountToInt u.isaMetadata.inputs.size1 ≤ 4 := u.isaMetadata.inputs.size1.isLt
  have h2 : nonZeroCountToInt u.isaMetadata.inputs.size2 ≤ 4 := u.isaMetadata.inputs.size2.isLt
  have hle := u.isaMetadata.inputs.registers_sum_le (nonZeroCountToInt u.isaMetadata.inputsCount)
  unfold inputsOf
  dsimp only
  split
  · unfold IoFields.registers
    match nonZeroCountToInt u.isaMetadata.inputsCount with
    | 0 => exact Nat.zero_le _
    | 1 => exact Nat.le_of_ble_eq_true rfl
    | 2 =>
      show 3 + (nonZeroCountToInt u.isaMetadata.inputs.size1 + 0) ≤ 12
      omega
    | count + 3 =>
      rw [List.take_of_length_le (by simp)]
      show 3 + (nonZeroCountToInt u.isaMetadata.inputs.size1 +
        (nonZeroCountToInt u.isaMetadata.inputs.size2 + 0)) ≤ 12
      omega
  · exact hle

theorem uniformSizes_eq (h : u.CountsFit) :
    ((List.range u.isaMetadata.uniformsCount.toNat).mapM fun uniformIndex =>
      nonZeroCountToInt <$> u.getUniformSize uniformIndex) = .ok (u.uniformsOf.map Prod.snd) := by
  have hcount := h.uniforms
  unfold uniformsOf
  generalize u.isaMetadata.uniformsCount.toNat = count at hcount ⊢
  obtain rfl | rfl | rfl | rfl : count = 0 ∨ count = 1 ∨ count = 2 ∨ count = 3 := by omega
  all_goals rfl

/-- The arrays of a unit are large enough for every request. -/
theorem accesses_inBounds (h : u.CountsFit)
    (houtputs : nonZeroCountToInt u.isaMetadata.outputsCount ≤ 3) {threadCount : Nat}
    (hthreads : threadCount ≤ 32) :
    ∃ accesses, u.accesses threadCount = .ok accesses ∧ InBounds accesses := by
  have hinputs := u.inputsOf_sum_le
  have huniforms : (u.uniformsOf.map Prod.snd).sum ≤ 12 := IoFields.registers_sum_le _ _
  have hresults : (u.outputsOf.map Prod.snd).sum ≤ 12 := IoFields.registers_sum_le _ _
  have hin := Nat.mul_le_mul hthreads hinputs
  have hout := Nat.mul_le_mul hthreads hresults
  unfold accesses
  rw [inputRegisters_eq h, uniformsTotalComponentCount_eq h, outputRegisters_eq houtputs,
    uniformSizes_eq h]
  refine ⟨_, rfl, ?_⟩
  have hperThread : StagingBuffer.perThreadDwords.size = 384 := rfl
  have huniform : StagingBuffer.uniformDwords.size = 12 := rfl
  have hattributes : StagingBuffer.fsVertexAttributesDwords.size = 36 := rfl
  have hstream : StagingBuffer.outputStream.size = 384 := rfl
  simp only [inBounds_append, inBounds_transfer (by decide : 0 < 1), inBounds_range,
    inBounds_pieces, sum_flatMap_range, huniform, hstream]
  refine ⟨⟨⟨⟨⟨?_, by omega⟩, by omega⟩, by omega⟩, by omega⟩, by omega⟩
  split
  · simp only [inBounds_append, inBounds_transfer (by decide : 0 < 1), inBounds_pieces,
      sum_flatMap_range, List.sum_replicate_nat, hperThread, hattributes, verticesInPrimitive]
    omega
  · simp only [inBounds_append, inBounds_transfer (by decide : 0 < 1), inBounds_pieces,
      sum_flatMap_range, hperThread]
    omega

end ShaderUnit

/-! ## When all of them fit -/

theorem VertexShaderPins.request_ok (pins : VertexShaderPins) (clientToken : BitVec 16)
    (received : Nat → Dword) : ∃ request, pins.request clientToken received = .ok request := by
  unfold request
  rw [totalInputComponents_eq, ok_bind, writeUniforms_eq]
  exact ⟨_, rfl⟩

theorem FragmentShaderPins.request_ok (pins : FragmentShaderPins)
    (floatBytes : BitVec 16 → Dword) (clientToken : BitVec 16) (fragments : List UnshadedFragment)
    (perTriangleAttribs : Nat → Dword) :
    ∃ request, pins.request floatBytes clientToken fragments perTriangleAttribs = .ok request := by
  unfold request
  rw [calculateTriangleAttributesCount_eq, ok_bind, writeUniforms_eq]
  exact ⟨_, rfl⟩

theorem ShaderUnit.Runs.accesses_inBounds {V : Type} {u : ShaderUnit V} {b : PicoGpuBinary}
    (hu : u.Runs b) (hb : b.Accepted) (threadCount : BitVec 5) :
    ∃ accesses, u.accesses (nonZeroCountToInt threadCount) = .ok accesses ∧ InBounds accesses := by
  refine ShaderUnit.accesses_inBounds (hu.countsFit hb) ?_ (threadCount_le threadCount)
  rw [hu.isaMetadata]
  show nonZeroCountToInt b.header.outputsCount ≤ 3
  rw [hb.outputsCount_eq]
  exact (hb.wellFormed .output).count

/-- **No index leaves its array exactly when** the uniforms fit behind the inputs of three
    vertices, the outputs of a vertex are not the largest ones, and the uniforms and
    attributes fit behind the fragments. -/
theorem staging_buffers_iff {V : Type} {vsProgram fsProgram : Program} {vs fs : PicoGpuBinary}
    (hvs : vsProgram.parse .new = .ok vs) (hfs : fsProgram.parse .new = .ok fs)
    (hvsType : vs.programType = some .vertexShader)
    {vsPins : VertexShaderPins} (hvsPins : vsPins.SetFor vs)
    {fsPins : FragmentShaderPins} (hfsPins : fsPins.SetFor vs fs)
    {vsUnit fsUnit : ShaderUnit V} (hvsUnit : vsUnit.Runs vs) (hfsUnit : fsUnit.Runs fs)
    (clientToken : BitVec 16) (received : Nat → Dword) (floatBytes : BitVec 16 → Dword)
    (fragments : List UnshadedFragment) (perTriangleAttribs : Nat → Dword) :
    ∃ accesses, requestAccesses vsPins fsPins vsUnit fsUnit clientToken received floatBytes
        fragments perTriangleAttribs = .ok accesses ∧
      (InBounds accesses ↔
        3 * vs.inputs.sizes.sum + vs.uniforms.sizes.sum ≤ 36 ∧ vs.outputs.sizes.sum ≤ 11 ∧
          2 * fragments.length + fs.uniforms.sizes.sum + 3 * (3 + vs.outputs.sizes.tail.sum) ≤
            100) := by
  obtain ⟨_, hvsParsed⟩ := Program.parse_parsed hvs
  obtain ⟨_, hfsParsed⟩ := Program.parse_parsed hfs
  have hvs := hvsParsed.accepted
  have hfs := hfsParsed.accepted
  obtain ⟨⟨vsRequest, _⟩, hvsRequest⟩ := vsPins.request_ok clientToken received
  obtain ⟨⟨fsRequest, _⟩, hfsRequest⟩ :=
    fsPins.request_ok floatBytes clientToken fragments perTriangleAttribs
  obtain ⟨vertexShader, hvertexShader, hvertexFits⟩ := vsPins.accesses_iff
  obtain ⟨fragmentShader, hfragmentShader, hfragmentFits⟩ := fsPins.accesses_iff fragments.length
  obtain ⟨vertexUnit, hvertexUnit, hvertexUnitFits⟩ := hvsUnit.accesses_inBounds hvs vsRequest.threadCount
  obtain ⟨fragmentUnit, hfragmentUnit, hfragmentUnitFits⟩ :=
    hfsUnit.accesses_inBounds hfs fsRequest.threadCount
  obtain ⟨-, -, -, -, hinputs⟩ := hvs.getVsCustomInputComponents hvsPins.inputs
  obtain ⟨-, -, -, hvsOutputs⟩ := hvs.getVsPsCustomComponents hvsType hvsPins.outputs
  obtain ⟨-, -, -, hfsInputs⟩ := hvs.getVsPsCustomComponents hvsType hfsPins.inputs
  -- the position has four components, the custom outputs come behind it
  have hsum : vs.outputs.sizes.sum = 4 + vs.outputs.sizes.tail.sum := by
    have hcons := InputOutputRegisters.sizes_cons (hvs.vertexOutputs hvsType).2
    rw [hcons, List.sum_cons, List.tail_cons]
  rw [hinputs, hvsOutputs, hvsPins.uniforms, PicoGpuBinary.getUniforms_sizes hvs] at hvertexFits
  rw [hfsInputs, hfsPins.uniforms, PicoGpuBinary.getUniforms_sizes hfs] at hfragmentFits
  unfold requestAccesses
  simp only [hvsRequest, hfsRequest, hvertexShader, hvertexUnit, hfragmentShader, hfragmentUnit,
    ok_bind]
  refine ⟨_, rfl, ?_⟩
  -- only these three buffers can be too small
  have hvertexData : StagingBuffer.vertexData.size = 36 := rfl
  have hvertexRequest : StagingBuffer.vertexRequestData.size = 36 := rfl
  have hfragmentRequest : StagingBuffer.fragmentRequestData.size = 100 := rfl
  rw [hvertexRequest, hvertexData, verticesInPrimitive] at hvertexFits
  rw [hfragmentRequest, verticesInPrimitive] at hfragmentFits
  simp only [inBounds_append, frontendAccesses_inBounds, hvertexUnitFits, hfragmentUnitFits,
    hvertexFits, hfragmentFits, and_true, hsum]
  omega

theorem staging_buffers_one_input : ∃ accesses,
    requestAccesses oneInputPins oneFragmentPins (binaryUnit (parsedBinary .trap))
        (binaryUnit parsedFragment) 0 (fun _ => 0) (BitVec.setWidth 32) [⟨1, 2⟩] (fun _ => 7) =
        .ok accesses ∧ InBounds accesses := by
  obtain ⟨accesses, haccesses, hiff⟩ := @staging_buffers_iff Dword (oneInstruction .trap)
    oneFragmentInstruction (parsedBinary .trap) parsedFragment rfl rfl rfl oneInputPins
    oneInputPins_setFor oneFragmentPins oneFragmentPins_setFor (binaryUnit (parsedBinary .trap))
    (binaryUnit parsedFragment) rfl rfl 0 (fun _ => 0) (BitVec.setWidth 32) [⟨1, 2⟩] (fun _ => 7)
  exact ⟨accesses, haccesses, hiff.mpr (by decide)⟩

/-- A vertex shader with the largest inputs, and a uniform. -/
def largestInputs : Program where
  directives := [.vertexShader, .input 0 (.four .swizzleX .swizzleY .swizzleZ .swizzleW),
    .input 1 (.four .swizzleX .swizzleY .swizzleZ .swizzleW),
    .input 2 (.four .swizzleX .swizzleY .swizzleZ .swizzleW), .uniform 3 (.one .swizzleX),
    .output 0 (.four .swizzleX .swizzleY .swizzleZ .swizzleW)]
  instructions := [.trap]
  directives_ne := List.cons_ne_nil _ _
  instructions_ne := trap_ne

def largestBinary : PicoGpuBinary := (largestInputs.parse .new).toOption.getD .new

def largestPins : VertexShaderPins where
  inpShaderAddress := 0
  inpCustomInputComponents := ⟨3, 3, 3, 3⟩
  inpCustomOutputComponents := ⟨0, 3, 3, 3⟩
  inpUniforms := ⟨1, 0, 3, 3⟩
  inpUniformsData := fun _ _ => 0

/-- The uniform is written behind the 36 dwords of the inputs, where the array ends. -/
theorem uniform_overruns :
    largestInputs.parse .new = .ok largestBinary ∧ largestPins.SetFor largestBinary ∧
      ∃ accesses, largestPins.accesses = .ok accesses ∧ ⟨.vertexRequestData, 36⟩ ∈ accesses ∧
        ¬ Access.InBounds ⟨.vertexRequestData, 36⟩ :=
  ⟨rfl, ⟨rfl, rfl, rfl⟩, _, rfl, by decide, by decide⟩

end PicoGpu
