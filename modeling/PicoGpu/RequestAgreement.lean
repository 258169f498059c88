import PicoGpu.RequestStreams

/- The requests of the two shader blocks, with their pins set to what the getters of the
   binaries return. They fit the binaries, so they pass the check of the frontend, and
   each value that a block puts in a request reaches the lane, the register and the
   component that it is meant for. -/
namespace PicoGpu

/-! ## Pins that are set for a pair of shaders -/

structure VertexShaderPins.SetFor (pins : VertexShaderPins) (vs : PicoGpuBinary) : Prop where
  inputs : vs.getVsCustomInputComponents = .ok pins.inpCustomInputComponents
  outputs : vs.getVsPsCustomComponents = .ok pins.inpCustomOutputComponents
  uniforms : pins.inpUniforms = vs.getUniforms

structure FragmentShaderPins.SetFor (pins : FragmentShaderPins) (vs fs : PicoGpuBinary) : Prop where
  inputs : vs.getVsPsCustomComponents = .ok pins.inpCustomInputComponents
  uniforms : pins.inpUniforms = fs.getUniforms

/-- The component counts of a table that fills the pins. -/
theorem registersCount_toNat {count : Nat} (h : count ≤ 3) :
    (BitVec.ofNat 2 count).toNat = count := by
  rw [BitVec.toNat_ofNat, Nat.mod_eq_of_lt (by omega)]

namespace InputOutputRegisters

theorem sizes_length {io : InputOutputRegisters} (h : io.WellFormed) :
    io.sizes.length = io.usedRegsCount := by
  rw [sizes, List.length_map, registers_length h]

theorem sizes_getD {io : InputOutputRegisters} (h : io.WellFormed) (i : Fin 3)
    (hi : i.val < io.usedRegsCount) : io.sizes.getD i.val 0 = (io.regs i).componentsCount := by
  have hlength : i.val < io.registers.length := by rwa [registers_length h]
  rw [List.getD_eq_getElem _ _ (by rwa [sizes_length h])]
  simp only [sizes, List.getElem_map, registers_at i hlength]

theorem sizes_bounds {io : InputOutputRegisters} (h : io.WellFormed) :
    ∀ size ∈ io.sizes, 1 ≤ size ∧ size ≤ 4 := by
  intro size hsize
  obtain ⟨i, hi, rfl⟩ := List.getElem_of_mem hsize
  have hcount : i < io.usedRegsCount := by rwa [← sizes_length h]
  have hle := h.count
  have hget := sizes_getD h ⟨i, by omega⟩ hcount
  rw [List.getD_eq_getElem _ _ hi] at hget
  rw [hget]
  exact h.used ⟨i, by omega⟩ hcount

end InputOutputRegisters

/-- Sizes that went through fields of two bits. -/
theorem sizesOf_roundtrip {sizes : List Nat} (hlength : sizes.length ≤ 3)
    (h : ∀ size ∈ sizes, 1 ≤ size ∧ size ≤ 4) :
    sizesOf sizes.length (intToNonZeroCount 2 (sizes.getD 0 0))
      (intToNonZeroCount 2 (sizes.getD 1 0)) (intToNonZeroCount 2 (sizes.getD 2 0)) = sizes := by
  have hround : ∀ size ∈ sizes, nonZeroCountToInt (intToNonZeroCount 2 size) = size :=
    fun size hsize => nonZeroCount_roundtrip (h size hsize).1 (h size hsize).2
  match sizes, hlength, hround with
  | [], _, _ => rfl
  | [a], _, hround =>
    show [_] = [a]
    rw [List.getD_cons_zero, hround a List.mem_cons_self]
  | [a, b], _, hround =>
    show [_, _] = [a, b]
    rw [List.getD_cons_zero, List.getD_cons_succ, List.getD_cons_zero, hround a (by simp),
      hround b (by simp)]
  | [a, b, c], _, hround =>
    show [_, _, _] = [a, b, c]
    rw [List.getD_cons_zero, List.getD_cons_succ, List.getD_cons_zero, List.getD_cons_succ,
      List.getD_cons_succ, List.getD_cons_zero, hround a (by simp), hround b (by simp),
      hround c (by simp)]

namespace PicoGpuBinary

theorem getUniforms_sizes {b : PicoGpuBinary} (hb : b.Accepted) :
    b.getUniforms.sizes = b.uniforms.sizes := by
  have hwell : b.uniforms.WellFormed := hb.wellFormed .uniform
  rw [CustomShaderComponents.sizes, getUniforms, registersCount_toNat hwell.count]
  exact InputOutputRegisters.sizesOf_toFields hwell

theorem Accepted.getVsCustomInputComponents {vs : PicoGpuBinary} (hvs : vs.Accepted)
    {components : CustomShaderComponents}
    (h : vs.getVsCustomInputComponents = .ok components) :
    components.registersCount = BitVec.ofNat 2 vs.inputs.usedRegsCount ∧
      components.comp0 = vs.header.inputs.size0 ∧ components.comp1 = vs.header.inputs.size1 ∧
        components.comp2 = vs.header.inputs.size2 ∧ components.sizes = vs.inputs.sizes := by
  have hwell : vs.inputs.WellFormed := hvs.wellFormed .input
  unfold PicoGpuBinary.getVsCustomInputComponents at h
  split at h
  · exact nomatch h
  · exact nomatch h
  · cases h
    rw [hvs.inputs]
    refine ⟨rfl, rfl, rfl, rfl, ?_⟩
    rw [CustomShaderComponents.sizes, registersCount_toNat hwell.count]
    exact InputOutputRegisters.sizesOf_toFields hwell

theorem Accepted.vertexOutputs {vs : PicoGpuBinary} (hvs : vs.Accepted)
    (htype : vs.programType = some .vertexShader) :
    vs.header.programType = .vertexShader ∧ vs.outputs.FixedFirst := by
  have hheader : vs.header.programType = .vertexShader :=
    Option.some.inj (hvs.programType.symm.trans htype)
  exact ⟨hheader, (hvs.vertex hheader).1⟩

/-- The pins between the shaders have the sizes behind the position. -/
theorem Accepted.getVsPsCustomComponents {vs : PicoGpuBinary} (hvs : vs.Accepted)
    (htype : vs.programType = some .vertexShader) {components : CustomShaderComponents}
    (h : vs.getVsPsCustomComponents = .ok components) :
    components.registersCount.toNat + 1 = vs.outputs.usedRegsCount ∧
      components.comp0 = intToNonZeroCount 2 (vs.outputs.sizes.getD 1 0) ∧
      components.comp1 = intToNonZeroCount 2 (vs.outputs.sizes.getD 2 0) ∧
      components.sizes = vs.outputs.sizes.tail := by
  have hwell : vs.outputs.WellFormed := hvs.wellFormed .output
  have hfixed := (hvs.vertexOutputs htype).2
  have hcount := hwell.count
  have hpos := hfixed.count
  have htail : vs.outputs.sizes.tail.length + 1 = vs.outputs.usedRegsCount := by
    rw [List.length_tail, InputOutputRegisters.sizes_length hwell]
    omega
  have hgetD : ∀ i, vs.outputs.sizes.tail.getD i 0 = vs.outputs.sizes.getD (i + 1) 0 := by
    intro i
    cases vs.outputs.sizes <;> rfl
  unfold PicoGpuBinary.getVsPsCustomComponents at h
  rw [htype] at h
  dsimp only at h
  rw [InputOutputRegisters.customComponents_eq hwell hfixed] at h
  split at h
  · exact nomatch h
  · cases h
    have hround := registersCount_toNat (show vs.outputs.sizes.tail.length ≤ 3 by omega)
    refine ⟨?_, congrArg (intToNonZeroCount 2) (hgetD 0), congrArg (intToNonZeroCount 2) (hgetD 1), ?_⟩
    · rw [hround]
      exact htail
    · rw [CustomShaderComponents.sizes, hround]
      exact sizesOf_roundtrip (by omega) fun size hsize =>
        InputOutputRegisters.sizes_bounds hwell size (List.mem_of_mem_tail hsize)

end PicoGpuBinary

/-! ## The requests fit the binaries -/

/-- The uniforms of a request. -/
theorem getUniforms_fits {b : PicoGpuBinary} (hb : b.Accepted) :
    b.getUniforms.registersCount.setWidth 3 = b.header.uniformsCount ∧
      b.getUniforms.comp0 = b.header.uniforms.size0 ∧
        b.getUniforms.comp1 = b.header.uniforms.size1 ∧
          b.getUniforms.comp2 = b.header.uniforms.size2 := by
  have hle : b.uniforms.usedRegsCount ≤ 3 := (hb.wellFormed .uniform).count
  rw [hb.uniforms]
  refine ⟨?_, rfl, rfl, rfl⟩
  apply BitVec.eq_of_toNat_eq
  rw [hb.uniformsCount_eq, BitVec.toNat_setWidth, PicoGpuBinary.getUniforms,
    registersCount_toNat hle, Nat.mod_eq_of_lt (by omega)]

theorem VertexShaderPins.totalInputComponents_eq (pins : VertexShaderPins) :
    pins.totalInputComponents =
      .ok (verticesInPrimitive * pins.inpCustomInputComponents.sizes.sum) := by
  unfold totalInputComponents
  rw [CustomShaderComponents.getTotalCustomComponents_eq]
  rfl

theorem VertexShaderPins.request_fits {pins : VertexShaderPins} {vs : PicoGpuBinary}
    (hvs : vs.Accepted) (htype : vs.programType = some .vertexShader) (hpins : pins.SetFor vs)
    (clientToken : BitVec 16) (received : Nat → Dword) :
    ∃ request, pins.request clientToken received = .ok (request,
        (List.range (verticesInPrimitive * vs.inputs.sizes.sum)).map received ++
          uniformValues vs.uniforms.sizes pins.inpUniformsData) ∧
      RequestFits request vs ∧ nonZeroCountToInt request.threadCount = verticesInPrimitive := by
  obtain ⟨hheader, hfixed⟩ := hvs.vertexOutputs htype
  have hwell : vs.outputs.WellFormed := hvs.wellFormed .output
  have hinputsLe : vs.inputs.usedRegsCount ≤ 3 := (hvs.wellFormed .input).count
  obtain ⟨hinCount, hin0, hin1, hin2, hinSizes⟩ := hvs.getVsCustomInputComponents hpins.inputs
  obtain ⟨houtCount, hout1, hout2, -⟩ := hvs.getVsPsCustomComponents htype hpins.outputs
  obtain ⟨huniCount, huni0, huni1, huni2⟩ := getUniforms_fits hvs
  have houtLe := hwell.count
  unfold VertexShaderPins.request
  rw [VertexShaderPins.totalInputComponents_eq, ok_bind, writeUniforms_eq, ok_bind, hinSizes,
    hpins.uniforms, PicoGpuBinary.getUniforms_sizes hvs]
  refine ⟨_, rfl, ?_, rfl⟩
  have hvsType : ¬ vs.header.programType = .fragmentShader := by
    rw [hheader]
    decide
  constructor
  case programType => exact hheader.symm
  case inputsCount =>
    rw [hvs.inputsCount, hinCount, registersCount_toNat hinputsLe]
  case inputSize0 =>
    rw [if_neg hvsType]
    exact hin0
  case inputSize1 => exact fun _ => hin1
  case inputSize2 => exact fun _ => hin2
  case outputsCount =>
    rw [hvs.outputsCount, ← houtCount]
    exact onePlusCount_eq (by omega)
  case outputSize0 =>
    rw [hvs.outputs]
    exact congrArg (intToNonZeroCount 2) hfixed.components.symm
  case outputSize1 =>
    intro h
    rw [hvs.outputs]
    exact hout1.trans (congrArg _ (InputOutputRegisters.sizes_getD hwell 1 h))
  case outputSize2 =>
    intro h
    rw [hvs.outputs]
    exact hout2.trans (congrArg _ (InputOutputRegisters.sizes_getD hwell 2 h))
  case uniformsCount => exact huniCount
  case uniformSize0 => exact fun _ => huni0
  case uniformSize1 => exact fun _ => huni1
  case uniformSize2 => exact fun _ => huni2

theorem FragmentShaderPins.request_fits {pins : FragmentShaderPins} {vs fs : PicoGpuBinary}
    (hvs : vs.Accepted) (hfs : fs.Accepted) (hvsType : vs.programType = some .vertexShader)
    (hfsType : fs.programType = some .fragmentShader) (hmatch : vs.outputs.sizes = fs.inputs.sizes)
    (hpins : pins.SetFor vs fs) (floatBytes : BitVec 16 → Dword) (clientToken : BitVec 16)
    {fragments : List UnshadedFragment} (hpos : fragments ≠ []) (hle : fragments.length ≤ 32)
    (perTriangleAttribs : Nat → Dword) :
    ∃ request, pins.request floatBytes clientToken fragments perTriangleAttribs = .ok (request,
        (fragments.flatMap fun fragment => [floatBytes fragment.x, floatBytes fragment.y]) ++
          uniformValues fs.uniforms.sizes pins.inpUniformsData ++
            (List.range (verticesInPrimitive * (fs.streamInputs.map Prod.snd).sum)).map
              perTriangleAttribs) ∧
      RequestFits request fs ∧ nonZeroCountToInt request.threadCount = fragments.length := by
  have hheader : fs.header.programType = .fragmentShader :=
    Option.some.inj (hfs.programType.symm.trans hfsType)
  have hwell : fs.inputs.WellFormed := hfs.wellFormed .input
  obtain ⟨hinCount, hin1, hin2, hinSizes⟩ := hvs.getVsPsCustomComponents hvsType hpins.inputs
  obtain ⟨hfixed, houtCount, hout0, hout1⟩ := hfs.fragment hheader
  obtain ⟨huniCount, huni0, huni1, huni2⟩ := getUniforms_fits hfs
  have hinLe := hwell.count
  -- equal lists of sizes have the same length
  have hcounts : vs.outputs.usedRegsCount = fs.inputs.usedRegsCount := by
    have hvsWell : vs.outputs.WellFormed := hvs.wellFormed .output
    rw [← InputOutputRegisters.sizes_length hwell, ← hmatch,
      InputOutputRegisters.sizes_length hvsWell]
  rw [hmatch] at hin1 hin2 hinSizes
  rw [hcounts] at hinCount
  have hattributes : calculateTriangleAttributesCount pins.inpCustomInputComponents =
      .ok (verticesInPrimitive * (fs.streamInputs.map Prod.snd).sum) := by
    rw [calculateTriangleAttributesCount_eq, hinSizes, streamInputs_fs hfs hheader, List.sum_cons,
      Nat.mul_comm]
  unfold FragmentShaderPins.request
  rw [hattributes, ok_bind, writeUniforms_eq, ok_bind, hpins.uniforms,
    PicoGpuBinary.getUniforms_sizes hfs]
  have hlength : 1 ≤ fragments.length := List.length_pos_iff.mpr hpos
  refine ⟨_, rfl, ?_, nonZeroCount_roundtrip hlength hle⟩
  constructor
  case programType => exact hheader.symm
  case inputsCount =>
    rw [hfs.inputsCount, ← hinCount]
    exact onePlusCount_eq (by omega)
  case inputSize0 => rw [if_pos hheader]
  case inputSize1 =>
    intro h
    rw [hfs.inputs]
    exact hin1.trans (congrArg _ (InputOutputRegisters.sizes_getD hwell 1 h))
  case inputSize2 =>
    intro h
    rw [hfs.inputs]
    exact hin2.trans (congrArg _ (InputOutputRegisters.sizes_getD hwell 2 h))
  case outputsCount => rw [hfs.outputsCount, houtCount]
  case outputSize0 =>
    rw [hfs.outputs]
    exact congrArg (intToNonZeroCount 2) hout0.symm
  case outputSize1 =>
    intro _
    rw [hfs.outputs]
    exact congrArg (intToNonZeroCount 2) hout1.symm
  -- there are two outputs, so no third size to compare
  case outputSize2 =>
    intro h
    omega
  case uniformsCount => exact huniCount
  case uniformSize0 => exact fun _ => huni0
  case uniformSize1 => exact fun _ => huni1
  case uniformSize2 => exact fun _ => huni2

/-! ## Where the values end up -/

/-- Component `k` of input `i` of vertex `l` of the triangle, in lane `l`. -/
def VertexInputsPlaced (vs : PicoGpuBinary) (received : Nat → Dword) (u : ShaderUnit Dword) :
    Prop :=
  ∀ l < verticesInPrimitive, ∀ i, ∀ hi : i < vs.inputs.registers.length,
    ∀ k : Fin 4, k.val < vs.inputs.registers[i].2 →
      (u.gpr l vs.inputs.registers[i].1).get k =
        received (l * vs.inputs.sizes.sum + offsetOf vs.inputs.registers i + k)

/-- The position of fragment `l` in lane `l`, and in every lane component `k` of attribute
    `i` of vertex `v`, in the register that the unit allocates for it. -/
def FragmentInputsPlaced (fs : PicoGpuBinary) (floatBytes : BitVec 16 → Dword)
    (fragments : List UnshadedFragment) (perTriangleAttribs : Nat → Dword)
    (u : ShaderUnit Dword) : Prop :=
  ∀ l, ∀ hl : l < fragments.length,
    (u.gpr l (fs.inputs.regs 0).index).x = floatBytes fragments[l].x ∧
    (u.gpr l (fs.inputs.regs 0).index).y = floatBytes fragments[l].y ∧
    ∀ v < verticesInPrimitive, ∀ i, ∀ hi : i < fs.streamInputs.length,
      ∀ k : Fin 4, k.val < fs.streamInputs[i].2 →
        (u.gpr l ((RegisterAllocator.ofIsaMetadata fs.header).free.getD
          (v * fs.streamInputs.length + i) 0)).get k =
            perTriangleAttribs
              (v * (fs.streamInputs.map Prod.snd).sum + offsetOf fs.streamInputs i + k)

section
variable {alu : Alu Dword} {b : PicoGpuBinary} {u : ShaderUnit Dword}

theorem getD_map_range {n k : Nat} (f : Nat → Dword) (hk : k < n) :
    ((List.range n).map f).getD k 0 = f k := by
  rw [List.getD_eq_getElem _ _ (by rwa [List.length_map, List.length_range]), List.getElem_map,
    List.getElem_range]

/-- The pair of fragment `l`. -/
theorem getD_pairs (f g : UnshadedFragment → Dword) (fragments : List UnshadedFragment) {l : Nat}
    (hl : l < fragments.length) :
    (fragments.flatMap fun fragment => [f fragment, g fragment]).getD (l * 2) 0 = f fragments[l] ∧
    (fragments.flatMap fun fragment => [f fragment, g fragment]).getD (l * 2 + 1) 0 =
      g fragments[l] := by
  induction fragments generalizing l with
  | nil => exact nomatch hl
  | cons fragment fragments ih =>
    cases l with
    | zero => exact ⟨rfl, rfl⟩
    | succ l =>
      rw [Nat.succ_mul]
      exact ih (Nat.lt_of_succ_lt_succ hl)

theorem length_pairs (f g : UnshadedFragment → Dword) (fragments : List UnshadedFragment) :
    (fragments.flatMap fun fragment => [f fragment, g fragment]).length = fragments.length * 2 := by
  induction fragments with
  | nil => rfl
  | cons fragment fragments ih =>
    have hcons : (fragment :: fragments).length * 2 = fragments.length * 2 + 2 := Nat.succ_mul _ _
    rw [List.flatMap_cons, List.length_append, ih, hcons, Nat.add_comm]
    rfl

/-- A unit that has received its inputs. -/
theorem ShaderUnit.Runs.initialized (hu : u.Runs b) (hb : b.Accepted) (threadCount : Nat)
    (stream : Nat → Dword) :
    ∃ u', u.initializeInputRegisters alu threadCount stream = .ok u' ∧ u'.Runs b ∧
      (∀ l < threadCount, u'.gpr l = u.startLane alu (fun k => stream (l * u.threadDwords + k))
        (fun k => stream (threadCount * u.threadDwords + u.uniformsDwords + k)) (u.gpr l)) ∧
      ∀ k, u'.uniformDwords k = if k < b.uniforms.sizes.sum then
        stream (threadCount * u.threadDwords + k) else alu.zero := by
  refine ⟨_, ShaderUnit.initializeInputRegisters_eq (hu.countsFit hb) alu threadCount stream, hu,
    fun l hl => if_pos hl, fun k => ?_⟩
  rw [← hu.uniformsDwords hb]

theorem vertexInputsPlaced (hu : u.Runs b) (hb : b.Accepted)
    (hvs : ¬ b.header.programType = .fragmentShader) {stream received : Nat → Dword}
    {back : List Dword} {attributes : Nat → Dword} {u' : ShaderUnit Dword}
    (hcarries : Carries stream
      ((List.range (verticesInPrimitive * b.inputs.sizes.sum)).map received ++ back))
    (hgpr : ∀ l < verticesInPrimitive, u'.gpr l =
      u.startLane alu (fun k => stream (l * u.threadDwords + k)) attributes (u.gpr l)) :
    VertexInputsPlaced b received u' := by
  intro l hl i hi k hk
  have hwell : b.inputs.WellFormed := hb.wellFormed .input
  have hdwords : u.threadDwords = b.inputs.sizes.sum := by
    rw [hu.threadDwords hb, if_neg hvs, streamInputs_vs hvs]
    rfl
  have hinputs : u.inputsOf = b.inputs.registers := by
    rw [hu.inputsOf hb, streamInputs_vs hvs]
  have hfs : u.isFs = false := by
    rw [hu.isFs]
    exact decide_eq_false hvs
  have hinside : l * b.inputs.sizes.sum + (offsetOf b.inputs.registers i + k) <
      verticesInPrimitive * b.inputs.sizes.sum := by
    have hoffset : offsetOf b.inputs.registers i + b.inputs.registers[i].2 ≤ b.inputs.sizes.sum :=
      offsetOf_add_le hi
    have hlanes : (l + 1) * b.inputs.sizes.sum ≤ verticesInPrimitive * b.inputs.sizes.sum :=
      Nat.mul_le_mul_right _ hl
    rw [Nat.succ_mul] at hlanes
    omega
  have hpart := hcarries.front (by rwa [List.length_map, List.length_range])
  rw [hgpr l hl]
  unfold ShaderUnit.startLane
  rw [hfs, if_neg Bool.false_ne_true, hinputs,
    storeRegisters_at id (InputOutputRegisters.registers_nodup hwell) hi, copyComponents_get,
    if_pos hk, hdwords]
  rw [hpart, getD_map_range _ hinside, Nat.add_assoc]

theorem fragmentInputsPlaced (hu : u.Runs b) (hb : b.Accepted)
    (hfs : b.header.programType = .fragmentShader) (floatBytes : BitVec 16 → Dword)
    {fragments : List UnshadedFragment} {uniforms : List Dword} {perTriangleAttribs : Nat → Dword}
    {stream : Nat → Dword} {u' : ShaderUnit Dword}
    (hcarries : Carries stream
      ((fragments.flatMap fun fragment => [floatBytes fragment.x, floatBytes fragment.y]) ++
        uniforms ++ (List.range (verticesInPrimitive * (b.streamInputs.map Prod.snd).sum)).map
          perTriangleAttribs))
    (huniforms : uniforms.length = u.uniformsDwords)
    (hgpr : ∀ l < fragments.length, u'.gpr l =
      u.startLane alu (fun k => stream (l * u.threadDwords + k))
        (fun k => stream (fragments.length * u.threadDwords + u.uniformsDwords + k)) (u.gpr l)) :
    FragmentInputsPlaced b floatBytes fragments perTriangleAttribs u' := by
  intro l hl
  have hisFs : u.isFs = true := by
    rw [hu.isFs]
    exact decide_eq_true hfs
  have hdwords : u.threadDwords = 2 := by rw [hu.threadDwords hb, if_pos hfs]
  have hregister : u.isaMetadata.inputs.register0 = (b.inputs.regs 0).index := by
    rw [hu.isaMetadata]
    dsimp only
    rw [hb.inputs]
    rfl
  have hallocator : RegisterAllocator.ofIsaMetadata u.isaMetadata =
      RegisterAllocator.ofIsaMetadata b.header := by
    rw [hu.isaMetadata]
    rfl
  have hpairs := length_pairs (fun fragment => floatBytes fragment.x)
    (fun fragment => floatBytes fragment.y) fragments
  obtain ⟨hx, hy⟩ := getD_pairs (fun fragment => floatBytes fragment.x)
    (fun fragment => floatBytes fragment.y) fragments hl
  have hposition := ShaderUnit.startLane_position hisFs alu
    (fun k => stream (l * u.threadDwords + k))
    (fun k => stream (fragments.length * u.threadDwords + u.uniformsDwords + k)) (u.gpr l)
  rw [hregister, hdwords] at hposition
  rw [hgpr l hl, hdwords, hposition]
  rw [List.append_assoc] at hcarries
  refine ⟨(hcarries.front (by omega)).trans hx, (hcarries.front (by omega)).trans hy, ?_⟩
  intro v hv i hi k hk
  have hattribute := ShaderUnit.startLane_attribute (hu.countsFit hb) hisFs alu
    (fun k => stream (l * u.threadDwords + k))
    (fun k => stream (fragments.length * u.threadDwords + u.uniformsDwords + k)) (u.gpr l) hv
    (by rwa [hu.inputsOf hb]) k
  simp only [hu.inputsOf hb, hallocator, hdwords, if_pos hk] at hattribute
  -- the attribute is inside of the block of its vertex
  have hinside : v * (b.streamInputs.map Prod.snd).sum + offsetOf b.streamInputs i + k <
      verticesInPrimitive * (b.streamInputs.map Prod.snd).sum := by
    have hoffset := offsetOf_add_le hi
    have hvertices : (v + 1) * (b.streamInputs.map Prod.snd).sum ≤
        verticesInPrimitive * (b.streamInputs.map Prod.snd).sum := Nat.mul_le_mul_right _ hv
    rw [Nat.succ_mul] at hvertices
    omega
  rw [← List.append_assoc, ← List.append_nil (_ ++ _ ++ _)] at hcarries
  have hpart := hcarries.part (by rwa [List.length_map, List.length_range])
  rw [List.length_append, hpairs, huniforms, getD_map_range _ hinside] at hpart
  exact hattribute.trans hpart

end

/-! ## The requests agree -/

/-- A request and its data that the frontend and a unit with the binary understand alike;
    `placed` says where the unit has the values when its program starts. -/
structure RequestAgrees (alu : Alu Dword) (b : PicoGpuBinary) (request : ShaderFrontendRequest)
    (data : List Dword) (placed : ShaderUnit Dword → Prop) : Prop where
  validated : ∀ hasNextCommand,
    validateRequest request { b.header with hasNextCommand := hasNextCommand } = .ok ()
  forwarded : data.length = calculateShaderInputsCount request
  received : ∀ u : ShaderUnit Dword, u.Runs b →
    u.inputDwordsCount (nonZeroCountToInt request.threadCount) = .ok data.length
  started : ∀ u : ShaderUnit Dword, u.Runs b → ∀ stream, Carries stream data →
    ∃ u', (u.clearRegisters alu).initializeInputRegisters alu
        (nonZeroCountToInt request.threadCount) stream = .ok u' ∧ placed u'
  sent : ∀ u : ShaderUnit Dword, u.Runs b → ∃ values,
    u.appendOutputRegistersValues (nonZeroCountToInt request.threadCount) = .ok values ∧
      values.length = calculateShaderOutputsCount request

theorem VertexShaderPins.request_agrees {pins : VertexShaderPins} {vs : PicoGpuBinary}
    (hvs : vs.Accepted) (htype : vs.programType = some .vertexShader) (hpins : pins.SetFor vs)
    (alu : Alu Dword) (clientToken : BitVec 16) (received : Nat → Dword) :
    ∃ request data, pins.request clientToken received = .ok (request, data) ∧
      RequestAgrees alu vs request data fun u => VertexInputsPlaced vs received u ∧
        UniformsPlaced alu vs verticesInPrimitive pins.inpUniformsData u := by
  have hheader := (hvs.vertexOutputs htype).1
  have hvsType : ¬ vs.header.programType = .fragmentShader := by
    rw [hheader]
    decide
  obtain ⟨request, hrequest, hfits, hthreads⟩ :=
    pins.request_fits hvs htype hpins clientToken received
  have hsizes : (vs.streamInputs.map Prod.snd).sum = vs.inputs.sizes.sum := by
    rw [streamInputs_vs hvsType]
    rfl
  have hforwarded : ((List.range (verticesInPrimitive * vs.inputs.sizes.sum)).map received ++
      uniformValues vs.uniforms.sizes pins.inpUniformsData).length =
        calculateShaderInputsCount request := by
    rw [hfits.calculateShaderInputsCount hvs, if_neg hvsType, hthreads, hsizes,
      List.length_append, List.length_map, List.length_range, uniformValues_length]
  refine ⟨request, _, hrequest, hfits.validated hvs, hforwarded, ?_, ?_,
    fun u hu => hfits.sent hvs hu⟩
  · intro u hu
    rw [hforwarded]
    exact hfits.received hvs hu
  · intro u hu stream hcarries
    -- `Runs` is about the header, which clearing the registers leaves alone
    have hu0 : (u.clearRegisters alu).Runs vs := hu
    have hdwords : (u.clearRegisters alu).threadDwords = vs.inputs.sizes.sum := by
      rw [hu0.threadDwords hvs, if_neg hvsType, hsizes]
    obtain ⟨u', hinit, hu', hgpr, huniforms⟩ :=
      @ShaderUnit.Runs.initialized alu vs _ hu0 hvs verticesInPrimitive stream
    rw [hthreads]
    refine ⟨u', hinit, vertexInputsPlaced hu0 hvs hvsType hcarries hgpr, ?_⟩
    have hback : Carries stream ((List.range (verticesInPrimitive * vs.inputs.sizes.sum)).map
        received ++ uniformValues vs.uniforms.sizes pins.inpUniformsData ++ []) := by
      rwa [List.append_nil]
    refine uniformsPlaced hvs hu' hback fun k => ?_
    rw [huniforms, hdwords, List.length_map, List.length_range]

theorem FragmentShaderPins.request_agrees {pins : FragmentShaderPins} {vs fs : PicoGpuBinary}
    (hvs : vs.Accepted) (hfs : fs.Accepted) (hvsType : vs.programType = some .vertexShader)
    (hfsType : fs.programType = some .fragmentShader) (hmatch : vs.outputs.sizes = fs.inputs.sizes)
    (hpins : pins.SetFor vs fs) (alu : Alu Dword) (floatBytes : BitVec 16 → Dword)
    (clientToken : BitVec 16) {fragments : List UnshadedFragment} (hpos : fragments ≠ [])
    (hle : fragments.length ≤ 32) (perTriangleAttribs : Nat → Dword) :
    ∃ request data, pins.request floatBytes clientToken fragments perTriangleAttribs =
        .ok (request, data) ∧
      RequestAgrees alu fs request data fun u =>
        FragmentInputsPlaced fs floatBytes fragments perTriangleAttribs u ∧
          UniformsPlaced alu fs fragments.length pins.inpUniformsData u := by
  have hheader : fs.header.programType = .fragmentShader :=
    Option.some.inj (hfs.programType.symm.trans hfsType)
  obtain ⟨request, hrequest, hfits, hthreads⟩ := pins.request_fits hvs hfs hvsType hfsType hmatch
    hpins floatBytes clientToken hpos hle perTriangleAttribs
  have hpairs := length_pairs (fun fragment => floatBytes fragment.x)
    (fun fragment => floatBytes fragment.y) fragments
  have hforwarded : ((fragments.flatMap fun fragment => [floatBytes fragment.x,
      floatBytes fragment.y]) ++ uniformValues fs.uniforms.sizes pins.inpUniformsData ++
        (List.range (verticesInPrimitive * (fs.streamInputs.map Prod.snd).sum)).map
          perTriangleAttribs).length = calculateShaderInputsCount request := by
    rw [hfits.calculateShaderInputsCount hfs, if_pos hheader, hthreads, List.length_append,
      List.length_append, hpairs, List.length_map, List.length_range, uniformValues_length]
  refine ⟨request, _, hrequest, hfits.validated hfs, hforwarded, ?_, ?_,
    fun u hu => hfits.sent hfs hu⟩
  · intro u hu
    rw [hforwarded]
    exact hfits.received hfs hu
  · intro u hu stream hcarries
    have hu0 : (u.clearRegisters alu).Runs fs := hu
    have hdwords : (u.clearRegisters alu).threadDwords = 2 := by
      rw [hu0.threadDwords hfs, if_pos hheader]
    obtain ⟨u', hinit, hu', hgpr, huniforms⟩ :=
      @ShaderUnit.Runs.initialized alu fs _ hu0 hfs fragments.length stream
    rw [hthreads]
    refine ⟨u', hinit, fragmentInputsPlaced hu0 hfs hheader floatBytes hcarries ?_ hgpr, ?_⟩
    · rw [uniformValues_length, hu0.uniformsDwords hfs]
    · refine uniformsPlaced hfs hu' hcarries fun k => ?_
      rw [huniforms, hdwords, hpairs]

/-- **Both requests agree**, for shaders that the assembler accepts and whose interfaces
    match, and for every batch of fragments. -/
theorem requests_agree {vsProgram fsProgram : Program} {vs fs : PicoGpuBinary}
    (hvs : vsProgram.parse .new = .ok vs) (hfs : fsProgram.parse .new = .ok fs)
    (hvsType : vs.programType = some .vertexShader)
    (hfsType : fs.programType = some .fragmentShader) (hmatch : vs.outputs.sizes = fs.inputs.sizes)
    {vsPins : VertexShaderPins} (hvsPins : vsPins.SetFor vs)
    {fsPins : FragmentShaderPins} (hfsPins : fsPins.SetFor vs fs) (alu : Alu Dword)
    (floatBytes : BitVec 16 → Dword) (clientToken : BitVec 16) :
    (∀ received, ∃ request data, vsPins.request clientToken received = .ok (request, data) ∧
      RequestAgrees alu vs request data fun u => VertexInputsPlaced vs received u ∧
        UniformsPlaced alu vs verticesInPrimitive vsPins.inpUniformsData u) ∧
    ∀ fragments : List UnshadedFragment, fragments ≠ [] → fragments.length ≤ 32 →
      ∀ perTriangleAttribs, ∃ request data,
        fsPins.request floatBytes clientToken fragments perTriangleAttribs = .ok (request, data) ∧
          RequestAgrees alu fs request data fun u =>
            FragmentInputsPlaced fs floatBytes fragments perTriangleAttribs u ∧
              UniformsPlaced alu fs fragments.length fsPins.inpUniformsData u := by
  obtain ⟨_, hvsParsed⟩ := Program.parse_parsed hvs
  obtain ⟨_, hfsParsed⟩ := Program.parse_parsed hfs
  refine ⟨fun received => ?_, fun fragments hpos hle perTriangleAttribs => ?_⟩
  · exact vsPins.request_agrees hvsParsed.accepted hvsType hvsPins alu clientToken received
  · exact fsPins.request_agrees hvsParsed.accepted hfsParsed.accepted hvsType hfsType hmatch
      hfsPins alu floatBytes clientToken hpos hle perTriangleAttribs

theorem trap_ne : [SourceInstruction.trap] ≠ [] := List.cons_ne_nil _ _

/-- A fragment shader that goes with the vertex shader of one instruction. -/
def oneFragmentInstruction : Program where
  directives := [.fragmentShader, .input 0 (.four .swizzleX .swizzleY .swizzleZ .swizzleW),
    .output 1 (.four .swizzleX .swizzleY .swizzleZ .swizzleW)]
  instructions := [.trap]
  directives_ne := List.cons_ne_nil _ _
  instructions_ne := trap_ne

def parsedFragment : PicoGpuBinary := (oneFragmentInstruction.parse .new).toOption.getD .new

/-- The pins for the two shaders: one input of four components, and nothing else. -/
def oneInputPins : VertexShaderPins where
  inpShaderAddress := 0
  inpCustomInputComponents := ⟨1, 3, 3, 3⟩
  inpCustomOutputComponents := ⟨0, 3, 3, 3⟩
  inpUniforms := ⟨0, 3, 3, 3⟩
  inpUniformsData := fun _ _ => 0

def oneFragmentPins : FragmentShaderPins where
  inpShaderAddress := 0
  inpCustomInputComponents := ⟨0, 3, 3, 3⟩
  inpUniforms := ⟨0, 3, 3, 3⟩
  inpUniformsData := fun _ _ => 0

theorem oneInputPins_setFor : oneInputPins.SetFor (parsedBinary .trap) := ⟨rfl, rfl, rfl⟩

theorem oneFragmentPins_setFor :
    oneFragmentPins.SetFor (parsedBinary .trap) parsedFragment := ⟨rfl, rfl⟩

theorem requests_agree_one_input :
    ∃ request data, oneFragmentPins.request (BitVec.setWidth 32) 0 [⟨1, 2⟩] (fun _ => 7) =
        .ok (request, data) ∧
      RequestAgrees integerAlu parsedFragment request data fun u =>
        FragmentInputsPlaced parsedFragment (BitVec.setWidth 32) [⟨1, 2⟩] (fun _ => 7) u ∧
          UniformsPlaced integerAlu parsedFragment 1 oneFragmentPins.inpUniformsData u :=
  (@requests_agree (oneInstruction .trap) oneFragmentInstruction (parsedBinary .trap)
    parsedFragment rfl rfl rfl rfl (by decide) oneInputPins oneInputPins_setFor oneFragmentPins
    oneFragmentPins_setFor integerAlu (BitVec.setWidth 32) 0).2 [⟨1, 2⟩] (List.cons_ne_nil _ _)
    (by decide) fun _ => 7

end PicoGpu
