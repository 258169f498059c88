import PicoGpu.StagingBuffers
import PicoGpu.Memory

/- The vertices of a draw on their way to the vertex shader. The primitive assembler reads
   them from memory a triangle at a time and sends each triangle through nine ports; the
   vertex shader block makes a request of it, and a unit takes the request apart into
   the registers of three lanes. At the end lane `i` holds the components of vertex `i`
   of the triangle, from the place in the vertex buffer that belongs to it. -/
namespace PicoGpu

/-- `Gpu::memorySize`, in dwords. -/
def memorySize : Nat := 21000

/-! ## The blocks -/

/-- The inputs of the block `PrimitiveAssembler`. -/
structure PrimitiveAssemblerPins where
  inpVerticesAddress : MemoryAddressType
  inpVerticesCount : BitVec 8
  inpCustomInputComponents : CustomShaderComponents

/-- The memory answers with the dword at the address. -/
def fetchComponentFromMemory (rawMemory : Fin memorySize → MemoryDataType)
    (address : MemoryAddressType) : MemoryDataType :=
  load rawMemory (addressIndex address)

/-- The triangles that `PrimitiveAssembler::assemble` sends; `memoryAt` is what the memory
    holds when it serves a read, which other blocks may change between two reads. -/
def PrimitiveAssemblerPins.assemble (pins : PrimitiveAssemblerPins)
    (memoryAt : Nat → Fin memorySize → MemoryDataType) : Except FatalError (List (List Dword)) := do
  let vertexBufferAddress := pins.inpVerticesAddress
  let primitiveCount := pins.inpVerticesCount.toNat / verticesInPrimitive
  let componentsToTransfer :=
    verticesInPrimitive * (← pins.inpCustomInputComponents.getTotalCustomComponents)
  return (List.range primitiveCount).map fun triangleIndex =>
    let triangleAddress :=
      vertexBufferAddress + BitVec.ofNat 32 (triangleIndex * componentsToTransfer * 4)
    (List.range componentsToTransfer).map fun componentIndex =>
      fetchComponentFromMemory (memoryAt (triangleIndex * componentsToTransfer + componentIndex))
        (triangleAddress + BitVec.ofNat 32 (componentIndex * 4))

/-- An array that went through parallel ports. -/
def throughPorts (ports : Nat) (dataToSend : List Dword) : List Dword :=
  (transferIndices ports dataToSend.length).map (dataToSend.getD · 0)

/-- The requests of the loop in `VertexShader::main` for one triangle after the other. -/
def VertexShaderPins.requests (pins : VertexShaderPins) : BitVec 16 → List (List Dword) →
    Except FatalError (List (ShaderFrontendRequest × List Dword))
  | _, [] => .ok []
  | clientToken, triangle :: triangles => do
    let request ← pins.request clientToken fun k => (throughPorts 9 triangle).getD k 0
    return request :: (← pins.requests (clientToken + 1) triangles)

theorem throughPorts_eq {ports : Nat} (hports : 0 < ports) (dataToSend : List Dword) :
    throughPorts ports dataToSend = dataToSend := by
  rw [throughPorts, transferIndices_eq hports]
  apply List.ext_getElem
  · rw [List.length_map, List.length_range]
  · intro k hk hk'
    rw [List.getElem_map, List.getElem_range, List.getD_eq_getElem _ _ hk']

/-! ## Addresses -/

/-- Dword `m` of a buffer that lies in the memory. -/
theorem addressIndex_add {base : MemoryAddressType} (haligned : base.toNat % 4 = 0) {m : Nat}
    (hm : base.toNat / 4 + m < memorySize) :
    addressIndex (base + BitVec.ofNat 32 (m * 4)) = base.toNat / 4 + m := by
  rw [memorySize] at hm
  have hsum : (base + BitVec.ofNat 32 (m * 4)).toNat = base.toNat + m * 4 := by
    rw [BitVec.toNat_add, BitVec.toNat_ofNat, Nat.mod_eq_of_lt (by omega : m * 4 < 2 ^ 32),
      Nat.mod_eq_of_lt (by omega)]
  have hmsb : (base + BitVec.ofNat 32 (m * 4)).msb = false := by
    rw [BitVec.msb_eq_decide, hsum]
    exact decide_eq_false (by omega)
  rw [addressIndex, BitVec.signExtend_eq_setWidth_of_msb_false hmsb, BitVec.toNat_setWidth, hsum,
    Nat.mod_eq_of_lt (by omega)]
  omega

theorem ofNat_add_four (a b : Nat) (base : MemoryAddressType) :
    base + BitVec.ofNat 32 (a * 4) + BitVec.ofNat 32 (b * 4) =
      base + BitVec.ofNat 32 ((a + b) * 4) := by
  rw [BitVec.add_assoc, ← BitVec.ofNat_add, ← Nat.add_mul]

/-! ## Triangles -/

/-- The vertex buffer as `contents`, whenever it is read. -/
def HoldsVertices (memoryAt : Nat → Fin memorySize → MemoryDataType)
    (contents : Nat → MemoryDataType) (base count : Nat) : Prop :=
  ∀ clock, ∀ m < count, load (memoryAt clock) (base + m) = contents (base + m)

/-- The dwords of triangle `t`, which start behind those of the triangles before it. -/
def triangleDwords (contents : Nat → MemoryDataType) (base components t : Nat) : List Dword :=
  (List.range (verticesInPrimitive * components)).map fun c =>
    contents (base + (t * (verticesInPrimitive * components) + c))

theorem assemble_eq {pins : PrimitiveAssemblerPins}
    {memoryAt : Nat → Fin memorySize → MemoryDataType} {contents : Nat → MemoryDataType}
    (haligned : pins.inpVerticesAddress.toNat % 4 = 0)
    (hinside : pins.inpVerticesAddress.toNat / 4 +
      pins.inpVerticesCount.toNat * pins.inpCustomInputComponents.sizes.sum ≤ memorySize)
    (hholds : HoldsVertices memoryAt contents (pins.inpVerticesAddress.toNat / 4)
      (pins.inpVerticesCount.toNat * pins.inpCustomInputComponents.sizes.sum)) :
    pins.assemble memoryAt =
      .ok ((List.range (pins.inpVerticesCount.toNat / verticesInPrimitive)).map
        (triangleDwords contents (pins.inpVerticesAddress.toNat / 4)
          pins.inpCustomInputComponents.sizes.sum)) := by
  unfold PrimitiveAssemblerPins.assemble
  rw [CustomShaderComponents.getTotalCustomComponents_eq]
  show Except.ok _ = Except.ok _
  congr 1
  apply List.map_congr_left
  intro t ht
  apply List.map_congr_left
  intro c hc
  rw [List.mem_range] at ht hc
  have hbuffer : t * (verticesInPrimitive * pins.inpCustomInputComponents.sizes.sum) + c <
      pins.inpVerticesCount.toNat * pins.inpCustomInputComponents.sizes.sum := by
    have hvertices : (t + 1) * verticesInPrimitive ≤ pins.inpVerticesCount.toNat :=
      (Nat.le_div_iff_mul_le (by decide)).mp ht
    have hscaled := Nat.mul_le_mul_right pins.inpCustomInputComponents.sizes.sum hvertices
    rw [Nat.mul_assoc, Nat.succ_mul] at hscaled
    omega
  rw [ofNat_add_four, fetchComponentFromMemory, addressIndex_add haligned (by omega)]
  exact hholds _ _ hbuffer

theorem VertexShaderPins.request_clientToken {pins : VertexShaderPins} {clientToken : BitVec 16}
    {received : Nat → Dword} {request : ShaderFrontendRequest} {data : List Dword}
    (h : pins.request clientToken received = .ok (request, data)) :
    request.clientToken = clientToken + 1 := by
  unfold VertexShaderPins.request at h
  rw [totalInputComponents_eq, ok_bind, writeUniforms_eq] at h
  cases h
  rfl

/-- Each triangle is requested once, in its turn. -/
theorem requests_ok (pins : VertexShaderPins) (clientToken : BitVec 16)
    (triangles : List (List Dword)) :
    ∃ requests, pins.requests clientToken triangles = .ok requests ∧
      requests.length = triangles.length ∧
      ∀ t, ∀ ht : t < requests.length,
        pins.request (clientToken + BitVec.ofNat 16 t) (fun k => (triangles.getD t []).getD k 0) =
          .ok requests[t] := by
  induction triangles generalizing clientToken with
  | nil => exact ⟨[], rfl, rfl, fun t ht => nomatch ht⟩
  | cons triangle triangles ih =>
    obtain ⟨request, hrequest⟩ := pins.request_ok clientToken fun k => triangle.getD k 0
    obtain ⟨requests, hrequests, hlength, hrest⟩ := ih (clientToken + 1)
    refine ⟨request :: requests, ?_, congrArg (· + 1) hlength, ?_⟩
    · rw [VertexShaderPins.requests, throughPorts_eq (by decide), hrequest, ok_bind, hrequests]
      rfl
    · intro t ht
      cases t with
      | zero =>
        rw [show BitVec.ofNat 16 0 = 0#16 from rfl, BitVec.add_zero]
        exact hrequest
      | succ t =>
        have htoken : clientToken + BitVec.ofNat 16 (t + 1) =
            clientToken + 1 + BitVec.ofNat 16 t := by
          rw [Nat.add_comm, BitVec.ofNat_add, ← BitVec.add_assoc]
          rfl
        rw [htoken]
        exact hrest t (Nat.lt_of_succ_lt_succ ht)

/-! ## Vertices in lanes -/

/-- Lane `i` has component `k` of input `j` of vertex `i` of the triangle. -/
def VerticesPlaced (vs : PicoGpuBinary) (contents : Nat → MemoryDataType) (base triangleIndex : Nat)
    (u : ShaderUnit Dword) : Prop :=
  ∀ i < verticesInPrimitive, ∀ j, ∀ hj : j < vs.inputs.registers.length,
    ∀ k : Fin 4, k.val < vs.inputs.registers[j].2 →
      (u.gpr i vs.inputs.registers[j].1).get k =
        contents (base + (verticesInPrimitive * triangleIndex + i) * vs.inputs.sizes.sum +
          offsetOf vs.inputs.registers j + k)

theorem verticesPlaced {vs : PicoGpuBinary} {contents : Nat → MemoryDataType}
    {base triangleIndex : Nat} {u : ShaderUnit Dword}
    (h : VertexInputsPlaced vs
      (fun k => (triangleDwords contents base vs.inputs.sizes.sum triangleIndex).getD k 0) u) :
    VerticesPlaced vs contents base triangleIndex u := by
  intro i hi j hj k hk
  have hoffset : offsetOf vs.inputs.registers j + vs.inputs.registers[j].2 ≤ vs.inputs.sizes.sum :=
    offsetOf_add_le hj
  have hlanes : (i + 1) * vs.inputs.sizes.sum ≤ verticesInPrimitive * vs.inputs.sizes.sum :=
    Nat.mul_le_mul_right _ hi
  rw [Nat.succ_mul] at hlanes
  rw [h i hi j hj k hk]
  dsimp only
  rw [triangleDwords, getD_map_range _ (by omega)]
  congr 1
  rw [Nat.add_mul, Nat.mul_assoc, Nat.mul_left_comm]
  omega

theorem RequestAgrees.mono {alu : Alu Dword} {b : PicoGpuBinary} {request : ShaderFrontendRequest}
    {data : List Dword} {placed placed' : ShaderUnit Dword → Prop}
    (h : RequestAgrees alu b request data placed) (himp : ∀ u, placed u → placed' u) :
    RequestAgrees alu b request data placed' := by
  refine { h with started := fun u hu stream hcarries => ?_ }
  obtain ⟨u', hinit, hplaced⟩ := h.started u hu stream hcarries
  exact ⟨u', hinit, himp u' hplaced⟩

/-- **The vertices of a draw reach the lanes of their triangles.** The triangles are
    requested in order, each once, and every request agrees with the vertex shader. -/
theorem vertices_fetched {p : Program} {vs : PicoGpuBinary} (hvs : p.parse .new = .ok vs)
    (htype : vs.programType = some .vertexShader)
    {vsPins : VertexShaderPins} (hvsPins : vsPins.SetFor vs)
    {paPins : PrimitiveAssemblerPins}
    (hpaPins : vs.getVsCustomInputComponents = .ok paPins.inpCustomInputComponents)
    (haligned : paPins.inpVerticesAddress.toNat % 4 = 0)
    (hinside : paPins.inpVerticesAddress.toNat / 4 +
      paPins.inpVerticesCount.toNat * vs.inputs.sizes.sum ≤ memorySize)
    {memoryAt : Nat → Fin memorySize → MemoryDataType} {contents : Nat → MemoryDataType}
    (hholds : HoldsVertices memoryAt contents (paPins.inpVerticesAddress.toNat / 4)
      (paPins.inpVerticesCount.toNat * vs.inputs.sizes.sum))
    (alu : Alu Dword) (clientToken : BitVec 16) :
    ∃ triangles requests, paPins.assemble memoryAt = .ok triangles ∧
      vsPins.requests clientToken triangles = .ok requests ∧
      requests.length = paPins.inpVerticesCount.toNat / verticesInPrimitive ∧
      ∀ t, ∀ ht : t < requests.length,
        requests[t].1.clientToken = clientToken + BitVec.ofNat 16 (t + 1) ∧
        RequestAgrees alu vs requests[t].1 requests[t].2
          (VerticesPlaced vs contents (paPins.inpVerticesAddress.toNat / 4) t) := by
  obtain ⟨_, hparsed⟩ := Program.parse_parsed hvs
  have hb := hparsed.accepted
  obtain ⟨-, -, -, -, hsizes⟩ := hb.getVsCustomInputComponents hpaPins
  rw [← hsizes] at hinside hholds
  have htriangles := assemble_eq haligned hinside hholds
  rw [hsizes] at htriangles
  obtain ⟨requests, hrequests, hlength, hrequest⟩ := requests_ok vsPins clientToken
    ((List.range (paPins.inpVerticesCount.toNat / verticesInPrimitive)).map
      (triangleDwords contents (paPins.inpVerticesAddress.toNat / 4) vs.inputs.sizes.sum))
  rw [List.length_map, List.length_range] at hlength
  refine ⟨_, requests, htriangles, hrequests, hlength, fun t ht => ?_⟩
  -- request `t` is built from triangle `t`, with the token of its turn
  have hreq := hrequest t ht
  rw [List.getD_eq_getElem _ _ (by rwa [List.length_map, List.length_range, ← hlength]),
    List.getElem_map, List.getElem_range] at hreq
  obtain ⟨request, data, hrequestEq, hagrees⟩ := vsPins.request_agrees hb htype hvsPins alu
    (clientToken + BitVec.ofNat 16 t) fun k => (triangleDwords contents
      (paPins.inpVerticesAddress.toNat / 4) vs.inputs.sizes.sum t).getD k 0
  rw [hreq] at hrequestEq
  rw [Except.ok.inj hrequestEq]
  refine ⟨?_, hagrees.mono fun u hu => verticesPlaced hu.1⟩
  have htoken := VertexShaderPins.request_clientToken (hreq.trans hrequestEq)
  rw [htoken, BitVec.add_assoc, BitVec.ofNat_add]
  rfl

/-- A triangle at address 0 of a memory that holds the numbers of its dwords. -/
def oneTriangle : PrimitiveAssemblerPins where
  inpVerticesAddress := 0
  inpVerticesCount := 3
  inpCustomInputComponents := ⟨1, 3, 3, 3⟩

def numberedMemory : Nat → Fin memorySize → MemoryDataType := fun _ i => BitVec.ofNat 32 i.val

theorem numberedMemory_holds : HoldsVertices numberedMemory (BitVec.ofNat 32) 0 12 := by
  intro clock m hm
  have hinside : 0 + m < memorySize := by
    rw [memorySize]
    omega
  rw [load, dif_pos hinside]
  rfl

theorem vertices_fetched_one_triangle :
    ∃ triangles requests, oneTriangle.assemble numberedMemory = .ok triangles ∧
      oneInputPins.requests 0 triangles = .ok requests ∧ requests.length = 1 ∧
      ∀ t, ∀ ht : t < requests.length,
        requests[t].1.clientToken = 0 + BitVec.ofNat 16 (t + 1) ∧
        RequestAgrees integerAlu (parsedBinary .trap) requests[t].1 requests[t].2
          (VerticesPlaced (parsedBinary .trap) (BitVec.ofNat 32) 0 t) :=
  @vertices_fetched (oneInstruction .trap) (parsedBinary .trap) rfl rfl oneInputPins
    oneInputPins_setFor oneTriangle rfl rfl (by decide) numberedMemory (BitVec.ofNat 32)
    numberedMemory_holds integerAlu 0

end PicoGpu
