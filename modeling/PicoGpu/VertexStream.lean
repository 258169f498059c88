import PicoGpu.HandshakeLink
import PicoGpu.RequestAgreement
import PicoGpu.VertexShader

/- The block `VertexShader` as a process with four links: it takes a triangle, asks for its
   vertices, is answered, and gives the answer on. `VertexShader.Step` says what a clock can
   do; what the block does with each link and what it holds follow from it. -/
namespace PicoGpu

namespace VertexShaderPins
variable (pins : VertexShaderPins)

/-- The dwords that are received for a triangle. -/
def triangleSize : Nat := verticesInPrimitive * pins.inpCustomInputComponents.sizes.sum

/-- The dwords of three vertices. -/
def verticesSize : Nat := verticesInPrimitive * (4 + pins.inpCustomOutputComponents.sizes.sum)

theorem verticesSize_pos : 0 < pins.verticesSize := by
  unfold verticesSize
  exact Nat.mul_pos (by decide) (by omega)

theorem totalInputComponents_ok : pins.totalInputComponents = .ok pins.triangleSize :=
  pins.totalInputComponents_eq

theorem dwordsToReceive_ok :
    pins.dwordsToReceive = .ok (responseHeaderDwords + pins.verticesSize) := by
  unfold dwordsToReceive
  rw [CustomShaderComponents.getTotalCustomComponents_eq]
  show Except.ok _ = _
  rw [verticesSize, Nat.mul_comm verticesInPrimitive]
  rfl

/-- The request for a triangle. -/
def requestDwords (clientToken : BitVec 16) (triangle : List Dword) : List Dword :=
  match pins.request clientToken fun i => triangle.getD i 0 with
  | .ok (header, data) => header.raw ++ data
  | .error _ => []

/-- The vertices in a response. -/
def verticesIn (response : List Dword) : List Dword :=
  (List.range pins.verticesSize).map fun i => response.getD (responseHeaderDwords + i) 0

end VertexShaderPins

namespace VertexShader
variable {pins : VertexShaderPins} {inputs : VertexShaderInputs} {v v' : VertexShader}

/-! ## The calls on the links -/

def triangleCall (v : VertexShader) : Option (ReceiveCall Dword) :=
  match v.pc with
  | .receiving _ call => some call
  | _ => none

def requestCall (v : VertexShader) : Option (List Dword × SendCall) :=
  match v.pc with
  | .sendingRequest request call => some (request, call)
  | _ => none

def responseCall (v : VertexShader) : Option (ReceiveCall Dword) :=
  match v.pc with
  | .receivingResponse _ call => some call
  | _ => none

def verticesCall (v : VertexShader) : Option (List Dword × SendCall) :=
  match v.pc with
  | .sendingVertices vertexData call => some (vertexData, call)
  | _ => none

/-- The triangle that is taken at a clock. -/
def takes (inputs : VertexShaderInputs) (v : VertexShader) : List (List Dword) :=
  match v.pc with
  | .receiving totalInputComponents call =>
    (call.resume (triangleArgs totalInputComponents) inputs.inpSending inputs.inpData
      v.previousBlock).1.data
  | _ => []

/-- The response that comes at a clock. -/
def answers (inputs : VertexShaderInputs) (v : VertexShader) : List (List Dword) :=
  match v.pc with
  | .receivingResponse dwordsToReceive call =>
    (call.resume (responseArgs dwordsToReceive) inputs.responseSending inputs.responseData
      v.response).1.data
  | _ => []

/-! ## What a clock can do -/

/-- The calls are made with the lengths of the pins. -/
def Expects (pins : VertexShaderPins) (v : VertexShader) : Prop :=
  match v.pc with
  | .receiving totalInputComponents _ =>
    totalInputComponents = pins.triangleSize ∧ 0 < pins.triangleSize
  | .receivingResponse dwordsToReceive _ =>
    dwordsToReceive = responseHeaderDwords + pins.verticesSize
  | _ => True

/-- The dwords of `response` behind its header, when `received` has come. -/
def verticesOf (pins : VertexShaderPins) (received : List Dword) (v : VertexShader) : List Dword :=
  (List.range (responseHeaderDwords + pins.verticesSize)).map fun i =>
    if responseHeaderDwords + i < responseHeaderDwords + pins.verticesSize then
      received.getD (responseHeaderDwords + i) 0
    else v.responseData (responseHeaderDwords + i)

/-- The clocks of a block that does not abort. -/
inductive Step (pins : VertexShaderPins) (inputs : VertexShaderInputs) (v v' : VertexShader) : Prop
  | listens (hpc : v.pc = .start) (call : ReceiveCall Dword) (ports : ReceivePorts)
      (hcall : receiveArrayImpl (triangleArgs pins.triangleSize) v.previousBlock = .ok (call, ports))
      (hv : v' = { v with pc := .receiving pins.triangleSize call, previousBlock := ports })
  | waits (call call' : ReceiveCall Dword) (ports : ReceivePorts)
      (hpc : v.pc = .receiving pins.triangleSize call)
      (hcall : call.resume (triangleArgs pins.triangleSize) inputs.inpSending inputs.inpData
        v.previousBlock = (.suspended call', ports))
      (hv : v' = { v with pc := .receiving pins.triangleSize call', previousBlock := ports })
  | requests (call : ReceiveCall Dword) (success : Bool) (received : List Dword)
      (ports : ReceivePorts) (header : ShaderFrontendRequest) (data : List Dword)
      (call' : SendCall) (ports' : SendPorts Dword) (hpc : v.pc = .receiving pins.triangleSize call)
      (hcall : call.resume (triangleArgs pins.triangleSize) inputs.inpSending inputs.inpData
        v.previousBlock = (.returned success received, ports))
      (hrequest : pins.request v.clientToken (fun i => received.getD i 0) = .ok (header, data))
      (hsend : sendArrayImpl (handshakeSendArgs 1 (header.raw ++ data)) v.request =
        .ok (call', ports'))
      (hv : v' = { v with
        pc := .sendingRequest (header.raw ++ data) call'
        previousBlock := ports
        request := ports'
        clientToken := header.clientToken })
  | sendsRequest (request : List Dword) (call call' : SendCall) (ports : SendPorts Dword)
      (hpc : v.pc = .sendingRequest request call)
      (hcall : call.resume (handshakeSendArgs 1 request) inputs.requestReceiving v.request =
        (some call', ports))
      (hv : v' = { v with pc := .sendingRequest request call', request := ports })
  | asked (request : List Dword) (call : SendCall) (ports : SendPorts Dword)
      (call' : ReceiveCall Dword) (ports' : ReceivePorts) (hpc : v.pc = .sendingRequest request call)
      (hcall : call.resume (handshakeSendArgs 1 request) inputs.requestReceiving v.request =
        (none, ports))
      (hreceive : receiveArrayImpl (responseArgs (responseHeaderDwords + pins.verticesSize))
        v.response = .ok (call', ports'))
      (hv : v' = { v with
        pc := .receivingResponse (responseHeaderDwords + pins.verticesSize) call'
        request := ports
        response := ports' })
  | awaitsResponse (call call' : ReceiveCall Dword) (ports : ReceivePorts)
      (hpc : v.pc = .receivingResponse (responseHeaderDwords + pins.verticesSize) call)
      (hcall : call.resume (responseArgs (responseHeaderDwords + pins.verticesSize))
        inputs.responseSending inputs.responseData v.response = (.suspended call', ports))
      (hv : v' = { v with
        pc := .receivingResponse (responseHeaderDwords + pins.verticesSize) call'
        response := ports })
  | answered (call : ReceiveCall Dword) (success : Bool) (received : List Dword)
      (ports : ReceivePorts) (call' : SendCall) (ports' : SendPorts Dword)
      (hpc : v.pc = .receivingResponse (responseHeaderDwords + pins.verticesSize) call)
      (hcall : call.resume (responseArgs (responseHeaderDwords + pins.verticesSize))
        inputs.responseSending inputs.responseData v.response = (.returned success received, ports))
      (hsend : sendArrayImpl (handshakeSendArgs 12 (v.verticesOf pins received)) v.nextBlock =
        .ok (call', ports'))
      (hv : v' = { v with
        pc := .sendingVertices (v.verticesOf pins received) call'
        response := ports
        nextBlock := ports'
        responseData := fun i =>
          if i < responseHeaderDwords + pins.verticesSize then received.getD i 0
          else v.responseData i })
  | sendsVertices (vertexData : List Dword) (call call' : SendCall) (ports : SendPorts Dword)
      (hpc : v.pc = .sendingVertices vertexData call)
      (hcall : call.resume (handshakeSendArgs 12 vertexData) inputs.nextBlockReceiving v.nextBlock =
        (some call', ports))
      (hv : v' = { v with pc := .sendingVertices vertexData call', nextBlock := ports })
  | given (vertexData : List Dword) (call : SendCall) (ports : SendPorts Dword)
      (hpc : v.pc = .sendingVertices vertexData call)
      (hcall : call.resume (handshakeSendArgs 12 vertexData) inputs.nextBlockReceiving v.nextBlock =
        (none, ports))
      (hv : v' = { v with pc := .start, nextBlock := ports })

theorem step_cases (h : v.Expects pins) (hrunning : ¬ (v.step pins inputs).Aborted) :
    Step pins inputs v (v.step pins inputs) := by
  obtain ⟨pc, previousBlock, request, response, nextBlock, clientToken, responseData⟩ := v
  cases pc with
  | start =>
    unfold step receiveTriangle at hrunning ⊢
    dsimp only at hrunning ⊢
    rw [pins.totalInputComponents_ok] at hrunning ⊢
    dsimp only at hrunning ⊢
    split
    · next call ports hcall => exact .listens rfl call ports hcall rfl
    · next e hcall =>
      rw [hcall] at hrunning
      exact absurd ⟨e, rfl⟩ hrunning
  | receiving totalInputComponents call =>
    obtain ⟨rfl, -⟩ := h
    unfold step at hrunning ⊢
    dsimp only at hrunning ⊢
    split
    · next call' ports hcall => exact .waits call call' ports rfl hcall rfl
    · next success received ports hcall =>
      rw [hcall] at hrunning
      dsimp only at hrunning
      unfold sendRequest at hrunning ⊢
      dsimp only at hrunning ⊢
      split
      · next e hrequest =>
        rw [hrequest] at hrunning
        exact absurd ⟨e, rfl⟩ hrunning
      · next header data hrequest =>
        rw [hrequest] at hrunning
        dsimp only at hrunning
        split
        · next call' ports' hsend =>
          exact .requests call success received ports header data call' ports' rfl hcall hrequest
            hsend rfl
        · next e hsend =>
          rw [hsend] at hrunning
          exact absurd ⟨e, rfl⟩ hrunning
  | sendingRequest array call =>
    unfold step at hrunning ⊢
    dsimp only at hrunning ⊢
    split
    · next call' ports hcall => exact .sendsRequest array call call' ports rfl hcall rfl
    · next ports hcall =>
      rw [hcall] at hrunning
      dsimp only at hrunning
      unfold receiveResponse at hrunning ⊢
      rw [pins.dwordsToReceive_ok] at hrunning ⊢
      dsimp only at hrunning ⊢
      split
      · next call' ports' hreceive =>
        exact .asked array call ports call' ports' rfl hcall hreceive rfl
      · next e hreceive =>
        rw [hreceive] at hrunning
        exact absurd ⟨e, rfl⟩ hrunning
  | receivingResponse dwordsToReceive call =>
    obtain rfl : dwordsToReceive = responseHeaderDwords + pins.verticesSize := h
    unfold step at hrunning ⊢
    dsimp only at hrunning ⊢
    split
    · next call' ports hcall => exact .awaitsResponse call call' ports rfl hcall rfl
    · next success received ports hcall =>
      rw [hcall] at hrunning
      dsimp only at hrunning
      unfold sendVertices at hrunning ⊢
      dsimp only at hrunning ⊢
      split
      · next call' ports' hsend =>
        exact .answered call success received ports call' ports' rfl hcall hsend rfl
      · next e hsend =>
        rw [hsend] at hrunning
        exact absurd ⟨e, rfl⟩ hrunning
  | sendingVertices vertexData call =>
    unfold step
    dsimp only
    split
    · next call' ports hcall => exact .sendsVertices vertexData call call' ports rfl hcall rfl
    · next ports hcall => exact .given vertexData call ports rfl hcall rfl
  | aborted e => exact absurd ⟨e, rfl⟩ hrunning

/-- The block is between a triangle and its response. -/
def asking (v : VertexShader) : Nat :=
  match v.pc with
  | .sendingRequest _ _ | .receivingResponse _ _ => 1
  | _ => 0

/-- What a clock does to the four links. -/
structure Links (pins : VertexShaderPins) (inputs : VertexShaderInputs) (v v' : VertexShader) :
    Prop where
  triangle : Receives (handshakeReceiveArgs 9 pins.triangleSize true) inputs.inpSending
    inputs.inpData v.triangleCall v.previousBlock v'.triangleCall v'.previousBlock (v.takes inputs)
  request : Sends 1 inputs.requestReceiving v.requestCall v.request v'.requestCall v'.request
    (begun v.requestCall v'.requestCall)
  response : Receives (handshakeReceiveArgs 1 (responseHeaderDwords + pins.verticesSize) false)
    inputs.responseSending inputs.responseData v.responseCall v.response v'.responseCall
    v'.response (v.answers inputs)
  vertices : Sends 12 inputs.nextBlockReceiving v.verticesCall v.nextBlock v'.verticesCall
    v'.nextBlock (begun v.verticesCall v'.verticesCall)

/-- What the block makes of what it takes: each triangle is asked for at once, and each response
    is given on at once. -/
structure Passes (pins : VertexShaderPins) (inputs : VertexShaderInputs) (v v' : VertexShader) :
    Prop where
  requests : begun v.requestCall v'.requestCall =
    (v.takes inputs).map (pins.requestDwords v.clientToken)
  clientToken : v'.clientToken = v.clientToken + BitVec.ofNat 16 (v.takes inputs).length
  vertices : (begun v.verticesCall v'.verticesCall).map (List.take pins.verticesSize) =
    (v.answers inputs).map pins.verticesIn
  asking : v.asking + (v.takes inputs).length = v'.asking + (v.answers inputs).length

theorem Step.expects (h : Step pins inputs v v') (hexpects : v.Expects pins) :
    v'.Expects pins := by
  cases h with
  | listens _ _ _ hcall hv =>
    subst hv
    unfold receiveArrayImpl at hcall
    split at hcall
    · cases hcall
    · next hne => exact ⟨rfl, Nat.pos_of_ne_zero hne⟩
  | waits _ _ _ hpc _ hv =>
    subst hv
    unfold Expects at hexpects
    rw [hpc] at hexpects
    exact hexpects
  | requests _ _ _ _ _ _ _ _ _ _ _ _ hv => subst hv; trivial
  | sendsRequest _ _ _ _ _ _ hv => subst hv; trivial
  | asked _ _ _ _ _ _ _ _ hv => subst hv; rfl
  | awaitsResponse _ _ _ _ _ hv => subst hv; rfl
  | answered _ _ _ _ _ _ _ _ _ hv => subst hv; trivial
  | sendsVertices _ _ _ _ _ _ hv => subst hv; trivial
  | given _ _ _ _ _ hv => subst hv; trivial

theorem takes_of {totalInputComponents : Nat} {call : ReceiveCall Dword}
    {outcome : ReceiveOutcome Dword} {ports : ReceivePorts}
    (hpc : v.pc = .receiving totalInputComponents call)
    (hcall : call.resume (triangleArgs totalInputComponents) inputs.inpSending inputs.inpData
      v.previousBlock = (outcome, ports)) : v.takes inputs = outcome.data := by
  unfold takes
  rw [hpc]
  dsimp only
  rw [hcall]

theorem answers_of {dwordsToReceive : Nat} {call : ReceiveCall Dword}
    {outcome : ReceiveOutcome Dword} {ports : ReceivePorts}
    (hpc : v.pc = .receivingResponse dwordsToReceive call)
    (hcall : call.resume (responseArgs dwordsToReceive) inputs.responseSending inputs.responseData
      v.response = (outcome, ports)) : v.answers inputs = outcome.data := by
  unfold answers
  rw [hpc]
  dsimp only
  rw [hcall]

theorem Step.links (h : Step pins inputs v v') : Links pins inputs v v' := by
  obtain ⟨pc, previousBlock, request, response, nextBlock, clientToken, responseData⟩ := v
  cases h with
  | listens hpc call ports hcall hv =>
    cases hpc
    subst hv
    exact ⟨.begins hcall, .rests, .rests, .rests⟩
  | waits call call' ports hpc hcall hv =>
    have htakes := takes_of hpc hcall
    cases hpc
    subst hv
    refine ⟨?_, .rests, .rests, .rests⟩
    rw [htakes]
    exact .resumes hcall
  | requests call success received ports header data call' ports' hpc hcall hrequest hsend hv =>
    have htakes := takes_of hpc hcall
    cases hpc
    subst hv
    refine ⟨?_, .begins hsend, .rests, .rests⟩
    rw [htakes]
    exact .resumes hcall
  | sendsRequest array call call' ports hpc hcall hv =>
    cases hpc
    subst hv
    exact ⟨.rests, .resumes hcall, .rests, .rests⟩
  | asked array call ports call' ports' hpc hcall hreceive hv =>
    cases hpc
    subst hv
    exact ⟨.rests, .resumes hcall, .begins hreceive, .rests⟩
  | awaitsResponse call call' ports hpc hcall hv =>
    have hanswers := answers_of hpc hcall
    cases hpc
    subst hv
    refine ⟨.rests, .rests, ?_, .rests⟩
    rw [hanswers]
    exact .resumes hcall
  | answered call success received ports call' ports' hpc hcall hsend hv =>
    have hanswers := answers_of hpc hcall
    cases hpc
    subst hv
    refine ⟨.rests, .rests, ?_, .begins hsend⟩
    rw [hanswers]
    exact .resumes hcall
  | sendsVertices vertexData call call' ports hpc hcall hv =>
    cases hpc
    subst hv
    exact ⟨.rests, .rests, .rests, .resumes hcall⟩
  | given vertexData call ports hpc hcall hv =>
    cases hpc
    subst hv
    exact ⟨.rests, .rests, .rests, .resumes hcall⟩

/-- The vertices that are sent for a response are those behind its header. -/
theorem verticesOf_take (pins : VertexShaderPins) (received : List Dword) (v : VertexShader) :
    (v.verticesOf pins received).take pins.verticesSize = pins.verticesIn received := by
  unfold verticesOf VertexShaderPins.verticesIn
  rw [← List.map_take, List.take_range, Nat.min_eq_left (Nat.le_add_left _ _)]
  apply List.map_congr_left
  intro i hi
  rw [List.mem_range] at hi
  rw [if_pos (Nat.add_lt_add_left hi _)]

theorem verticesOf_length (pins : VertexShaderPins) (received : List Dword) (v : VertexShader) :
    pins.verticesSize ≤ (v.verticesOf pins received).length := by
  unfold verticesOf
  rw [List.length_map, List.length_range]
  exact Nat.le_add_left _ _

/-- What is sent on has all dwords of three vertices. -/
theorem Step.vertices_length (h : Step pins inputs v v') :
    ∀ data ∈ begun v.verticesCall v'.verticesCall, pins.verticesSize ≤ data.length := by
  obtain ⟨pc, previousBlock, request, response, nextBlock, clientToken, responseData⟩ := v
  intro data hdata
  cases h with
  | answered call success received ports call' ports' hpc hcall hsend hv =>
    cases hpc
    subst hv
    rw [List.mem_singleton.mp hdata]
    exact verticesOf_length pins received _
  | listens hpc _ _ _ hv => cases hpc; subst hv; cases hdata
  | waits _ _ _ hpc _ hv => cases hpc; subst hv; cases hdata
  | requests _ _ _ _ _ _ _ _ hpc _ _ _ hv => cases hpc; subst hv; cases hdata
  | sendsRequest _ _ _ _ hpc _ hv => cases hpc; subst hv; cases hdata
  | asked _ _ _ _ _ hpc _ _ hv => cases hpc; subst hv; cases hdata
  | awaitsResponse _ _ _ hpc _ hv => cases hpc; subst hv; cases hdata
  | sendsVertices _ _ _ _ hpc _ hv => cases hpc; subst hv; cases hdata
  | given _ _ _ hpc _ hv => cases hpc; subst hv; cases hdata

theorem Step.passes (h : Step pins inputs v v') : Passes pins inputs v v' := by
  obtain ⟨pc, previousBlock, request, response, nextBlock, clientToken, responseData⟩ := v
  have hsame : clientToken = clientToken + BitVec.ofNat 16 0 := (BitVec.add_zero _).symm
  cases h with
  | waits call call' ports hpc hcall hv =>
    have htakes := takes_of hpc hcall
    cases hpc
    subst hv
    refine ⟨?_, ?_, rfl, ?_⟩
    · rw [htakes]
      rfl
    · rw [htakes]
      exact hsame
    · rw [htakes]
      rfl
  | requests call success received ports header data call' ports' hpc hcall hrequest hsend hv =>
    have htakes := takes_of hpc hcall
    cases hpc
    subst hv
    refine ⟨?_, ?_, rfl, ?_⟩
    · rw [htakes]
      show [header.raw ++ data] = [pins.requestDwords clientToken received]
      rw [VertexShaderPins.requestDwords, hrequest]
    · rw [htakes]
      exact VertexShaderPins.request_clientToken hrequest
    · rw [htakes]
      rfl
  | awaitsResponse call call' ports hpc hcall hv =>
    have hanswers := answers_of hpc hcall
    cases hpc
    subst hv
    refine ⟨rfl, hsame, ?_, ?_⟩
    · rw [hanswers]
      rfl
    · rw [hanswers]
      rfl
  | answered call success received ports call' ports' hpc hcall hsend hv =>
    have hanswers := answers_of hpc hcall
    cases hpc
    subst hv
    refine ⟨rfl, hsame, ?_, ?_⟩
    · rw [hanswers]
      exact congrArg (fun l => [l]) (verticesOf_take pins received _)
    · rw [hanswers]
      rfl
  | listens hpc _ _ _ hv => cases hpc; subst hv; exact ⟨rfl, hsame, rfl, rfl⟩
  | sendsRequest _ _ _ _ hpc _ hv => cases hpc; subst hv; exact ⟨rfl, hsame, rfl, rfl⟩
  | asked _ _ _ _ _ hpc _ _ hv => cases hpc; subst hv; exact ⟨rfl, hsame, rfl, rfl⟩
  | sendsVertices _ _ _ _ hpc _ hv => cases hpc; subst hv; exact ⟨rfl, hsame, rfl, rfl⟩
  | given _ _ _ hpc _ hv => cases hpc; subst hv; exact ⟨rfl, hsame, rfl, rfl⟩

end VertexShader

/-! ## The other end of the link to the rasterizer -/

namespace Rasterizer
variable {F : Type} {f : Floats F} {components : CustomShaderComponents}
  {inputs : RasterizerInputs} {r : Rasterizer F}

/-- The call of `receiveFromVs`. -/
def verticesCall (r : Rasterizer F) : Option (ReceiveCall Dword) :=
  match r.pc with
  | .receiveFromVs _ call => some call
  | _ => none

/-- The vertices that are taken at a clock. -/
def takes (inputs : RasterizerInputs) (r : Rasterizer F) : List (List Dword) :=
  match r.pc with
  | .receiveFromVs customComponentsPerVertex call =>
    (call.resume (verticesArgs customComponentsPerVertex) inputs.inpSending inputs.inpData
      r.previousBlock).1.data
  | _ => []

def Expects (components : CustomShaderComponents) (r : Rasterizer F) : Prop :=
  ∀ count call, r.pc = .receiveFromVs count call → count = components.sizes.sum

/-- The triangle that is set up of the dwords of its vertices. -/
def triangleOf (f : Floats F) (components : CustomShaderComponents) (received : List Dword) :
    Option (Triangle F) :=
  (readVertices f components.sizes.sum received).toOption.map fun vertices =>
    ⟨vertices, dataToSend f vertices⟩

/-- What a clock of a rasterizer does that does not abort. -/
structure TakesVertices (f : Floats F) (components : CustomShaderComponents)
    (inputs : RasterizerInputs) (r r' : Rasterizer F) : Prop where
  expects : r'.Expects components
  vertices : PicoGpu.Receives
    (handshakeReceiveArgs 12 (verticesInPrimitive * (4 + components.sizes.sum)) true)
    inputs.inpSending inputs.inpData r.verticesCall r.previousBlock r'.verticesCall r'.previousBlock
    (r.takes inputs)
  triangles : r'.triangles.map some =
    r.triangles.map some ++ (r.takes inputs).map (triangleOf f components)

theorem rasterizeFrom_frame (vertices : Vertices F) (width height : Dword) (r : Rasterizer F)
    (scan : Scan) : (r.rasterizeFrom vertices width height scan).verticesCall = none ∧
      (r.rasterizeFrom vertices width height scan).previousBlock = r.previousBlock ∧
      (r.rasterizeFrom vertices width height scan).triangles = r.triangles := by
  unfold rasterizeFrom
  split
  · dsimp only
    split
    · exact ⟨rfl, rfl, rfl⟩
    · exact ⟨rfl, rfl, rfl⟩
  · exact ⟨rfl, rfl, rfl⟩
  · exact ⟨rfl, rfl, rfl⟩

theorem takes_of {count : Nat} {call : ReceiveCall Dword} {outcome : ReceiveOutcome Dword}
    {ports : ReceivePorts} (hpc : r.pc = .receiveFromVs count call)
    (hcall : call.resume (verticesArgs count) inputs.inpSending inputs.inpData r.previousBlock =
      (outcome, ports)) : r.takes inputs = outcome.data := by
  unfold takes
  rw [hpc]
  dsimp only
  rw [hcall]

theorem expects_of_none (h : r.verticesCall = none) : r.Expects components := by
  intro count call hpc
  unfold verticesCall at h
  rw [hpc] at h
  cases h

/-- A clock outside `receiveFromVs`. -/
theorem takesVertices_of_frame {r' : Rasterizer F} (hcall : r.verticesCall = none)
    (h : r'.verticesCall = none ∧ r'.previousBlock = r.previousBlock ∧ r'.triangles = r.triangles) :
    TakesVertices f components inputs r r' := by
  obtain ⟨hcall', hports, htriangles⟩ := h
  have htakes : r.takes inputs = [] := by
    unfold verticesCall at hcall
    unfold takes
    split
    · next hpc =>
      rw [hpc] at hcall
      cases hcall
    · rfl
  refine ⟨expects_of_none hcall', ?_, ?_⟩
  · rw [hcall, hcall', hports, htakes]
    exact .rests
  · rw [htriangles, htakes]
    exact (List.append_nil _).symm

/-- A clock of `receiveFromVs`. -/
theorem takesVertices_receiveFromVs {call : ReceiveCall Dword}
    (hpc : r.pc = .receiveFromVs components.sizes.sum call)
    (hrunning : ¬ (r.step f components inputs).Aborted) :
    TakesVertices f components inputs r (r.step f components inputs) := by
  obtain ⟨pc, previousBlock, perTriangle, perFragment, triangles⟩ := r
  cases hpc
  unfold step at hrunning ⊢
  dsimp only at hrunning ⊢
  split
  · next call' ports hcall =>
    have htakes := @takes_of F inputs ⟨.receiveFromVs components.sizes.sum call, previousBlock,
      perTriangle, perFragment, triangles⟩ _ _ _ _ rfl hcall
    refine ⟨?_, ?_, ?_⟩
    · intro count call'' hpc
      cases hpc
      rfl
    · rw [htakes]
      exact .resumes hcall
    · rw [htakes]
      exact (List.append_nil _).symm
  · next success received ports hcall =>
    have htakes := @takes_of F inputs ⟨.receiveFromVs components.sizes.sum call, previousBlock,
      perTriangle, perFragment, triangles⟩ _ _ _ _ rfl hcall
    rw [hcall] at hrunning
    dsimp only at hrunning
    cases hread : readVertices f components.sizes.sum received with
    | error e =>
      rw [hread] at hrunning
      exact absurd ⟨e, rfl⟩ hrunning
    | ok vertices =>
      rw [hread] at hrunning
      dsimp only at hrunning ⊢
      unfold setupPerTriangleFsState at hrunning ⊢
      dsimp only at hrunning ⊢
      have htriangle : triangleOf f components received =
          some ⟨vertices, dataToSend f vertices⟩ := by
        rw [triangleOf, hread]
        rfl
      split
      · next call' ports' hsend =>
        refine ⟨expects_of_none rfl, ?_, ?_⟩
        · rw [htakes]
          exact .resumes hcall
        · rw [htakes, List.map_append, List.map_singleton, ← htriangle]
          rfl
      · next e hsend =>
        rw [hsend] at hrunning
        exact absurd ⟨e, rfl⟩ hrunning

theorem Expects.step (h : r.Expects components)
    (hrunning : ¬ (r.step f components inputs).Aborted) :
    TakesVertices f components inputs r (r.step f components inputs) := by
  obtain ⟨pc, previousBlock, perTriangle, perFragment, triangles⟩ := r
  cases pc with
  | start =>
    unfold step at hrunning ⊢
    dsimp only at hrunning ⊢
    rw [CustomShaderComponents.getTotalCustomComponents_eq] at hrunning ⊢
    dsimp only at hrunning ⊢
    split
    · next call ports hcall =>
      refine ⟨?_, .begins hcall, (List.append_nil _).symm⟩
      intro count call' hpc
      cases hpc
      rfl
    · next e hcall =>
      rw [hcall] at hrunning
      exact absurd ⟨e, rfl⟩ hrunning
  | receiveFromVs count call =>
    obtain rfl : count = components.sizes.sum := h count call rfl
    exact takesVertices_receiveFromVs rfl hrunning
  | perTriangle triangle call =>
    apply takesVertices_of_frame rfl
    unfold step rasterize
    dsimp only
    split
    · exact ⟨rfl, rfl, rfl⟩
    · split
      · exact rasterizeFrom_frame _ _ _ _ _
      · exact ⟨rfl, rfl, rfl⟩
  | perFragment vertices width height fragment call =>
    apply takesVertices_of_frame rfl
    unfold step
    dsimp only
    split
    · exact ⟨rfl, rfl, rfl⟩
    · exact rasterizeFrom_frame _ _ _ _ _
  | endless => exact takesVertices_of_frame rfl ⟨rfl, rfl, rfl⟩
  | aborted e => exact takesVertices_of_frame rfl ⟨rfl, rfl, rfl⟩

end Rasterizer

end PicoGpu
