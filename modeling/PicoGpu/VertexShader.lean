import PicoGpu.FragmentShader

/- The block `VertexShader`, cut at the `wait()`s of its loop and of its calls of
   `Transfer`. The pins do not change while it runs, so it does not matter when they are
   read. The last dword that goes to the rasterizer is not one of those received: it is
   what the array `response` held before. -/
namespace PicoGpu

inductive VertexShaderPc where
  | start
  | receiving (totalInputComponents : Nat) (call : ReceiveCall Dword)
  | sendingRequest (request : List Dword) (call : SendCall)
  | receivingResponse (dwordsToReceive : Nat) (call : ReceiveCall Dword)
  | sendingVertices (vertexData : List Dword) (call : SendCall)
  | aborted (error : FatalError)

/-- `responseData` are the dwords of `response`, its header first. -/
structure VertexShader where
  pc : VertexShaderPc
  previousBlock : ReceivePorts
  request : SendPorts Dword
  response : ReceivePorts
  nextBlock : SendPorts Dword
  clientToken : BitVec 16
  responseData : Nat → Dword

/-- What the block reads at a clock, apart from its pins. -/
structure VertexShaderInputs where
  inpSending : Bool
  inpData : Nat → Dword
  requestReceiving : Bool
  responseSending : Bool
  responseData : Nat → Dword
  nextBlockReceiving : Bool

namespace VertexShader

def new : VertexShader where
  pc := .start
  previousBlock := ⟨false, false⟩
  request := ⟨false, fun _ => 0⟩
  response := ⟨false, false⟩
  nextBlock := ⟨false, fun _ => 0⟩
  clientToken := 0
  responseData := fun _ => 0

def outBusy (v : VertexShader) : Bool := v.previousBlock.outBusinessSignal

def triangleArgs (totalInputComponents : Nat) : ReceiveArgs where
  dataPortsCount := 9
  dataToReceiveCount := totalInputComponents
  outBusinessSignal := true
  timeout := none
  performHandshake := true

def responseArgs (dwordsToReceive : Nat) : ReceiveArgs where
  dataPortsCount := 1
  dataToReceiveCount := dwordsToReceive
  outBusinessSignal := false
  timeout := none
  performHandshake := true

def verticesArgs (vertexData : List Dword) : SendArgs Dword where
  dataToSend := vertexData
  dataPortsCount := 12
  performHandshake := true

def receiveTriangle (pins : VertexShaderPins) (v : VertexShader) : VertexShader :=
  match pins.totalInputComponents with
  | .error e => { v with pc := .aborted e }
  | .ok totalInputComponents =>
    match receiveArrayImpl (triangleArgs totalInputComponents) v.previousBlock with
    | .ok (call, ports) =>
      { v with pc := .receiving totalInputComponents call, previousBlock := ports }
    | .error e => { v with pc := .aborted e }

def sendRequest (pins : VertexShaderPins) (received : List Dword) (v : VertexShader) :
    VertexShader :=
  match pins.request v.clientToken fun i => received.getD i 0 with
  | .error e => { v with pc := .aborted e }
  | .ok (header, data) =>
    let request := header.raw ++ data
    match sendArrayImpl (PerFragmentThread.requestArgs request) v.request with
    | .ok (call, ports) =>
      { v with
        pc := .sendingRequest request call
        request := ports
        clientToken := header.clientToken }
    | .error e => { v with pc := .aborted e }

def receiveResponse (pins : VertexShaderPins) (v : VertexShader) : VertexShader :=
  match pins.dwordsToReceive with
  | .error e => { v with pc := .aborted e }
  | .ok dwordsToReceive =>
    match receiveArrayImpl (responseArgs dwordsToReceive) v.response with
    | .ok (call, ports) =>
      { v with pc := .receivingResponse dwordsToReceive call, response := ports }
    | .error e => { v with pc := .aborted e }

def sendVertices (dwordsToReceive : Nat) (received : List Dword) (v : VertexShader) :
    VertexShader :=
  let responseData := fun i => if i < dwordsToReceive then received.getD i 0 else v.responseData i
  let vertexData := (List.range dwordsToReceive).map fun i => responseData (responseHeaderDwords + i)
  match sendArrayImpl (verticesArgs vertexData) v.nextBlock with
  | .ok (call, ports) =>
    { v with
      pc := .sendingVertices vertexData call
      nextBlock := ports
      responseData := responseData }
  | .error e => { v with pc := .aborted e }

def step (pins : VertexShaderPins) (inputs : VertexShaderInputs) (v : VertexShader) :
    VertexShader :=
  match v.pc with
  | .start => v.receiveTriangle pins
  | .receiving totalInputComponents call =>
    match call.resume (triangleArgs totalInputComponents) inputs.inpSending inputs.inpData
      v.previousBlock with
    | (.suspended call, ports) =>
      { v with pc := .receiving totalInputComponents call, previousBlock := ports }
    | (.returned _ received, ports) => { v with previousBlock := ports }.sendRequest pins received
  | .sendingRequest request call =>
    match call.resume (PerFragmentThread.requestArgs request) inputs.requestReceiving v.request with
    | (some call, ports) => { v with pc := .sendingRequest request call, request := ports }
    | (none, ports) => { v with request := ports }.receiveResponse pins
  | .receivingResponse dwordsToReceive call =>
    match call.resume (responseArgs dwordsToReceive) inputs.responseSending inputs.responseData
      v.response with
    | (.suspended call, ports) =>
      { v with pc := .receivingResponse dwordsToReceive call, response := ports }
    | (.returned _ received, ports) =>
      { v with response := ports }.sendVertices dwordsToReceive received
  | .sendingVertices vertexData call =>
    match call.resume (verticesArgs vertexData) inputs.nextBlockReceiving v.nextBlock with
    | (some call, ports) => { v with pc := .sendingVertices vertexData call, nextBlock := ports }
    | (none, ports) => { v with pc := .start, nextBlock := ports }
  | .aborted _ => v

/-! ## Between two clocks -/

def Aborted (v : VertexShader) : Prop := ∃ e, v.pc = .aborted e

instance (v : VertexShader) : Decidable v.Aborted :=
  decidable_of_iff ((match v.pc with | .aborted _ => true | _ => false) = true) (by
    unfold Aborted
    cases v.pc <;> simp)

/-- Waiting for a triangle, and nothing is offered. -/
structure Idle (v : VertexShader) : Prop where
  pc : v.pc = .start ∨ ∃ count call, v.pc = .receiving count call ∧ call.AtHandshake
  request : v.request.outSending = false
  nextBlock : v.nextBlock.outSending = false

/-- The block is busy from the clock of a triangle until it waits for the next one. -/
def Tracked (v : VertexShader) : Prop :=
  match v.pc with
  | .start => v.request.outSending = false ∧ v.nextBlock.outSending = false
  | .receiving _ call =>
    call.Holds v.previousBlock ∧ v.request.outSending = false ∧ v.nextBlock.outSending = false
  | .sendingRequest _ call =>
    v.outBusy = true ∧ call.Holds v.request ∧ v.nextBlock.outSending = false
  | .receivingResponse _ _ =>
    v.outBusy = true ∧ v.request.outSending = false ∧ v.nextBlock.outSending = false
  | .sendingVertices _ call =>
    v.outBusy = true ∧ v.request.outSending = false ∧ call.Holds v.nextBlock
  | .aborted _ => True

variable {v : VertexShader}

theorem tracked_new : new.Tracked := ⟨rfl, rfl⟩

theorem Tracked.idle (h : v.Tracked) (hbusy : v.outBusy = false) (hrunning : ¬ v.Aborted) :
    v.Idle := by
  unfold Tracked at h
  cases hpc : v.pc with
  | start =>
    rw [hpc] at h
    exact ⟨Or.inl hpc, h.1, h.2⟩
  | receiving count call =>
    rw [hpc] at h
    obtain ⟨hholds, hrequest, hnext⟩ := h
    refine ⟨Or.inr ⟨count, call, hpc, ?_⟩, hrequest, hnext⟩
    cases call with
    | acknowledge clocksWaiting => trivial
    | stalled clocksWaiting => trivial
    | package dataReceived packagesReceived =>
      rw [outBusy, hholds.2] at hbusy
      cases hbusy
  | sendingRequest request call =>
    rw [hpc, hbusy] at h
    cases h.1
  | receivingResponse count call =>
    rw [hpc, hbusy] at h
    cases h.1
  | sendingVertices vertexData call =>
    rw [hpc, hbusy] at h
    cases h.1
  | aborted e => exact absurd ⟨e, hpc⟩ hrunning

section
variable {pins : VertexShaderPins}

theorem receiveTriangle_cases (hrequest : v.request.outSending = false)
    (hnext : v.nextBlock.outSending = false) :
    ((v.receiveTriangle pins).Tracked ∧ (v.receiveTriangle pins).Idle) ∨
      (v.receiveTriangle pins).Aborted := by
  unfold receiveTriangle
  split
  · exact Or.inr ⟨_, rfl⟩
  · split
    · next call ports hcall =>
      obtain ⟨hhandshake, rfl⟩ := receiveArrayImpl_handshake rfl hcall
      refine Or.inl ⟨⟨?_, hrequest, hnext⟩, Or.inr ⟨_, call, rfl, hhandshake⟩, hrequest, hnext⟩
      cases call with
      | acknowledge clocksWaiting => rfl
      | stalled clocksWaiting => rfl
      | package dataReceived packagesReceived => exact absurd hhandshake id
    · exact Or.inr ⟨_, rfl⟩

theorem Aborted.tracked (h : v.Aborted) : v.Tracked := by
  obtain ⟨e, hpc⟩ := h
  unfold Tracked
  rw [hpc]
  trivial

theorem Aborted.step (h : v.Aborted) (pins : VertexShaderPins) (inputs : VertexShaderInputs) :
    (v.step pins inputs).Aborted := by
  obtain ⟨e, hpc⟩ := h
  unfold VertexShader.step
  rw [hpc]
  exact ⟨e, hpc⟩

theorem sendRequest_tracked (hbusy : v.outBusy = true) (hrequest : v.request.outSending = false)
    (hnext : v.nextBlock.outSending = false) (received : List Dword) :
    (v.sendRequest pins received).Tracked := by
  unfold sendRequest
  split
  · trivial
  · dsimp only
    split
    · next hsend => exact ⟨hbusy, sendArrayImpl_holds hrequest hsend, hnext⟩
    · trivial

theorem receiveResponse_tracked (hbusy : v.outBusy = true) (hrequest : v.request.outSending = false)
    (hnext : v.nextBlock.outSending = false) : (v.receiveResponse pins).Tracked := by
  unfold receiveResponse
  split
  · trivial
  · split
    · exact ⟨hbusy, hrequest, hnext⟩
    · trivial

theorem sendVertices_tracked (hbusy : v.outBusy = true) (hrequest : v.request.outSending = false)
    (hnext : v.nextBlock.outSending = false) (dwordsToReceive : Nat) (received : List Dword) :
    (v.sendVertices dwordsToReceive received).Tracked := by
  unfold sendVertices
  dsimp only
  split
  · next hsend => exact ⟨hbusy, hrequest, sendArrayImpl_holds hnext hsend⟩
  · trivial

end

theorem tracked_step (h : v.Tracked) (pins : VertexShaderPins) (inputs : VertexShaderInputs) :
    (v.step pins inputs).Tracked := by
  have htracked := h
  unfold Tracked at h
  unfold step
  cases hpc : v.pc with
  | start =>
    rw [hpc] at h
    rcases receiveTriangle_cases h.1 h.2 with ⟨hnext, -⟩ | haborted
    · exact hnext
    · exact haborted.tracked
  | receiving count call =>
    rw [hpc] at h
    obtain ⟨hholds, hrequest, hnext⟩ := h
    dsimp only
    split
    · next hresume => exact ⟨ReceiveCall.resume_holds rfl rfl hholds hresume, hrequest, hnext⟩
    · next received ports hresume =>
      have hports := ReceiveCall.resume_holds rfl rfl hholds hresume
      exact @sendRequest_tracked { v with previousBlock := ports } pins hports.2 hrequest hnext
        received
  | sendingRequest request call =>
    rw [hpc] at h
    obtain ⟨hbusy, hholds, hnext⟩ := h
    dsimp only
    split
    · next hresume => exact ⟨hbusy, SendCall.resume_some hholds hresume, hnext⟩
    · next ports hresume =>
      exact @receiveResponse_tracked { v with request := ports } pins hbusy
        (SendCall.resume_none hholds hresume) hnext
  | receivingResponse count call =>
    rw [hpc] at h
    obtain ⟨hbusy, hrequest, hnext⟩ := h
    dsimp only
    split
    · exact ⟨hbusy, hrequest, hnext⟩
    · next received ports _ =>
      exact @sendVertices_tracked { v with response := ports } hbusy hrequest hnext count received
  | sendingVertices vertexData call =>
    rw [hpc] at h
    obtain ⟨hbusy, hrequest, hholds⟩ := h
    dsimp only
    split
    · next hresume => exact ⟨hbusy, hrequest, SendCall.resume_some hholds hresume⟩
    · next hresume => exact ⟨hrequest, SendCall.resume_none hholds hresume⟩
  | aborted e => exact htracked

/-- With no triangle offered, the block goes on waiting; it aborts if its pins say that a
    triangle has no dwords. -/
theorem Idle.step (h : v.Idle) (pins : VertexShaderPins) {inputs : VertexShaderInputs}
    (hsending : inputs.inpSending = false) :
    (v.step pins inputs).Idle ∨ (v.step pins inputs).Aborted := by
  obtain ⟨hpc | ⟨count, call, hpc, hcall⟩, hrequest, hnext⟩ := h
  · unfold VertexShader.step
    rw [hpc]
    exact (receiveTriangle_cases hrequest hnext).imp_left And.right
  · obtain ⟨clocks, hresume⟩ :=
      @ReceiveCall.resume_silent _ (triangleArgs count) rfl inputs.inpData v.previousBlock call hcall
    unfold VertexShader.step
    rw [hpc, hsending]
    dsimp only
    rw [hresume]
    exact Or.inl ⟨Or.inr ⟨count, _, rfl, trivial⟩, hrequest, hnext⟩

end VertexShader

end PicoGpu
