import PicoGpu.MemoryClients
import PicoGpu.ShaderArray

/- The two threads of the block `ShaderFrontend`, cut at their `wait()`s. What they share
   are not signals but variables: `shaderUnitStates` is changed at once, so within a
   clock it matters which thread runs first, and nothing in the source says which one does.

   Correspondence (shader_frontend.cpp ↔ here):
     the `wait()` that `requestThread` is in    ↔ `FrontendRequestPc`
     the `wait()` that `responseThread` is in   ↔ `FrontendResponsePc`
     `shaderInput`, `shaderOutputs`             ↔ lists, as long as what they hold
   The counter of fetches is left out. -/
namespace PicoGpu

/-- The fields that the bit fields of a request show of its dwords. -/
def ShaderFrontendRequest.ofRaw (raw : Nat → Dword) : ShaderFrontendRequest :=
  let first := fun k => (BitFields.unpack [16, 5, 1] (raw 1).toNat).getD k 0
  let second := fun k =>
    (BitFields.unpack [2, 2, 2, 2, 2, 2, 2, 2, 3, 2, 2, 2] (raw 2).toNat).getD k 0
  { isaAddress := raw 0
    clientToken := BitVec.ofNat 16 (first 0)
    threadCount := BitVec.ofNat 5 (first 1)
    programType := .ofValue (first 2)
    inputsCount := BitVec.ofNat 2 (second 0)
    inputSize0 := BitVec.ofNat 2 (second 1)
    inputSize1 := BitVec.ofNat 2 (second 2)
    inputSize2 := BitVec.ofNat 2 (second 3)
    outputsCount := BitVec.ofNat 2 (second 4)
    outputSize0 := BitVec.ofNat 2 (second 5)
    outputSize1 := BitVec.ofNat 2 (second 6)
    outputSize2 := BitVec.ofNat 2 (second 7)
    uniformsCount := BitVec.ofNat 3 (second 8)
    uniformSize0 := BitVec.ofNat 2 (second 9)
    uniformSize1 := BitVec.ofNat 2 (second 10)
    uniformSize2 := BitVec.ofNat 2 (second 11) }

/-- `CommandExecuteIsa` of `executeIsa`. The source leaves its other bits as they are, and
    the shader unit does not look at them. -/
def executeIsaCommand (threadCount : BitVec 5) : List Dword :=
  [BitVec.ofNat 32 (BitFields.pack [(1, CommandType.executeIsa.value), (1, 0),
    (5, threadCount.toNat)]), 0, 0]

/-- The locals of `requestThread` for a request. -/
structure FrontendRequest where
  clientIndex : Nat
  shaderUnitIndex : Nat
  request : ShaderFrontendRequest
  shaderInput : List Dword

inductive FrontendRequestPc where
  | start
  | receivingHeader (clientIndex shaderUnitIndex : Nat) (call : ReceiveCall Dword)
  | receivingRequest (clientIndex shaderUnitIndex : Nat) (received : List Dword)
  | loadingIsa (r : FrontendRequest) (data : List Dword) (dwordsToLoad : Nat)
  | storingIsa (r : FrontendRequest) (data : List Dword) (call : SendCall)
  | executingIsa (r : FrontendRequest) (call : SendCall)
  | sendingInputs (r : FrontendRequest) (index : Nat)
  | aborted (error : FatalError)

inductive FrontendResponsePc where
  | start
  | receivingFirst (shaderUnitIndex clientIndex : Nat) (header : Dword) (call : ReceiveCall Dword)
  | receivingOutputs (shaderUnitIndex clientIndex : Nat) (shaderOutputs : List Dword)
  | sendingHeader (clientIndex : Nat) (shaderOutputs : List Dword) (call : SendCall)
  | sendingOutputs (clientIndex : Nat) (shaderOutputs : List Dword) (index : Nat)
  | aborted (error : FatalError)

structure ShaderFrontendBlock where
  requestPc : FrontendRequestPc
  responsePc : FrontendResponsePc
  isaCache : IsaCache
  unitStates : Nat → ShaderUnitState
  memory : MemorySignals
  clientRequests : Nat → ReceivePorts
  clientResponses : Nat → SendPorts Dword
  unitRequests : Nat → SendPorts Dword
  unitResponses : Nat → ReceivePorts
  requestThreadBusy : Bool
  responseThreadBusy : Bool

/-- What the threads read at a clock. -/
structure ShaderFrontendInputs where
  clientSending : Nat → Bool
  clientData : Nat → Dword
  clientReceiving : Nat → Bool
  unitSending : Nat → Bool
  unitData : Nat → Dword
  unitReceiving : Nat → Bool
  inpCompleted : Bool
  inpData : MemoryDataType

namespace ShaderFrontendBlock

def new : ShaderFrontendBlock where
  requestPc := .start
  responsePc := .start
  isaCache := IsaCache.new
  unitStates := fun _ => ⟨false, 0, 0, 0⟩
  memory := .low
  clientRequests := fun _ => ⟨false, false⟩
  clientResponses := fun _ => ⟨false, fun _ => 0⟩
  unitRequests := fun _ => ⟨false, fun _ => 0⟩
  unitResponses := fun _ => ⟨false, false⟩
  requestThreadBusy := false
  responseThreadBusy := false

/-- `busySignalMethod` runs between two clocks. -/
def outBusy (s : ShaderFrontendBlock) : Bool := s.requestThreadBusy || s.responseThreadBusy

def findClientMakingRequest (clientsCount : Nat) (inputs : ShaderFrontendInputs) : Option Nat :=
  (List.range clientsCount).find? fun clientIndex => inputs.clientSending clientIndex

def findFreeShaderUnit (shaderUnitsCount : Nat) (s : ShaderFrontendBlock) : Option Nat :=
  (List.range shaderUnitsCount).find? fun shaderUnitIndex =>
    !(s.unitStates shaderUnitIndex).isActive

def findShaderUnitSendingResponse (shaderUnitsCount : Nat) (inputs : ShaderFrontendInputs) :
    Option Nat :=
  (List.range shaderUnitsCount).find? fun shaderUnitIndex => inputs.unitSending shaderUnitIndex

def sendArgs (dataToSend : List Dword) (performHandshake : Bool) : SendArgs Dword where
  dataToSend := dataToSend
  dataPortsCount := 1
  performHandshake := performHandshake

/-! ## requestThread -/

/-- The state after a request was taken over by its shader unit. -/
def markActive (r : FrontendRequest) (s : ShaderFrontendBlock) : ShaderFrontendBlock :=
  { s with
    requestPc := .start
    unitStates := Function.update s.unitStates r.shaderUnitIndex
      ⟨true, r.clientIndex, r.request.clientToken, calculateShaderOutputsCount r.request⟩ }

/-- The loop over the inputs in `executeIsa`, from its test on. -/
def sendInputs (r : FrontendRequest) (index : Nat) (s : ShaderFrontendBlock) :
    ShaderFrontendBlock :=
  match r.shaderInput[index]? with
  | some input =>
    let ports := s.unitRequests r.shaderUnitIndex
    { s with
      requestPc := .sendingInputs r index
      unitRequests := Function.update s.unitRequests r.shaderUnitIndex
        { ports with outDataPorts := Function.update ports.outDataPorts 0 input } }
  | none => s.markActive r

def executeIsa (r : FrontendRequest) (s : ShaderFrontendBlock) : ShaderFrontendBlock :=
  match sendArrayImpl (sendArgs (executeIsaCommand r.request.threadCount) false)
    (s.unitRequests r.shaderUnitIndex) with
  | .ok (call, ports) =>
    { s with
      requestPc := .executingIsa r call
      unitRequests := Function.update s.unitRequests r.shaderUnitIndex ports }
  | .error e => { s with requestPc := .aborted e }

/-- `validateRequest` and `storeIsa` with the entry that `getIsa` returns. -/
def storeCachedIsa (r : FrontendRequest) (slot : Fin 2) (s : ShaderFrontendBlock) :
    ShaderFrontendBlock :=
  match validateRequest r.request (s.isaCache.entries slot).value.getMetadata with
  | .error e => { s with requestPc := .aborted e }
  | .ok () =>
    let (data, isaCache) := storeIsa s.isaCache slot
    match sendArrayImpl (sendArgs data true) (s.unitRequests r.shaderUnitIndex) with
    | .ok (call, ports) =>
      { s with
        requestPc := .storingIsa r data call
        isaCache := isaCache
        unitRequests := Function.update s.unitRequests r.shaderUnitIndex ports }
    | .error e => { s with requestPc := .aborted e }

/-- The loop of `getIsa`, from its test on. -/
def loadDwords (r : FrontendRequest) (data : List Dword) (dwordsToLoad : Nat)
    (s : ShaderFrontendBlock) : ShaderFrontendBlock :=
  if 0 < dwordsToLoad then
    if data.length ≥ Isa.maxIsaSize then
      { s with requestPc := .aborted "Too big ISA to fit in cache" }
    else { s with
      requestPc := .loadingIsa r data dwordsToLoad
      memory := { s.memory with
        enable := true
        address := dwordAddress r.request.isaAddress data.length } }
  else
    let (slot, isaCache) := s.isaCache.put r.request.isaAddress ⟨data⟩
    { s with isaCache := isaCache }.storeCachedIsa r slot

/-- What the loop of `getIsa` does with a dword behind `data`. -/
def loadedDword (r : FrontendRequest) (data : List Dword) (dword : Dword) (dwordsToLoad : Nat)
    (s : ShaderFrontendBlock) : ShaderFrontendBlock :=
  let data := data ++ [dword]
  if data.length = 1 then
    let command := (IsaCacheEntry.mk data).getMetadata
    if command.commandType ≠ .storeIsa then { s with requestPc := .aborted "Invalid command header" }
    else if command.programLength = 0 then { s with requestPc := .aborted "Invalid program length" }
    else s.loadDwords r data (command.programLength.toNat + Isa.commandSizeInDwords - 1)
  else s.loadDwords r data (dwordsToLoad - 1)

/-- The request is complete. -/
def getIsa (r : FrontendRequest) (s : ShaderFrontendBlock) : ShaderFrontendBlock :=
  if r.request.isaAddress = invalidAddress then s.executeIsa r
  else
    match s.isaCache.get r.request.isaAddress with
    | some (slot, isaCache) => { s with isaCache := isaCache }.storeCachedIsa r slot
    | none => s.loadDwords r [] 1

/-- The dwords of a request, from the test for the next one on. -/
def receiveRequest (clientIndex shaderUnitIndex : Nat) (received : List Dword)
    (s : ShaderFrontendBlock) : ShaderFrontendBlock :=
  let headerDwords := 3
  let request := ShaderFrontendRequest.ofRaw fun k => received.getD k 0
  if received.length < headerDwords + calculateShaderInputsCount request then
    { s with requestPc := .receivingRequest clientIndex shaderUnitIndex received }
  else s.getIsa ⟨clientIndex, shaderUnitIndex, request, received.drop headerDwords⟩

/-- `requestThread` from a `wait()` to the next one. -/
def stepRequest (clientsCount shaderUnitsCount : Nat) (inputs : ShaderFrontendInputs)
    (s : ShaderFrontendBlock) : ShaderFrontendBlock :=
  match s.requestPc with
  | .start =>
    match findClientMakingRequest clientsCount inputs, s.findFreeShaderUnit shaderUnitsCount with
    | some clientIndex, some shaderUnitIndex =>
      match receiveArrayImpl (Transfer.receive false) (s.clientRequests clientIndex) with
      | .ok (call, ports) =>
        { s with
          requestPc := .receivingHeader clientIndex shaderUnitIndex call
          clientRequests := Function.update s.clientRequests clientIndex ports
          requestThreadBusy := true }
      | .error e => { s with requestPc := .aborted e }
    | _, _ => { s with requestThreadBusy := false }
  | .receivingHeader clientIndex shaderUnitIndex call =>
    match call.resume (Transfer.receive false) (inputs.clientSending clientIndex)
      (fun _ => inputs.clientData clientIndex) (s.clientRequests clientIndex) with
    | (.suspended call, ports) =>
      { s with
        requestPc := .receivingHeader clientIndex shaderUnitIndex call
        clientRequests := Function.update s.clientRequests clientIndex ports }
    | (.returned _ received, ports) =>
      { s with clientRequests := Function.update s.clientRequests clientIndex ports }.receiveRequest
        clientIndex shaderUnitIndex received
  | .receivingRequest clientIndex shaderUnitIndex received =>
    s.receiveRequest clientIndex shaderUnitIndex (received ++ [inputs.clientData clientIndex])
  | .loadingIsa r data dwordsToLoad =>
    if inputs.inpCompleted then
      { s with memory := { s.memory with enable := false, address := 0 } }.loadedDword r data
        inputs.inpData dwordsToLoad
    else { s with memory := { s.memory with enable := false } }
  | .storingIsa r data call =>
    match call.resume (sendArgs data true) (inputs.unitReceiving r.shaderUnitIndex)
      (s.unitRequests r.shaderUnitIndex) with
    | (some call, ports) =>
      { s with
        requestPc := .storingIsa r data call
        unitRequests := Function.update s.unitRequests r.shaderUnitIndex ports }
    | (none, ports) =>
      { s with unitRequests := Function.update s.unitRequests r.shaderUnitIndex ports }.executeIsa r
  | .executingIsa r call =>
    match call.resume (sendArgs (executeIsaCommand r.request.threadCount) false)
      (inputs.unitReceiving r.shaderUnitIndex) (s.unitRequests r.shaderUnitIndex) with
    | (some call, ports) =>
      { s with
        requestPc := .executingIsa r call
        unitRequests := Function.update s.unitRequests r.shaderUnitIndex ports }
    | (none, ports) =>
      { s with unitRequests := Function.update s.unitRequests r.shaderUnitIndex ports }.sendInputs r 0
  | .sendingInputs r index => s.sendInputs r (index + 1)
  | .aborted _ => s

/-! ## responseThread -/

/-- The loop over the outputs for the client, from its test on. -/
def sendOutputs (clientIndex : Nat) (shaderOutputs : List Dword) (index : Nat)
    (s : ShaderFrontendBlock) : ShaderFrontendBlock :=
  match shaderOutputs[index]? with
  | some output =>
    let ports := s.clientResponses clientIndex
    { s with
      responsePc := .sendingOutputs clientIndex shaderOutputs index
      clientResponses := Function.update s.clientResponses clientIndex
        { ports with outDataPorts := Function.update ports.outDataPorts 0 output } }
  | none => { s with responsePc := .start }

/-- The loop over the outputs of the unit, from its test on; `shaderOutputs` begins with the
    header. -/
def receiveOutputs (shaderUnitIndex clientIndex : Nat) (shaderOutputs : List Dword)
    (s : ShaderFrontendBlock) : ShaderFrontendBlock :=
  let state := s.unitStates shaderUnitIndex
  if shaderOutputs.length < responseHeaderDwords + state.outputsCount then
    { s with responsePc := .receivingOutputs shaderUnitIndex clientIndex shaderOutputs }
  else
    let s := { s with
      unitStates := Function.update s.unitStates shaderUnitIndex { state with isActive := false } }
    match sendArrayImpl (Transfer.send (shaderOutputs.headD 0)) (s.clientResponses clientIndex) with
    | .ok (call, ports) =>
      { s with
        responsePc := .sendingHeader clientIndex shaderOutputs call
        clientResponses := Function.update s.clientResponses clientIndex ports }
    | .error e => { s with responsePc := .aborted e }

/-- `responseThread` from a `wait()` to the next one. -/
def stepResponse (shaderUnitsCount : Nat) (inputs : ShaderFrontendInputs)
    (s : ShaderFrontendBlock) : ShaderFrontendBlock :=
  match s.responsePc with
  | .start =>
    match findShaderUnitSendingResponse shaderUnitsCount inputs with
    | none => { s with responseThreadBusy := false }
    | some shaderUnitIndex =>
      let state := s.unitStates shaderUnitIndex
      let s := { s with responseThreadBusy := true }
      if state.isActive then
        match receiveArrayImpl (Transfer.receive false) (s.unitResponses shaderUnitIndex) with
        | .ok (call, ports) =>
          { s with
            responsePc := .receivingFirst shaderUnitIndex state.clientIndex
              (responseHeader state.clientToken) call
            unitResponses := Function.update s.unitResponses shaderUnitIndex ports }
        | .error e => { s with responsePc := .aborted e }
      else { s with responsePc := .aborted "Shader unit tried to return results for no reason" }
  | .receivingFirst shaderUnitIndex clientIndex header call =>
    match call.resume (Transfer.receive false) (inputs.unitSending shaderUnitIndex)
      (fun _ => inputs.unitData shaderUnitIndex) (s.unitResponses shaderUnitIndex) with
    | (.suspended call, ports) =>
      { s with
        responsePc := .receivingFirst shaderUnitIndex clientIndex header call
        unitResponses := Function.update s.unitResponses shaderUnitIndex ports }
    | (.returned _ received, ports) =>
      { s with unitResponses := Function.update s.unitResponses shaderUnitIndex ports }.receiveOutputs
        shaderUnitIndex clientIndex (header :: received)
  | .receivingOutputs shaderUnitIndex clientIndex shaderOutputs =>
    s.receiveOutputs shaderUnitIndex clientIndex (shaderOutputs ++ [inputs.unitData shaderUnitIndex])
  | .sendingHeader clientIndex shaderOutputs call =>
    match call.resume (Transfer.send (shaderOutputs.headD 0)) (inputs.clientReceiving clientIndex)
      (s.clientResponses clientIndex) with
    | (some call, ports) =>
      { s with
        responsePc := .sendingHeader clientIndex shaderOutputs call
        clientResponses := Function.update s.clientResponses clientIndex ports }
    | (none, ports) =>
      { s with clientResponses := Function.update s.clientResponses clientIndex ports }.sendOutputs
        clientIndex shaderOutputs 1
  | .sendingOutputs clientIndex shaderOutputs index =>
    s.sendOutputs clientIndex shaderOutputs (index + 1)
  | .aborted _ => s

/-- One clock of both threads. -/
def step (clientsCount shaderUnitsCount : Nat) (responseFirst : Bool)
    (inputs : ShaderFrontendInputs) (s : ShaderFrontendBlock) : ShaderFrontendBlock :=
  if responseFirst then
    (s.stepResponse shaderUnitsCount inputs).stepRequest clientsCount shaderUnitsCount inputs
  else (s.stepRequest clientsCount shaderUnitsCount inputs).stepResponse shaderUnitsCount inputs

end ShaderFrontendBlock

/-! ## Between two clocks -/

/-- A call of `sendArrayImpl` on port `index`; nothing is offered on the others. -/
structure SendsAt (ports : Nat → SendPorts Dword) (index : Nat) (call : SendCall) : Prop where
  others : ∀ other, other ≠ index → (ports other).outSending = false
  holds : call.Holds (ports index)

section
variable {ports : Nat → SendPorts Dword} {index : Nat} {port : SendPorts Dword} {call : SendCall}

theorem low_update (h : ∀ other, other ≠ index → (ports other).outSending = false)
    (hport : port.outSending = false) (other : Nat) :
    (Function.update ports index port other).outSending = false := by
  rw [Function.update_apply]
  split
  · exact hport
  · next hne => exact h other hne

theorem sendsAt_update (h : ∀ other, other ≠ index → (ports other).outSending = false)
    (hcall : call.Holds port) : SendsAt (Function.update ports index port) index call where
  others := by
    intro other hne
    rw [Function.update_of_ne hne]
    exact h other hne
  holds := by rwa [Function.update_self]

end

namespace ShaderFrontendBlock

/-- `requestThread` offers nothing. -/
structure RequestLow (s : ShaderFrontendBlock) : Prop where
  enable : s.memory.enable = false
  unitRequests : ∀ unit, (s.unitRequests unit).outSending = false

def RequestTracked (s : ShaderFrontendBlock) : Prop :=
  match s.requestPc with
  | .start => s.RequestLow
  | .receivingHeader _ _ _ | .receivingRequest _ _ _ | .sendingInputs _ _ =>
    s.requestThreadBusy = true ∧ s.RequestLow
  | .loadingIsa _ _ _ =>
    s.requestThreadBusy = true ∧ ∀ unit, (s.unitRequests unit).outSending = false
  | .storingIsa r _ call | .executingIsa r call =>
    s.requestThreadBusy = true ∧ s.memory.enable = false ∧
      SendsAt s.unitRequests r.shaderUnitIndex call
  | .aborted _ => s.memory.enable = false

def ResponseTracked (s : ShaderFrontendBlock) : Prop :=
  match s.responsePc with
  | .start => ∀ client, (s.clientResponses client).outSending = false
  | .receivingFirst _ _ _ _ | .receivingOutputs _ _ _ | .sendingOutputs _ _ _ =>
    s.responseThreadBusy = true ∧ ∀ client, (s.clientResponses client).outSending = false
  | .sendingHeader clientIndex _ call =>
    s.responseThreadBusy = true ∧ SendsAt s.clientResponses clientIndex call
  | .aborted _ => True

/-- Each thread is busy from the clock in which it finds something to do. -/
structure Tracked (s : ShaderFrontendBlock) : Prop where
  request : s.RequestTracked
  response : s.ResponseTracked

structure Idle (s : ShaderFrontendBlock) : Prop where
  requestPc : s.requestPc = .start
  responsePc : s.responsePc = .start
  request : s.RequestLow
  clientResponses : ∀ client, (s.clientResponses client).outSending = false

def Aborted (s : ShaderFrontendBlock) : Prop :=
  (∃ e, s.requestPc = .aborted e) ∨ ∃ e, s.responsePc = .aborted e

instance (s : ShaderFrontendBlock) : Decidable s.Aborted :=
  decidable_of_iff ((match s.requestPc with | .aborted _ => true | _ => false) = true ∨
    (match s.responsePc with | .aborted _ => true | _ => false) = true) (by
    unfold Aborted
    cases s.requestPc <;> cases s.responsePc <;> simp)

/-- In `getIsa`. -/
def awaiting (s : ShaderFrontendBlock) : Bool :=
  match s.requestPc with
  | .loadingIsa _ _ _ => true
  | _ => false

variable {s : ShaderFrontendBlock}

theorem tracked_new : new.Tracked := ⟨⟨rfl, fun _ => rfl⟩, fun _ => rfl⟩

theorem Tracked.idle (h : s.Tracked) (hbusy : s.outBusy = false) (hrunning : ¬ s.Aborted) :
    s.Idle := by
  obtain ⟨hrequest, hresponse⟩ := h
  rw [outBusy, Bool.or_eq_false_iff] at hbusy
  have hrequestPc : s.requestPc = .start := by
    unfold RequestTracked at hrequest
    cases hpc : s.requestPc with
    | start => rfl
    | aborted e => exact absurd (Or.inl ⟨e, hpc⟩) hrunning
    | receivingHeader | receivingRequest | loadingIsa | storingIsa | executingIsa | sendingInputs =>
      rw [hpc] at hrequest
      rw [hrequest.1] at hbusy
      cases hbusy.1
  have hresponsePc : s.responsePc = .start := by
    unfold ResponseTracked at hresponse
    cases hpc : s.responsePc with
    | start => rfl
    | aborted e => exact absurd (Or.inr ⟨e, hpc⟩) hrunning
    | receivingFirst | receivingOutputs | sendingHeader | sendingOutputs =>
      rw [hpc] at hresponse
      rw [hresponse.1] at hbusy
      cases hbusy.2
  unfold RequestTracked at hrequest
  unfold ResponseTracked at hresponse
  rw [hrequestPc] at hrequest
  rw [hresponsePc] at hresponse
  exact ⟨hrequestPc, hresponsePc, hrequest, hresponse⟩

/-! ### requestThread -/

/-- What `requestThread` does not touch. -/
structure SameResponse (s s' : ShaderFrontendBlock) : Prop where
  responsePc : s'.responsePc = s.responsePc
  clientResponses : s'.clientResponses = s.clientResponses
  responseThreadBusy : s'.responseThreadBusy = s.responseThreadBusy

/-- What a part of `requestThread` leaves behind at the next `wait()`. -/
structure RequestLeaves (s s' : ShaderFrontendBlock) : Prop where
  tracked : s'.RequestTracked
  accesses : s'.awaiting = s'.memory.enable
  same : SameResponse s s'

theorem SameResponse.tracked {s' : ShaderFrontendBlock} (h : SameResponse s s')
    (hs : s.ResponseTracked) : s'.ResponseTracked := by
  unfold ResponseTracked at hs ⊢
  rw [h.responsePc, h.clientResponses, h.responseThreadBusy]
  exact hs

theorem RequestLeaves.congr {s s' t : ShaderFrontendBlock} (h : RequestLeaves t s')
    (hsame : SameResponse s t) : RequestLeaves s s' where
  tracked := h.tracked
  accesses := h.accesses
  same := ⟨h.same.responsePc.trans hsame.responsePc,
    h.same.clientResponses.trans hsame.clientResponses,
    h.same.responseThreadBusy.trans hsame.responseThreadBusy⟩

theorem sendInputs_leaves (hbusy : s.requestThreadBusy = true) (hlow : s.RequestLow)
    (r : FrontendRequest) (index : Nat) : RequestLeaves s (s.sendInputs r index) := by
  unfold sendInputs
  split
  · refine ⟨⟨hbusy, hlow.enable, ?_⟩, hlow.enable.symm, rfl, rfl, rfl⟩
    apply low_update
    · intro other hne
      exact hlow.unitRequests other
    · exact hlow.unitRequests r.shaderUnitIndex
  · exact ⟨⟨hlow.enable, hlow.unitRequests⟩, hlow.enable.symm, rfl, rfl, rfl⟩

theorem executeIsa_leaves (hbusy : s.requestThreadBusy = true) (hlow : s.RequestLow)
    (r : FrontendRequest) : RequestLeaves s (s.executeIsa r) := by
  unfold executeIsa
  split
  · next call ports hsend =>
    refine ⟨⟨hbusy, hlow.enable, ?_⟩, hlow.enable.symm, rfl, rfl, rfl⟩
    apply sendsAt_update
    · intro other hne
      exact hlow.unitRequests other
    · exact sendArrayImpl_holds (hlow.unitRequests r.shaderUnitIndex) hsend
  · exact ⟨hlow.enable, hlow.enable.symm, rfl, rfl, rfl⟩

theorem storeCachedIsa_leaves (hbusy : s.requestThreadBusy = true) (hlow : s.RequestLow)
    (r : FrontendRequest) (slot : Fin 2) : RequestLeaves s (s.storeCachedIsa r slot) := by
  unfold storeCachedIsa
  split
  · exact ⟨hlow.enable, hlow.enable.symm, rfl, rfl, rfl⟩
  · dsimp only
    split
    · next call ports hsend =>
      refine ⟨⟨hbusy, hlow.enable, ?_⟩, hlow.enable.symm, rfl, rfl, rfl⟩
      apply sendsAt_update
      · intro other hne
        exact hlow.unitRequests other
      · exact sendArrayImpl_holds (hlow.unitRequests r.shaderUnitIndex) hsend
    · exact ⟨hlow.enable, hlow.enable.symm, rfl, rfl, rfl⟩

theorem loadDwords_leaves (hbusy : s.requestThreadBusy = true) (hlow : s.RequestLow)
    (r : FrontendRequest) (data : List Dword) (dwordsToLoad : Nat) :
    RequestLeaves s (s.loadDwords r data dwordsToLoad) := by
  unfold loadDwords
  split
  · split
    · exact ⟨hlow.enable, hlow.enable.symm, rfl, rfl, rfl⟩
    · exact ⟨⟨hbusy, hlow.unitRequests⟩, rfl, rfl, rfl, rfl⟩
  · dsimp only
    apply RequestLeaves.congr
    · apply storeCachedIsa_leaves
      · exact hbusy
      · exact ⟨hlow.enable, hlow.unitRequests⟩
    · exact ⟨rfl, rfl, rfl⟩

theorem loadedDword_leaves (hbusy : s.requestThreadBusy = true) (hlow : s.RequestLow)
    (r : FrontendRequest) (data : List Dword) (dword : Dword) (dwordsToLoad : Nat) :
    RequestLeaves s (s.loadedDword r data dword dwordsToLoad) := by
  unfold loadedDword
  dsimp only
  split
  · split
    · exact ⟨hlow.enable, hlow.enable.symm, rfl, rfl, rfl⟩
    · split
      · exact ⟨hlow.enable, hlow.enable.symm, rfl, rfl, rfl⟩
      · exact loadDwords_leaves hbusy hlow r _ _
  · exact loadDwords_leaves hbusy hlow r _ _

theorem getIsa_leaves (hbusy : s.requestThreadBusy = true) (hlow : s.RequestLow)
    (r : FrontendRequest) : RequestLeaves s (s.getIsa r) := by
  unfold getIsa
  split
  · exact executeIsa_leaves hbusy hlow r
  · split
    · apply RequestLeaves.congr
      · apply storeCachedIsa_leaves
        · exact hbusy
        · exact ⟨hlow.enable, hlow.unitRequests⟩
      · exact ⟨rfl, rfl, rfl⟩
    · exact loadDwords_leaves hbusy hlow r [] 1

theorem receiveRequest_leaves (hbusy : s.requestThreadBusy = true) (hlow : s.RequestLow)
    (clientIndex shaderUnitIndex : Nat) (received : List Dword) :
    RequestLeaves s (s.receiveRequest clientIndex shaderUnitIndex received) := by
  unfold receiveRequest
  dsimp only
  split
  · exact ⟨⟨hbusy, hlow.enable, hlow.unitRequests⟩, hlow.enable.symm, rfl, rfl, rfl⟩
  · exact getIsa_leaves hbusy hlow _

section
variable {clientsCount shaderUnitsCount : Nat} {inputs : ShaderFrontendInputs}

theorem start_leaves (hlow : s.RequestLow) (hpc : s.requestPc = .start) :
    RequestLeaves s (s.stepRequest clientsCount shaderUnitsCount inputs) := by
  unfold stepRequest
  rw [hpc]
  dsimp only
  split
  · split
    · exact ⟨⟨rfl, hlow.enable, hlow.unitRequests⟩, hlow.enable.symm, rfl, rfl, rfl⟩
    · exact ⟨hlow.enable, hlow.enable.symm, rfl, rfl, rfl⟩
  · exact ⟨⟨hlow.enable, hlow.unitRequests⟩, hlow.enable.symm, rfl, rfl, rfl⟩

theorem receivingHeader_leaves {clientIndex shaderUnitIndex : Nat} {call : ReceiveCall Dword}
    (hbusy : s.requestThreadBusy = true) (hlow : s.RequestLow)
    (hpc : s.requestPc = .receivingHeader clientIndex shaderUnitIndex call) :
    RequestLeaves s (s.stepRequest clientsCount shaderUnitsCount inputs) := by
  unfold stepRequest
  rw [hpc]
  dsimp only
  split
  · exact ⟨⟨hbusy, hlow.enable, hlow.unitRequests⟩, hlow.enable.symm, rfl, rfl, rfl⟩
  · apply RequestLeaves.congr
    · apply receiveRequest_leaves
      · exact hbusy
      · exact ⟨hlow.enable, hlow.unitRequests⟩
    · exact ⟨rfl, rfl, rfl⟩

theorem receivingRequest_leaves {clientIndex shaderUnitIndex : Nat} {received : List Dword}
    (hbusy : s.requestThreadBusy = true) (hlow : s.RequestLow)
    (hpc : s.requestPc = .receivingRequest clientIndex shaderUnitIndex received) :
    RequestLeaves s (s.stepRequest clientsCount shaderUnitsCount inputs) := by
  unfold stepRequest
  rw [hpc]
  exact receiveRequest_leaves hbusy hlow _ _ _

/-- The dword that was loaded has come. -/
theorem loadingIsa_leaves {r : FrontendRequest} {data : List Dword} {dwordsToLoad : Nat}
    (hbusy : s.requestThreadBusy = true)
    (hlow : ∀ unit, (s.unitRequests unit).outSending = false)
    (hpc : s.requestPc = .loadingIsa r data dwordsToLoad) (hcompleted : inputs.inpCompleted = true) :
    RequestLeaves s (s.stepRequest clientsCount shaderUnitsCount inputs) := by
  unfold stepRequest
  rw [hpc]
  dsimp only
  rw [if_pos hcompleted]
  apply RequestLeaves.congr
  · apply loadedDword_leaves
    · exact hbusy
    · exact ⟨rfl, hlow⟩
  · exact ⟨rfl, rfl, rfl⟩

theorem storingIsa_leaves {r : FrontendRequest} {data : List Dword} {call : SendCall}
    (hbusy : s.requestThreadBusy = true) (henable : s.memory.enable = false)
    (hsends : SendsAt s.unitRequests r.shaderUnitIndex call)
    (hpc : s.requestPc = .storingIsa r data call) :
    RequestLeaves s (s.stepRequest clientsCount shaderUnitsCount inputs) := by
  obtain ⟨hothers, hholds⟩ := hsends
  unfold stepRequest
  rw [hpc]
  dsimp only
  split
  · next hresume =>
    have hnext := SendCall.resume_some hholds hresume
    exact ⟨⟨hbusy, henable, sendsAt_update hothers hnext⟩, henable.symm, rfl, rfl, rfl⟩
  · next hresume =>
    have hnext := SendCall.resume_none hholds hresume
    apply RequestLeaves.congr
    · apply executeIsa_leaves
      · exact hbusy
      · exact ⟨henable, low_update hothers hnext⟩
    · exact ⟨rfl, rfl, rfl⟩

theorem executingIsa_leaves {r : FrontendRequest} {call : SendCall}
    (hbusy : s.requestThreadBusy = true) (henable : s.memory.enable = false)
    (hsends : SendsAt s.unitRequests r.shaderUnitIndex call)
    (hpc : s.requestPc = .executingIsa r call) :
    RequestLeaves s (s.stepRequest clientsCount shaderUnitsCount inputs) := by
  obtain ⟨hothers, hholds⟩ := hsends
  unfold stepRequest
  rw [hpc]
  dsimp only
  split
  · next hresume =>
    have hnext := SendCall.resume_some hholds hresume
    exact ⟨⟨hbusy, henable, sendsAt_update hothers hnext⟩, henable.symm, rfl, rfl, rfl⟩
  · next hresume =>
    have hnext := SendCall.resume_none hholds hresume
    apply RequestLeaves.congr
    · apply sendInputs_leaves
      · exact hbusy
      · exact ⟨henable, low_update hothers hnext⟩
    · exact ⟨rfl, rfl, rfl⟩

theorem sendingInputs_leaves {r : FrontendRequest} {index : Nat}
    (hbusy : s.requestThreadBusy = true) (hlow : s.RequestLow)
    (hpc : s.requestPc = .sendingInputs r index) :
    RequestLeaves s (s.stepRequest clientsCount shaderUnitsCount inputs) := by
  unfold stepRequest
  rw [hpc]
  exact sendInputs_leaves hbusy hlow r _

end

theorem RequestLeaves.obeys {s' : ShaderFrontendBlock} (h : RequestLeaves s s')
    {inpCompleted awaiting : Bool} (hawaiting : (awaiting && !inpCompleted) = false) :
    s'.RequestTracked ∧ Obeys inpCompleted awaiting s'.awaiting s'.memory.enable ∧
      SameResponse s s' := by
  refine ⟨h.tracked, ?_, h.same⟩
  rw [Obeys, hawaiting]
  exact h.accesses

theorem stepRequest_spec (h : s.RequestTracked) (clientsCount shaderUnitsCount : Nat)
    (inputs : ShaderFrontendInputs) :
    (s.stepRequest clientsCount shaderUnitsCount inputs).RequestTracked ∧
    Obeys inputs.inpCompleted s.awaiting
      (s.stepRequest clientsCount shaderUnitsCount inputs).awaiting
      (s.stepRequest clientsCount shaderUnitsCount inputs).memory.enable ∧
    SameResponse s (s.stepRequest clientsCount shaderUnitsCount inputs) := by
  have htracked := h
  unfold RequestTracked at h
  cases hpc : s.requestPc with
  | start =>
    rw [hpc] at h
    have hfree : (s.awaiting && !inputs.inpCompleted) = false := by rw [awaiting, hpc]; rfl
    exact (start_leaves h hpc).obeys hfree
  | receivingHeader clientIndex shaderUnitIndex call =>
    rw [hpc] at h
    have hfree : (s.awaiting && !inputs.inpCompleted) = false := by rw [awaiting, hpc]; rfl
    exact (receivingHeader_leaves h.1 h.2 hpc).obeys hfree
  | receivingRequest clientIndex shaderUnitIndex received =>
    rw [hpc] at h
    have hfree : (s.awaiting && !inputs.inpCompleted) = false := by rw [awaiting, hpc]; rfl
    exact (receivingRequest_leaves h.1 h.2 hpc).obeys hfree
  | loadingIsa r data dwordsToLoad =>
    rw [hpc] at h
    have hwaits : s.awaiting = true := by rw [awaiting, hpc]
    cases hcompleted : inputs.inpCompleted with
    | false =>
      unfold stepRequest
      rw [hpc, hwaits]
      dsimp only
      rw [hcompleted, if_neg (by decide)]
      exact ⟨⟨h.1, h.2⟩, ⟨rfl, rfl⟩, rfl, rfl, rfl⟩
    | true =>
      apply (loadingIsa_leaves h.1 h.2 hpc hcompleted).obeys
      exact Bool.and_false _
  | storingIsa r data call =>
    rw [hpc] at h
    have hfree : (s.awaiting && !inputs.inpCompleted) = false := by rw [awaiting, hpc]; rfl
    exact (storingIsa_leaves h.1 h.2.1 h.2.2 hpc).obeys hfree
  | executingIsa r call =>
    rw [hpc] at h
    have hfree : (s.awaiting && !inputs.inpCompleted) = false := by rw [awaiting, hpc]; rfl
    exact (executingIsa_leaves h.1 h.2.1 h.2.2 hpc).obeys hfree
  | sendingInputs r index =>
    rw [hpc] at h
    have hfree : (s.awaiting && !inputs.inpCompleted) = false := by rw [awaiting, hpc]; rfl
    exact (sendingInputs_leaves h.1 h.2 hpc).obeys hfree
  | aborted e =>
    rw [hpc] at h
    have hfree : s.awaiting = false := by rw [awaiting, hpc]
    unfold stepRequest
    rw [hpc]
    exact ⟨htracked, obeys_free hfree (hfree.trans h.symm), rfl, rfl, rfl⟩

/-! ### responseThread -/

/-- What `responseThread` does not touch. -/
structure SameRequest (s s' : ShaderFrontendBlock) : Prop where
  requestPc : s'.requestPc = s.requestPc
  memory : s'.memory = s.memory
  unitRequests : s'.unitRequests = s.unitRequests
  requestThreadBusy : s'.requestThreadBusy = s.requestThreadBusy

/-- What a part of `responseThread` leaves behind at the next `wait()`. -/
structure ResponseLeaves (s s' : ShaderFrontendBlock) : Prop where
  tracked : s'.ResponseTracked
  same : SameRequest s s'

theorem SameRequest.tracked {s' : ShaderFrontendBlock} (h : SameRequest s s')
    (hs : s.RequestTracked) : s'.RequestTracked := by
  have hlow : s.RequestLow → s'.RequestLow := by
    rintro ⟨henable, hrequests⟩
    exact ⟨by rw [h.memory]; exact henable, by rw [h.unitRequests]; exact hrequests⟩
  unfold RequestTracked at hs ⊢
  rw [h.requestPc, h.memory, h.unitRequests, h.requestThreadBusy]
  cases hpc : s.requestPc with
  | start =>
    rw [hpc] at hs
    exact hlow hs
  | receivingHeader | receivingRequest | sendingInputs =>
    rw [hpc] at hs
    exact ⟨hs.1, hlow hs.2⟩
  | loadingIsa | storingIsa | executingIsa | aborted =>
    rw [hpc] at hs
    exact hs

theorem SameRequest.awaiting {s' : ShaderFrontendBlock} (h : SameRequest s s') :
    s'.awaiting = s.awaiting := by
  unfold ShaderFrontendBlock.awaiting
  rw [h.requestPc]

theorem sendOutputs_leaves (hbusy : s.responseThreadBusy = true)
    (hlow : ∀ client, (s.clientResponses client).outSending = false) (clientIndex : Nat)
    (shaderOutputs : List Dword) (index : Nat) :
    ResponseLeaves s (s.sendOutputs clientIndex shaderOutputs index) := by
  unfold sendOutputs
  split
  · refine ⟨⟨hbusy, ?_⟩, rfl, rfl, rfl, rfl⟩
    apply low_update
    · intro other hne
      exact hlow other
    · exact hlow clientIndex
  · exact ⟨hlow, rfl, rfl, rfl, rfl⟩

theorem receiveOutputs_leaves (hbusy : s.responseThreadBusy = true)
    (hlow : ∀ client, (s.clientResponses client).outSending = false)
    (shaderUnitIndex clientIndex : Nat) (shaderOutputs : List Dword) :
    ResponseLeaves s (s.receiveOutputs shaderUnitIndex clientIndex shaderOutputs) := by
  unfold receiveOutputs
  dsimp only
  split
  · exact ⟨⟨hbusy, hlow⟩, rfl, rfl, rfl, rfl⟩
  · split
    · next call ports hsend =>
      refine ⟨⟨hbusy, ?_⟩, rfl, rfl, rfl, rfl⟩
      apply sendsAt_update
      · intro other hne
        exact hlow other
      · exact sendArrayImpl_holds (hlow clientIndex) hsend
    · exact ⟨trivial, rfl, rfl, rfl, rfl⟩

theorem stepResponse_leaves (h : s.ResponseTracked) (shaderUnitsCount : Nat)
    (inputs : ShaderFrontendInputs) : ResponseLeaves s (s.stepResponse shaderUnitsCount inputs) := by
  have htracked := h
  unfold ResponseTracked at h
  unfold stepResponse
  cases hpc : s.responsePc with
  | start =>
    rw [hpc] at h
    dsimp only
    split
    · exact ⟨h, rfl, rfl, rfl, rfl⟩
    · split
      · split
        · exact ⟨⟨rfl, h⟩, rfl, rfl, rfl, rfl⟩
        · exact ⟨trivial, rfl, rfl, rfl, rfl⟩
      · exact ⟨trivial, rfl, rfl, rfl, rfl⟩
  | receivingFirst shaderUnitIndex clientIndex header call =>
    rw [hpc] at h
    dsimp only
    split
    · exact ⟨h, rfl, rfl, rfl, rfl⟩
    · next ports _ =>
      obtain ⟨hnext, hpc', hmemory, hrequests, hbusy⟩ := @receiveOutputs_leaves
        { s with unitResponses := Function.update s.unitResponses shaderUnitIndex ports } h.1 h.2
        shaderUnitIndex clientIndex (header :: _)
      exact ⟨hnext, hpc', hmemory, hrequests, hbusy⟩
  | receivingOutputs shaderUnitIndex clientIndex shaderOutputs =>
    rw [hpc] at h
    exact receiveOutputs_leaves h.1 h.2 _ _ _
  | sendingHeader clientIndex shaderOutputs call =>
    rw [hpc] at h
    obtain ⟨hbusy, hothers, hholds⟩ := h
    dsimp only
    split
    · next hresume =>
      have hnext := SendCall.resume_some hholds hresume
      exact ⟨⟨hbusy, sendsAt_update hothers hnext⟩, rfl, rfl, rfl, rfl⟩
    · next ports hresume =>
      have hlow := low_update hothers (SendCall.resume_none hholds hresume)
      obtain ⟨hnext, hpc', hmemory, hrequests, hbusy'⟩ := @sendOutputs_leaves
        { s with clientResponses := Function.update s.clientResponses clientIndex ports } hbusy hlow
        clientIndex shaderOutputs 1
      exact ⟨hnext, hpc', hmemory, hrequests, hbusy'⟩
  | sendingOutputs clientIndex shaderOutputs index =>
    rw [hpc] at h
    exact sendOutputs_leaves h.1 h.2 _ _ _
  | aborted e => exact ⟨htracked, rfl, rfl, rfl, rfl⟩

/-! ### Both threads -/

theorem step_spec (h : s.Tracked) (clientsCount shaderUnitsCount : Nat) (responseFirst : Bool)
    (inputs : ShaderFrontendInputs) :
    (s.step clientsCount shaderUnitsCount responseFirst inputs).Tracked ∧
    Obeys inputs.inpCompleted s.awaiting
      (s.step clientsCount shaderUnitsCount responseFirst inputs).awaiting
      (s.step clientsCount shaderUnitsCount responseFirst inputs).memory.enable := by
  obtain ⟨hrequest, hresponse⟩ := h
  unfold step
  cases responseFirst with
  | true =>
    rw [if_pos rfl]
    obtain ⟨hresponse', hsame⟩ := stepResponse_leaves hresponse shaderUnitsCount inputs
    obtain ⟨hrequest', hobeys, hsame'⟩ := stepRequest_spec (hsame.tracked hrequest) clientsCount
      shaderUnitsCount inputs
    rw [hsame.awaiting] at hobeys
    exact ⟨⟨hrequest', hsame'.tracked hresponse'⟩, hobeys⟩
  | false =>
    rw [if_neg (by decide)]
    obtain ⟨hrequest', hobeys, hsame⟩ := stepRequest_spec hrequest clientsCount shaderUnitsCount
      inputs
    obtain ⟨hresponse', hsame'⟩ :=
      stepResponse_leaves (hsame.tracked hresponse) shaderUnitsCount inputs
    rw [← hsame'.awaiting, ← hsame'.memory] at hobeys
    exact ⟨⟨hsame'.tracked hrequest', hresponse'⟩, hobeys⟩

theorem Aborted.step (haborted : s.Aborted) (h : s.Tracked) (clientsCount shaderUnitsCount : Nat)
    (responseFirst : Bool) (inputs : ShaderFrontendInputs) :
    (s.step clientsCount shaderUnitsCount responseFirst inputs).Aborted := by
  obtain ⟨hrequest, hresponse⟩ := h
  have hstays : ∀ {s' : ShaderFrontendBlock} {e : FatalError}, s'.requestPc = .aborted e →
      s'.stepRequest clientsCount shaderUnitsCount inputs = s' := by
    intro s' e hpc
    unfold stepRequest
    rw [hpc]
  have hstays' : ∀ {s' : ShaderFrontendBlock} {e : FatalError}, s'.responsePc = .aborted e →
      s'.stepResponse shaderUnitsCount inputs = s' := by
    intro s' e hpc
    unfold stepResponse
    rw [hpc]
  unfold ShaderFrontendBlock.step
  cases responseFirst with
  | true =>
    rw [if_pos rfl]
    obtain ⟨hresponse', hsame⟩ := stepResponse_leaves hresponse shaderUnitsCount inputs
    obtain ⟨-, -, hsame'⟩ := stepRequest_spec (hsame.tracked hrequest) clientsCount
      shaderUnitsCount inputs
    rcases haborted with ⟨e, hpc⟩ | ⟨e, hpc⟩
    · have hpc' := hsame.requestPc.trans hpc
      rw [hstays hpc']
      exact Or.inl ⟨e, hpc'⟩
    · rw [hstays' hpc] at hsame' ⊢
      exact Or.inr ⟨e, hsame'.responsePc.trans hpc⟩
  | false =>
    rw [if_neg (by decide)]
    obtain ⟨-, -, hsame⟩ := stepRequest_spec hrequest clientsCount shaderUnitsCount inputs
    obtain ⟨-, hsame'⟩ := stepResponse_leaves (hsame.tracked hresponse) shaderUnitsCount inputs
    rcases haborted with ⟨e, hpc⟩ | ⟨e, hpc⟩
    · rw [hstays hpc] at hsame' ⊢
      exact Or.inl ⟨e, hsame'.requestPc.trans hpc⟩
    · have hpc' := hsame.responsePc.trans hpc
      rw [hstays' hpc']
      exact Or.inr ⟨e, hpc'⟩

theorem find_none {count : Nat} {sending : Nat → Bool} (h : ∀ k, sending k = false) :
    (List.range count).find? (fun k => sending k) = none := by
  rw [List.find?_eq_none]
  intro k _
  rw [h k]
  decide

theorem Idle.awaiting (h : s.Idle) : s.awaiting = false := by
  rw [ShaderFrontendBlock.awaiting, h.requestPc]

theorem Idle.stepRequest (h : s.Idle) (clientsCount shaderUnitsCount : Nat)
    {inputs : ShaderFrontendInputs} (hsending : ∀ client, inputs.clientSending client = false) :
    (s.stepRequest clientsCount shaderUnitsCount inputs).Idle := by
  have hfind : findClientMakingRequest clientsCount inputs = none := find_none hsending
  unfold ShaderFrontendBlock.stepRequest
  rw [h.requestPc, hfind]
  exact ⟨rfl, h.responsePc, ⟨h.request.enable, h.request.unitRequests⟩, h.clientResponses⟩

theorem Idle.stepResponse (h : s.Idle) (shaderUnitsCount : Nat)
    {inputs : ShaderFrontendInputs} (hsending : ∀ unit, inputs.unitSending unit = false) :
    (s.stepResponse shaderUnitsCount inputs).Idle := by
  have hfind : findShaderUnitSendingResponse shaderUnitsCount inputs = none := find_none hsending
  unfold ShaderFrontendBlock.stepResponse
  rw [h.responsePc, hfind]
  exact ⟨h.requestPc, rfl, ⟨h.request.enable, h.request.unitRequests⟩, h.clientResponses⟩

theorem Idle.step (h : s.Idle) (clientsCount shaderUnitsCount : Nat) (responseFirst : Bool)
    {inputs : ShaderFrontendInputs} (hclients : ∀ client, inputs.clientSending client = false)
    (hunits : ∀ unit, inputs.unitSending unit = false) :
    (s.step clientsCount shaderUnitsCount responseFirst inputs).Idle := by
  unfold ShaderFrontendBlock.step
  split
  · exact (h.stepResponse shaderUnitsCount hunits).stepRequest clientsCount shaderUnitsCount hclients
  · exact (h.stepRequest clientsCount shaderUnitsCount hclients).stepResponse shaderUnitsCount hunits

end ShaderFrontendBlock

end PicoGpu
