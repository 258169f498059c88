import PicoGpu.ShaderArray
import PicoGpu.Transfer

/- The block `ShaderUnit`, cut at the `wait()`s of `main` and of what it calls.

   Correspondence (shader_unit.cpp ↔ here):
     the `wait()` that `main` is in                 ↔ `ShaderUnitPc`
     the calls of `Transfer` for the inputs         ↔ `inputCounts`
     what lies between two `wait()`s of a command   ↔ `storeIsa`, `receiveInputs`,
                                                      `executeInstructions`
   What a command computes is what `processStoreIsaCommand` and `processExecuteIsaCommand`
   say. The counters of `profiling` are left out. -/
namespace PicoGpu

/-- `stream` are the dwords received for the inputs, `counts` the lengths of the arrays
    that come behind the one that is being received. -/
inductive ShaderUnitPc where
  | receivingCommand (args : ReceiveArgs) (call : ReceiveCall Dword)
  | storingIsa (data : List Dword)
  | receivingInputs (threadCount : BitVec 5) (count : Nat) (counts : List Nat)
      (stream : List Dword) (call : ReceiveCall Dword)
  | executing (threadCount : BitVec 5)
  | sendingOutputs (outputStream : List Dword) (call : SendCall)
  | aborted (error : FatalError)

structure ShaderUnitBlock where
  pc : ShaderUnitPc
  unit : ShaderUnit Dword
  handshakeAlreadyEstablished : Bool
  request : ReceivePorts
  response : SendPorts Dword

/-- `CommandDummy` and the thread count of `CommandExecuteIsa`. -/
structure CommandHeader where
  commandType : CommandType
  hasNextCommand : Bool
  threadCount : BitVec 5

def CommandHeader.ofRaw (raw : Dword) : CommandHeader :=
  let field := fun k => (BitFields.unpack [1, 1, 5] raw.toNat).getD k 0
  { commandType := .ofValue (field 0)
    hasNextCommand := field 1 = 1
    threadCount := BitVec.ofNat 5 (field 2) }

namespace ShaderUnitBlock

def outBusy (s : ShaderUnitBlock) : Bool := s.request.outBusinessSignal

def commandArgs (handshakeAlreadyEstablished : Bool) : ReceiveArgs where
  dataPortsCount := 1
  dataToReceiveCount := Isa.commandSizeInDwords
  outBusinessSignal := true
  timeout := none
  performHandshake := !handshakeAlreadyEstablished

def inputsArgs (count : Nat) : ReceiveArgs where
  dataPortsCount := 1
  dataToReceiveCount := count
  outBusinessSignal := false
  timeout := none
  performHandshake := false

def outputsArgs (outputStream : List Dword) : SendArgs Dword where
  dataToSend := outputStream
  dataPortsCount := 1
  performHandshake := true

/-- The loop of `main` has no `wait()` of its own: at the first clock it is in the one of
    `receiveArray`. -/
def new (unit : ShaderUnit Dword) : ShaderUnitBlock where
  pc := .receivingCommand (commandArgs false) (.acknowledge 1)
  unit := unit
  handshakeAlreadyEstablished := false
  request := ⟨true, false⟩
  response := ⟨false, fun _ => 0⟩

/-- From the head of the loop of `main`. -/
def receiveCommand (s : ShaderUnitBlock) : ShaderUnitBlock :=
  let args := commandArgs s.handshakeAlreadyEstablished
  match receiveArrayImpl args s.request with
  | .ok (call, ports) => { s with pc := .receivingCommand args call, request := ports }
  | .error e => { s with pc := .aborted e }

/-- The loop of `processStoreIsaCommand`, from its test on; `data` begins with the command. -/
def storeIsa (data : List Dword) (s : ShaderUnitBlock) : ShaderUnitBlock :=
  let command := CommandStoreIsa.ofRaw fun k => data.getD k 0
  if data.length < Isa.commandSizeInDwords + command.programLength.toNat then
    { s with pc := .storingIsa data }
  else { s with unit := s.unit.processStoreIsaCommand data }.receiveCommand

/-- The lengths of the arrays that `initializeInputRegisters` receives. -/
def inputCounts (threadCount : Nat) (unit : ShaderUnit Dword) : Except FatalError (Nat × List Nat) :=
  do
  let inputTotalComponentCount := ((← unit.inputRegisters).map Prod.snd).sum
  let uniformsTotalComponentCount ← unit.uniformsTotalComponentCount
  let uniforms := if uniformsTotalComponentCount ≠ 0 then [uniformsTotalComponentCount] else []
  if unit.isFs then
    return (threadCount * 2, uniforms ++ [verticesInPrimitive * inputTotalComponentCount])
  else return (threadCount * inputTotalComponentCount, uniforms)

/-- `appendOutputRegistersValues` and the call behind it. -/
def sendOutputs (threadCount : BitVec 5) (s : ShaderUnitBlock) : ShaderUnitBlock :=
  match s.unit.appendOutputRegistersValues (nonZeroCountToInt threadCount) with
  | .error e => { s with pc := .aborted e }
  | .ok outputStream =>
    match sendArrayImpl (outputsArgs outputStream) s.response with
    | .ok (call, ports) => { s with pc := .sendingOutputs outputStream call, response := ports }
    | .error e => { s with pc := .aborted e }

/-- The loop of `executeInstructions`, from its test on. -/
def executeInstructions (alu : Alu Dword) (threadCount : BitVec 5) (s : ShaderUnitBlock) :
    ShaderUnitBlock :=
  if s.unit.pc < s.unit.isaMetadata.programLength.toNat then
    match s.unit.executeInstruction alu (nonZeroCountToInt threadCount) with
    | .ok unit => { s with pc := .executing threadCount, unit := unit }
    | .error e => { s with pc := .aborted e }
  else s.sendOutputs threadCount

/-- The next array of inputs, or the program behind the last one. -/
def receiveInputs (alu : Alu Dword) (threadCount : BitVec 5) (stream : List Dword) :
    List Nat → ShaderUnitBlock → ShaderUnitBlock
  | count :: counts, s =>
    match receiveArrayImpl (inputsArgs count) s.request with
    | .ok (call, ports) =>
      { s with pc := .receivingInputs threadCount count counts stream call, request := ports }
    | .error e => { s with pc := .aborted e }
  | [], s =>
    match (s.unit.clearRegisters alu).initializeInputRegisters alu (nonZeroCountToInt threadCount)
      fun k => stream.getD k 0 with
    | .ok unit => { s with unit := unit }.executeInstructions alu threadCount
    | .error e => { s with pc := .aborted e }

/-- The switch of `main`. -/
def process (alu : Alu Dword) (command : List Dword) (s : ShaderUnitBlock) : ShaderUnitBlock :=
  let header := CommandHeader.ofRaw (command.headD 0)
  let s := { s with handshakeAlreadyEstablished := header.hasNextCommand }
  match header.commandType with
  | .executeIsa =>
    match inputCounts (nonZeroCountToInt header.threadCount) s.unit with
    | .ok (count, counts) => s.receiveInputs alu header.threadCount [] (count :: counts)
    | .error e => { s with pc := .aborted e }
  | .storeIsa => s.storeIsa command

def step (alu : Alu Dword) (inpSending : Bool) (inpData : Dword) (inpReceiving : Bool)
    (s : ShaderUnitBlock) : ShaderUnitBlock :=
  match s.pc with
  | .receivingCommand args call =>
    match call.resume args inpSending (fun _ => inpData) s.request with
    | (.suspended call, ports) => { s with pc := .receivingCommand args call, request := ports }
    | (.returned _ command, ports) => { s with request := ports }.process alu command
  | .storingIsa data => s.storeIsa (data ++ [inpData])
  | .receivingInputs threadCount count counts stream call =>
    match call.resume (inputsArgs count) inpSending (fun _ => inpData) s.request with
    | (.suspended call, ports) =>
      { s with pc := .receivingInputs threadCount count counts stream call, request := ports }
    | (.returned _ received, ports) =>
      { s with request := ports }.receiveInputs alu threadCount (stream ++ received) counts
  | .executing threadCount => s.executeInstructions alu threadCount
  | .sendingOutputs outputStream call =>
    match call.resume (outputsArgs outputStream) inpReceiving s.response with
    | (some call, ports) => { s with pc := .sendingOutputs outputStream call, response := ports }
    | (none, ports) => { s with response := ports }.receiveCommand
  | .aborted _ => s

/-! ## Between two clocks -/

def Aborted (s : ShaderUnitBlock) : Prop := ∃ e, s.pc = .aborted e

instance (s : ShaderUnitBlock) : Decidable s.Aborted :=
  decidable_of_iff ((match s.pc with | .aborted _ => true | _ => false) = true) (by
    unfold Aborted
    cases s.pc <;> simp)

/-- Waiting for a command, and nothing is offered. -/
structure Idle (s : ShaderUnitBlock) : Prop where
  pc : ∃ args call, s.pc = .receivingCommand args call ∧ call.AtHandshake ∧
    args.outBusinessSignal = true ∧ args.timeout = none
  response : s.response.outSending = false

/-- On a command, behind its header. -/
structure Working (s : ShaderUnitBlock) : Prop where
  receiving : s.request.outReceiving = false
  busy : s.outBusy = true
  response : s.response.outSending = false

/-- The unit is busy from the clock of a command until it waits for the next one. -/
def Tracked (s : ShaderUnitBlock) : Prop :=
  match s.pc with
  | .receivingCommand args call => args.outBusinessSignal = true ∧ args.timeout = none ∧
      call.Holds s.request ∧ s.response.outSending = false
  | .storingIsa _ | .executing _ => s.Working
  | .receivingInputs _ _ _ _ call => s.Working ∧ ¬ call.AtHandshake
  | .sendingOutputs _ call =>
    s.request.outReceiving = false ∧ s.outBusy = true ∧ call.Holds s.response
  | .aborted _ => True

variable {s : ShaderUnitBlock} {alu : Alu Dword}

theorem tracked_new (unit : ShaderUnit Dword) : (new unit).Tracked := ⟨rfl, rfl, rfl, rfl⟩

theorem Aborted.tracked (h : s.Aborted) : s.Tracked := by
  obtain ⟨e, hpc⟩ := h
  unfold Tracked
  rw [hpc]
  trivial

theorem Aborted.step (h : s.Aborted) (alu : Alu Dword) (inpSending : Bool) (inpData : Dword)
    (inpReceiving : Bool) : (s.step alu inpSending inpData inpReceiving).Aborted := by
  obtain ⟨e, hpc⟩ := h
  unfold ShaderUnitBlock.step
  rw [hpc]
  exact ⟨e, hpc⟩

theorem Tracked.idle (h : s.Tracked) (hbusy : s.outBusy = false) (hrunning : ¬ s.Aborted) :
    s.Idle := by
  unfold Tracked at h
  cases hpc : s.pc with
  | receivingCommand args call =>
    rw [hpc] at h
    obtain ⟨hbusiness, htimeout, hholds, hresponse⟩ := h
    refine ⟨⟨args, call, hpc, ?_, hbusiness, htimeout⟩, hresponse⟩
    cases call with
    | acknowledge clocksWaiting => trivial
    | stalled clocksWaiting => trivial
    | package dataReceived packagesReceived =>
      rw [outBusy, hholds.2] at hbusy
      cases hbusy
  | aborted e => exact absurd ⟨e, hpc⟩ hrunning
  | storingIsa data =>
    rw [hpc] at h
    rw [h.busy] at hbusy
    cases hbusy
  | receivingInputs threadCount count counts stream call =>
    rw [hpc] at h
    rw [h.1.busy] at hbusy
    cases hbusy
  | executing threadCount =>
    rw [hpc] at h
    rw [h.busy] at hbusy
    cases hbusy
  | sendingOutputs outputStream call =>
    rw [hpc] at h
    rw [h.2.1] at hbusy
    cases hbusy

/-! ### What the parts of a command leave behind -/

theorem receiveCommand_tracked (h : s.Working) : s.receiveCommand.Tracked := by
  unfold receiveCommand
  dsimp only
  split
  · next hcall => exact ⟨rfl, rfl, receiveArrayImpl_holds h.receiving h.busy hcall, h.response⟩
  · trivial

theorem storeIsa_tracked (h : s.Working) (data : List Dword) : (s.storeIsa data).Tracked := by
  unfold storeIsa
  dsimp only
  split
  · exact ⟨h.receiving, h.busy, h.response⟩
  · exact receiveCommand_tracked ⟨h.receiving, h.busy, h.response⟩

theorem sendOutputs_tracked (h : s.Working) (threadCount : BitVec 5) :
    (s.sendOutputs threadCount).Tracked := by
  unfold sendOutputs
  split
  · trivial
  · split
    · next hsend => exact ⟨h.receiving, h.busy, sendArrayImpl_holds h.response hsend⟩
    · trivial

theorem executeInstructions_tracked (h : s.Working) (threadCount : BitVec 5) :
    (s.executeInstructions alu threadCount).Tracked := by
  unfold executeInstructions
  split
  · split
    · exact ⟨h.receiving, h.busy, h.response⟩
    · trivial
  · exact sendOutputs_tracked h threadCount

theorem receiveInputs_tracked (h : s.Working) (threadCount : BitVec 5) (stream : List Dword)
    (counts : List Nat) : (receiveInputs alu threadCount stream counts s).Tracked := by
  cases counts with
  | cons count counts =>
    rw [receiveInputs]
    split
    · next call ports hcall =>
      obtain ⟨hpackage, rfl⟩ := receiveArrayImpl_package rfl hcall
      exact ⟨⟨h.receiving, h.busy, h.response⟩, hpackage⟩
    · trivial
  | nil =>
    rw [receiveInputs]
    split
    · apply executeInstructions_tracked
      exact ⟨h.receiving, h.busy, h.response⟩
    · trivial

theorem process_tracked (h : s.Working) (command : List Dword) :
    (s.process alu command).Tracked := by
  have hworking : ({ s with
      handshakeAlreadyEstablished := (CommandHeader.ofRaw (command.headD 0)).hasNextCommand } :
      ShaderUnitBlock).Working := ⟨h.receiving, h.busy, h.response⟩
  unfold process
  dsimp only
  split
  · split
    · exact receiveInputs_tracked hworking _ _ _
    · trivial
  · exact storeIsa_tracked hworking command

theorem tracked_step (h : s.Tracked) (alu : Alu Dword) (inpSending : Bool) (inpData : Dword)
    (inpReceiving : Bool) : (s.step alu inpSending inpData inpReceiving).Tracked := by
  have htracked := h
  unfold Tracked at h
  unfold step
  cases hpc : s.pc with
  | receivingCommand args call =>
    rw [hpc] at h
    obtain ⟨hbusiness, htimeout, hholds, hresponse⟩ := h
    dsimp only
    split
    · next hresume =>
      exact ⟨hbusiness, htimeout, ReceiveCall.resume_holds hbusiness htimeout hholds hresume,
        hresponse⟩
    · next ports hresume =>
      have hports := ReceiveCall.resume_holds hbusiness htimeout hholds hresume
      exact @process_tracked { s with request := ports } alu ⟨hports.1, hports.2, hresponse⟩ _
  | storingIsa data =>
    rw [hpc] at h
    exact storeIsa_tracked h _
  | receivingInputs threadCount count counts stream call =>
    rw [hpc] at h
    obtain ⟨hworking, hcall⟩ := h
    dsimp only
    split
    · next hresume =>
      obtain ⟨rfl, hnext⟩ := ReceiveCall.resume_package hcall hresume
      exact ⟨⟨hworking.receiving, hworking.busy, hworking.response⟩, hnext _ rfl⟩
    · next hresume =>
      obtain ⟨rfl, -⟩ := ReceiveCall.resume_package hcall hresume
      apply receiveInputs_tracked
      exact ⟨hworking.receiving, hworking.busy, hworking.response⟩
  | executing threadCount =>
    rw [hpc] at h
    exact executeInstructions_tracked h threadCount
  | sendingOutputs outputStream call =>
    rw [hpc] at h
    obtain ⟨hreceiving, hbusy, hholds⟩ := h
    dsimp only
    split
    · next hresume => exact ⟨hreceiving, hbusy, SendCall.resume_some hholds hresume⟩
    · next hresume =>
      exact receiveCommand_tracked ⟨hreceiving, hbusy, SendCall.resume_none hholds hresume⟩
  | aborted e => exact htracked

theorem Idle.step (h : s.Idle) (alu : Alu Dword) (inpData : Dword) (inpReceiving : Bool) :
    (s.step alu false inpData inpReceiving).Idle := by
  obtain ⟨⟨args, call, hpc, hcall, hbusiness, htimeout⟩, hresponse⟩ := h
  obtain ⟨clocks, hresume⟩ :=
    @ReceiveCall.resume_silent _ args htimeout (fun _ => inpData) s.request call hcall
  unfold ShaderUnitBlock.step
  rw [hpc]
  dsimp only
  rw [hresume]
  exact ⟨⟨args, _, rfl, trivial, hbusiness, htimeout⟩, hresponse⟩

end ShaderUnitBlock

end PicoGpu
