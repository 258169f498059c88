import PicoGpu.IsaCache
import PicoGpu.ShaderUnitCommands

/- The block `ShaderFrontend` between its clients and its shader units. Its two
   threads, the clients and the units take their steps in any order; a step is what
   lies between two points where the block waits for another one, and what is
   received in it arrives as it was sent. A step that cannot be taken yet leaves the
   state as it is, and `FATAL_ERROR` ends the run. -/
namespace PicoGpu

/-! ## Messages -/

/-- What a client sends: a request with an aligned address, and its inputs. -/
structure RequestMessage where
  request : ShaderFrontendRequest
  inputs : List Dword
  inputs_length : inputs.length = calculateShaderInputsCount request
  aligned : request.isaAddress.toNat % 4 = 0

/-- `CommandExecuteIsa` and the inputs behind it. -/
structure ExecuteIsaMessage where
  threadCount : BitVec 5
  shaderInputs : List Dword

/-- `executeIsa` -/
def RequestMessage.executeIsa (m : RequestMessage) : ExecuteIsaMessage :=
  ⟨m.request.threadCount, m.inputs⟩

/-- What the unit reads clock by clock: the data port keeps the last input. -/
def ExecuteIsaMessage.stream (command : ExecuteIsaMessage) (k : Nat) : Dword :=
  command.shaderInputs.getD k (command.shaderInputs.getLastD 0)

/-- `ShaderFrontendResponse` -/
def responseHeader (clientToken : BitVec 16) : Dword := clientToken.setWidth 32

/-! ## State -/

/-- Where `ShaderUnit::main` is. -/
inductive ShaderUnitPhase where
  | receiving (handshakeAlreadyEstablished : Bool)
  | running (command : ExecuteIsaMessage)
  | sending (outputStream : List Dword)

structure ShaderUnitPort where
  unit : ShaderUnit Dword
  phase : ShaderUnitPhase

/-- `ShaderUnitState::request`, what the frontend knows about a unit. -/
structure ShaderUnitState where
  isActive : Bool
  clientIndex : Nat
  clientToken : BitVec 16
  outputsCount : Nat

/-- Where `requestThread` is with the client and the unit it has found. -/
inductive RequestStage where
  | receiving
  | loading (m : RequestMessage)
  | storing (m : RequestMessage) (data : List Dword)
  | executing (m : RequestMessage)
  | marking (m : RequestMessage)

inductive RequestThread where
  | waiting
  | handling (clientIndex shaderUnitIndex : Nat) (stage : RequestStage)

inductive ResponseThread where
  | waiting
  | reading (shaderUnitIndex clientIndex : Nat) (header : Dword)
  | forwarding (clientIndex : Nat) (shaderOutputs : List Dword)

/-- The frontend, its clients and its units. Only the last two fields are not in the
    source: the requests that were received, and the responses that clients got. -/
structure ShaderArray where
  isaCache : IsaCache
  clients : Nat → Option RequestMessage
  units : Nat → ShaderUnitPort
  unitStates : Nat → ShaderUnitState
  requestThread : RequestThread
  responseThread : ResponseThread
  accepted : List (Nat × RequestMessage)
  delivered : List (Nat × List Dword)

def ShaderArray.initial (units : Nat → ShaderUnit Dword) : ShaderArray where
  isaCache := IsaCache.new
  clients := fun _ => none
  units := fun u => ⟨units u, .receiving false⟩
  unitStates := fun _ => ⟨false, 0, 0, 0⟩
  requestThread := .waiting
  responseThread := .waiting
  accepted := []
  delivered := []

/-! ## Shader units -/

namespace ShaderUnitPort

/-- The unit takes part in the handshake only when it waits for one. The header was
    checked when the program was loaded, so the command is `StoreIsa`. -/
def storeIsa (data : List Dword) (port : ShaderUnitPort) : Option ShaderUnitPort :=
  match port.phase with
  | .receiving false =>
    let unit := port.unit.processStoreIsaCommand data
    some ⟨unit, .receiving (unit.isaMetadata.hasNextCommand == 1)⟩
  | _ => none

/-- The command comes without a handshake: a unit that does not expect it misses it. -/
def executeIsa (command : ExecuteIsaMessage) (port : ShaderUnitPort) : ShaderUnitPort :=
  match port.phase with
  | .receiving true => { port with phase := .running command }
  | _ => port

def run (alu : Alu Dword) (port : ShaderUnitPort) : Except FatalError ShaderUnitPort :=
  match port.phase with
  | .running command => do
    let (unit, outputStream) ←
      port.unit.processExecuteIsaCommand alu command.threadCount command.stream
    return ⟨unit, .sending outputStream⟩
  | _ => .ok port

def isSending (port : ShaderUnitPort) : Bool :=
  match port.phase with
  | .sending _ => true
  | _ => false

end ShaderUnitPort

/-! ## The threads -/

namespace ShaderArray

def findClientMakingRequest (clientsCount : Nat) (s : ShaderArray) : Option Nat :=
  (List.range clientsCount).find? fun clientIndex => (s.clients clientIndex).isSome

def findFreeShaderUnit (shaderUnitsCount : Nat) (s : ShaderArray) : Option Nat :=
  (List.range shaderUnitsCount).find? fun shaderUnitIndex =>
    !(s.unitStates shaderUnitIndex).isActive

def findShaderUnitSendingResponse (shaderUnitsCount : Nat) (s : ShaderArray) : Option Nat :=
  (List.range shaderUnitsCount).find? fun shaderUnitIndex => (s.units shaderUnitIndex).isSending

/-- `requestThread` from one stage to the next. -/
def handle (memory : MemoryAddressType → MemoryDataType) (clientIndex shaderUnitIndex : Nat)
    (s : ShaderArray) : RequestStage → Except FatalError ShaderArray
  | .receiving =>
    match s.clients clientIndex with
    | some m => .ok { s with
        clients := Function.update s.clients clientIndex none
        accepted := s.accepted ++ [(clientIndex, m)]
        requestThread := .handling clientIndex shaderUnitIndex (.loading m) }
    | none => .ok s
  | .loading m => do
    let (program, isaCache) ← loadProgram memory s.isaCache m.request
    let stage := match program with
      | some data => RequestStage.storing m data
      | none => .executing m
    return { s with
      isaCache := isaCache
      requestThread := .handling clientIndex shaderUnitIndex stage }
  | .storing m data =>
    match (s.units shaderUnitIndex).storeIsa data with
    | some port => .ok { s with
        units := Function.update s.units shaderUnitIndex port
        requestThread := .handling clientIndex shaderUnitIndex (.executing m) }
    | none => .ok s
  | .executing m => .ok { s with
      units := Function.update s.units shaderUnitIndex
        ((s.units shaderUnitIndex).executeIsa m.executeIsa)
      requestThread := .handling clientIndex shaderUnitIndex (.marking m) }
  | .marking m => .ok { s with
      unitStates := Function.update s.unitStates shaderUnitIndex
        ⟨true, clientIndex, m.request.clientToken, calculateShaderOutputsCount m.request⟩
      requestThread := .waiting }

def stepRequestThread (memory : MemoryAddressType → MemoryDataType)
    (clientsCount shaderUnitsCount : Nat) (s : ShaderArray) : Except FatalError ShaderArray :=
  match s.requestThread with
  | .waiting =>
    match s.findClientMakingRequest clientsCount, s.findFreeShaderUnit shaderUnitsCount with
    | some clientIndex, some shaderUnitIndex =>
      .ok { s with requestThread := .handling clientIndex shaderUnitIndex .receiving }
    | _, _ => .ok s
  | .handling clientIndex shaderUnitIndex stage =>
    s.handle memory clientIndex shaderUnitIndex stage

/-- The outputs that are read: the first comes with the handshake. -/
def readOutputs (outputsCount : Nat) (outputStream : List Dword) : List Dword :=
  outputStream.getD 0 0 :: (List.range (outputsCount - 1)).map fun i => outputStream.getD (i + 1) 0

def stepResponseThread (shaderUnitsCount : Nat) (s : ShaderArray) :
    Except FatalError ShaderArray :=
  match s.responseThread with
  | .waiting =>
    match s.findShaderUnitSendingResponse shaderUnitsCount with
    | some shaderUnitIndex => do
      let state := s.unitStates shaderUnitIndex
      fatalErrorIf (!state.isActive) "Shader unit tried to return results for no reason"
      return { s with
        responseThread := .reading shaderUnitIndex state.clientIndex
          (responseHeader state.clientToken) }
    | none => .ok s
  | .reading shaderUnitIndex clientIndex header =>
    let port := s.units shaderUnitIndex
    let state := s.unitStates shaderUnitIndex
    match port.phase with
    | .sending outputStream => .ok { s with
        units := Function.update s.units shaderUnitIndex { port with phase := .receiving false }
        unitStates := Function.update s.unitStates shaderUnitIndex { state with isActive := false }
        responseThread :=
          .forwarding clientIndex (header :: readOutputs state.outputsCount outputStream) }
    | _ => .ok s
  | .forwarding clientIndex shaderOutputs => .ok { s with
      responseThread := .waiting
      delivered := s.delivered ++ [(clientIndex, shaderOutputs)] }

end ShaderArray

/-! ## Runs -/

inductive ShaderArrayEvent where
  | client (clientIndex : Nat) (m : RequestMessage)
  | requestThread
  | responseThread
  | shaderUnit (shaderUnitIndex : Nat)

section
variable (alu : Alu Dword) (memory : MemoryAddressType → MemoryDataType)
  (clientsCount shaderUnitsCount : Nat)

/-- The step of one part. A client sends one request at a time. -/
def ShaderArrayEvent.step (s : ShaderArray) : ShaderArrayEvent → Except FatalError ShaderArray
  | client clientIndex m =>
    match s.clients clientIndex with
    | none => .ok { s with clients := Function.update s.clients clientIndex (some m) }
    | some _ => .ok s
  | requestThread => s.stepRequestThread memory clientsCount shaderUnitsCount
  | responseThread => s.stepResponseThread shaderUnitsCount
  | shaderUnit shaderUnitIndex => do
    let port ← (s.units shaderUnitIndex).run alu
    return { s with units := Function.update s.units shaderUnitIndex port }

def ShaderArray.run (events : List ShaderArrayEvent) (s : ShaderArray) :
    Except FatalError ShaderArray :=
  events.foldlM (ShaderArrayEvent.step alu memory clientsCount shaderUnitsCount) s

end

end PicoGpu
