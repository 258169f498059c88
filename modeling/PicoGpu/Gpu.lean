import PicoGpu.FragmentBatches
import PicoGpu.MemoryClients
import PicoGpu.ShaderFrontendBlock
import PicoGpu.ShaderUnitBlock
import PicoGpu.VertexShader

/- The whole `Gpu`, clock by clock: its blocks, the signals between them, and
   `setBusyValue`, from which the command streamer learns that it may launch the next
   command.

   Correspondence (gpu.cpp ↔ here):
     `config`                              ↔ `GpuConfig`
     `getBlocksBusySignals`                ↔ `Gpu.getBlocksBusySignals`
     `setBusyValue` from a `wait()` on     ↔ `BusyValue.step`
     `connectInternalPorts`                ↔ the arguments of the blocks in `Gpu.step`
   A state is what a clock leaves behind; the first one is left by the first clock. -/
namespace PicoGpu
open Clocked

/-! ## setBusyValue -/

/-- The two histories of `setBusyValue` and its outputs. -/
structure BusyValue where
  busy : BitVec 32
  busyNoCs : BitVec 32
  outBusy : Bool
  outBusyNoCs : Bool
  deriving DecidableEq, Repr

namespace BusyValue

def new : BusyValue := ⟨0, 0, false, false⟩

def step (blocks : List Bool) (commandStreamer : Bool) (v : BusyValue) : BusyValue :=
  let bit := fun b : Bool => if b then (1 : BitVec 32) else 0
  let busy := blocks.foldl (fun busy signal => busy ||| bit signal) (v.busy <<< 1)
  let busyNoCs := v.busyNoCs <<< 1 ||| (busy &&& 1 ||| bit commandStreamer)
  { busy := busy
    busyNoCs := busyNoCs
    outBusy := busyNoCs &&& 7 ≠ 0
    outBusyNoCs := busyNoCs &&& 1 ≠ 0 }

theorem and_one (x : BitVec 32) : (x &&& 1 ≠ 0) ↔ x.getLsbD 0 = true := by
  have h : x &&& 1 = BitVec.setWidth 32 (BitVec.ofBool (x.getLsbD 0)) :=
    BitVec.and_one_eq_setWidth_ofBool_getLsbD
  rw [h]
  cases x.getLsbD 0 with
  | false => decide
  | true => decide

theorem foldl_bit (blocks : List Bool) (x : BitVec 32) :
    (blocks.foldl (fun busy signal => busy ||| if signal then (1 : BitVec 32) else 0) x).getLsbD 0 =
      (x.getLsbD 0 || blocks.any id) := by
  induction blocks generalizing x with
  | nil => rw [List.foldl_nil, List.any_nil, Bool.or_false]
  | cons signal blocks ih =>
    rw [List.foldl_cons, ih, BitVec.getLsbD_or, List.any_cons, Bool.or_assoc]
    cases signal with
    | false => rfl
    | true => rfl

/-- The lowest bit is the one of the signals that were read in this clock. -/
theorem step_outBusyNoCs (blocks : List Bool) (commandStreamer : Bool) (v : BusyValue) :
    (v.step blocks commandStreamer).outBusyNoCs = (blocks.any id || commandStreamer) := by
  have hshift : ∀ x : BitVec 32, (x <<< 1).getLsbD 0 = false := by
    intro x
    rw [BitVec.getLsbD_shiftLeft]
    rfl
  have hbit : ∀ b : Bool, (if b then (1 : BitVec 32) else 0).getLsbD 0 = b := by decide
  unfold step
  dsimp only
  rw [Bool.eq_iff_iff, decide_eq_true_eq, and_one, BitVec.getLsbD_or, hshift, BitVec.getLsbD_or,
    BitVec.getLsbD_and, hbit, foldl_bit, hshift]
  simp

theorem idle_of_step {blocks : List Bool} {commandStreamer : Bool} {v : BusyValue}
    (h : (v.step blocks commandStreamer).outBusyNoCs = false) :
    (∀ signal ∈ blocks, signal = false) ∧ commandStreamer = false := by
  rw [step_outBusyNoCs, Bool.or_eq_false_iff] at h
  refine ⟨?_, h.2⟩
  intro signal hsignal
  have hnot := List.any_eq_false.mp h.1 signal hsignal
  exact Bool.eq_false_iff.mpr hnot

end BusyValue

/-! ## The blocks -/

structure GpuConfig where
  vsCustomInputComponents : CustomShaderComponents
  vsPsCustomComponents : CustomShaderComponents
  framebufferWidth : Dword
  framebufferHeight : Dword
  verticesAddress : MemoryAddressType
  verticesCount : BitVec 8
  vsShaderAddress : MemoryAddressType
  vsUniforms : CustomShaderComponents
  vsUniformsData : Nat → Nat → Dword
  fsShaderAddress : MemoryAddressType
  fsUniforms : CustomShaderComponents
  fsUniformsData : Nat → Nat → Dword
  framebufferAddress : MemoryAddressType
  depthEnable : Bool
  depthBufferAddress : MemoryAddressType

namespace GpuConfig

def primitiveAssembler (config : GpuConfig) : PrimitiveAssemblerPins where
  inpVerticesAddress := config.verticesAddress
  inpVerticesCount := config.verticesCount
  inpCustomInputComponents := config.vsCustomInputComponents

def vertexShader (config : GpuConfig) : VertexShaderPins where
  inpShaderAddress := config.vsShaderAddress
  inpCustomInputComponents := config.vsCustomInputComponents
  inpCustomOutputComponents := config.vsPsCustomComponents
  inpUniforms := config.vsUniforms
  inpUniformsData := config.vsUniformsData

def outputMerger (config : GpuConfig) : OutputMergerPins where
  framebufferAddress := config.framebufferAddress
  framebufferWidth := config.framebufferWidth
  depthEnable := config.depthEnable
  depthAddress := config.depthBufferAddress

end GpuConfig

structure Gpu (F : Type) where
  commandStreamer : CommandStreamer
  blitter : Blitter
  memoryController : MemoryController 3
  memory : Memory memorySize
  shaderFrontend : ShaderFrontendBlock
  shaderUnit0 : ShaderUnitBlock
  shaderUnit1 : ShaderUnitBlock
  primitiveAssembler : PrimitiveAssembler
  vertexShader : VertexShader
  fragments : FragmentPipeline F
  outputMerger : OutputMerger
  out : BusyValue

/-- What the source leaves open: what the user queues before a clock and makes of his own
    memory, and in which order processes run that share variables. -/
structure GpuEnvironment where
  pushed : Nat → List CommandStreamer.Command
  userWrites : Nat → (PointerType → Dword) → PointerType → Dword
  listenLast : Nat → Bool
  responseFirst : Nat → Bool

namespace Gpu

section
variable {F : Type}

/-- The memory begins with zeros, and so do the dwords of the user that he does not set. -/
def new (unit0 unit1 : ShaderUnit Dword) : Gpu F where
  commandStreamer := .new
  blitter := .new fun _ => 0
  memoryController := .init 3
  memory := ⟨fun _ => 0, 0, false⟩
  shaderFrontend := .new
  shaderUnit0 := .new unit0
  shaderUnit1 := .new unit1
  primitiveAssembler := .new
  vertexShader := .new
  fragments := .new
  outputMerger := .new
  out := .new

/-- The array of `getBlocksBusySignals`, entry by entry. -/
def getBlocksBusySignals (s : Gpu F) : List Bool :=
  [s.blitter.outBusy,
    s.memoryController.outBusy,
    s.shaderFrontend.outBusy,
    s.shaderFrontend.outBusy,
    s.shaderUnit0.outBusy,
    s.shaderUnit1.outBusy,
    s.primitiveAssembler.outBusy,
    s.vertexShader.outBusy,
    s.fragments.rasterizer.outBusy,
    s.outputMerger.outBusy]

/-- The clients of the memory controller, in their order. -/
def memoryClients (s : Gpu F) : Fin 4 → MemorySignals
  | 0 => s.primitiveAssembler.memory
  | 1 => s.blitter.memory
  | 2 => s.outputMerger.memory
  | 3 => s.shaderFrontend.memory

/-- Of the first client, the vertex shader, or the second one, the fragment shader. -/
def ofClient {α : Type} (vertexShader fragmentShader : α) : Nat → α
  | 0 => vertexShader
  | _ => fragmentShader

def ofUnit {α : Type} (shaderUnit0 shaderUnit1 : α) : Nat → α
  | 0 => shaderUnit0
  | _ => shaderUnit1

def shaderFrontendInputs (s : Gpu F) : ShaderFrontendInputs where
  clientSending := ofClient s.vertexShader.request.outSending
    s.fragments.perFragment.request.outSending
  clientData := ofClient (s.vertexShader.request.outDataPorts 0)
    (s.fragments.perFragment.request.outDataPorts 0)
  clientReceiving := ofClient s.vertexShader.response.outReceiving
    s.fragments.perFragment.response.outReceiving
  unitSending := ofUnit s.shaderUnit0.response.outSending s.shaderUnit1.response.outSending
  unitData := ofUnit (s.shaderUnit0.response.outDataPorts 0)
    (s.shaderUnit1.response.outDataPorts 0)
  unitReceiving := ofUnit s.shaderUnit0.request.outReceiving s.shaderUnit1.request.outReceiving
  inpCompleted := s.memoryController.outCompleted 3
  inpData := s.memoryController.outData

def vertexShaderInputs (s : Gpu F) : VertexShaderInputs where
  inpSending := s.primitiveAssembler.nextBlock.outSending
  inpData := s.primitiveAssembler.nextBlock.outDataPorts
  requestReceiving := (s.shaderFrontend.clientRequests 0).outReceiving
  responseSending := (s.shaderFrontend.clientResponses 0).outSending
  responseData := (s.shaderFrontend.clientResponses 0).outDataPorts
  nextBlockReceiving := s.fragments.rasterizer.previousBlock.outReceiving

/-- What lies around the rasterizer and the fragment shader. -/
def surroundings (config : GpuConfig) (s : Gpu F) : Surroundings where
  inpWidth := config.framebufferWidth
  inpHeight := config.framebufferHeight
  inpShaderAddress := config.fsShaderAddress
  inpUniforms := config.fsUniforms
  inpUniformsData := config.fsUniformsData
  verticesSending := s.vertexShader.nextBlock.outSending
  verticesData := s.vertexShader.nextBlock.outDataPorts
  requestReceiving := (s.shaderFrontend.clientRequests 1).outReceiving
  responseSending := (s.shaderFrontend.clientResponses 1).outSending
  responseData := (s.shaderFrontend.clientResponses 1).outDataPorts
  nextBlockReceiving := s.outputMerger.previousBlock.outReceiving

/-- One clock: every process reads the signals of the old state. -/
def step (f : Floats F) (alu : Alu Dword) (config : GpuConfig) (env : GpuEnvironment)
    (clock : Nat) (s : Gpu F) : Gpu F where
  commandStreamer :=
    (s.commandStreamer.push (env.pushed clock)).step clock s.out.outBusyNoCs
  blitter :=
    { s.blitter with userMemory := env.userWrites clock s.blitter.userMemory }.step
      s.commandStreamer.bltBlock (s.memoryController.outCompleted 1) s.memoryController.outData
  memoryController := s.memoryController.step (env.listenLast clock) s.memoryClients
    s.memory.outData s.memory.outCompleted
  memory := s.memory.work s.memoryController.memory
  shaderFrontend := s.shaderFrontend.step 2 2 (env.responseFirst clock) s.shaderFrontendInputs
  shaderUnit0 := s.shaderUnit0.step alu (s.shaderFrontend.unitRequests 0).outSending
    ((s.shaderFrontend.unitRequests 0).outDataPorts 0)
    (s.shaderFrontend.unitResponses 0).outReceiving
  shaderUnit1 := s.shaderUnit1.step alu (s.shaderFrontend.unitRequests 1).outSending
    ((s.shaderFrontend.unitRequests 1).outDataPorts 0)
    (s.shaderFrontend.unitResponses 1).outReceiving
  primitiveAssembler := s.primitiveAssembler.step config.primitiveAssembler
    s.commandStreamer.paEnable (s.memoryController.outCompleted 0) s.memoryController.outData
    s.vertexShader.previousBlock.outReceiving
  vertexShader := s.vertexShader.step config.vertexShader s.vertexShaderInputs
  fragments := FragmentPipeline.step f config.vsPsCustomComponents
    (fun _ => s.surroundings config) clock s.fragments
  outputMerger := s.outputMerger.step f config.outputMerger
    s.fragments.perFragment.nextBlock.outSending s.fragments.perFragment.nextBlock.outDataPorts
    (s.memoryController.outCompleted 2) s.memoryController.outData
  out := s.out.step s.getBlocksBusySignals s.commandStreamer.outBusy

/-- The state behind clock `n`. -/
def after (f : Floats F) (alu : Alu Dword) (config : GpuConfig) (env : GpuEnvironment)
    (unit0 unit1 : ShaderUnit Dword) : Nat → Gpu F :=
  run (step f alu config env) (new unit0 unit1)

/-! ## Evaluation

   Of what a client of the memory controller has latched only a part is ever read, at an index
   that is computed. With a table that index is looked at once a clock, which is what makes
   runs of some hundred clocks short to evaluate. -/

def table {α : Type} (entries : Fin 4 → α) : Fin 4 → α
  | 0 => entries 0
  | 1 => entries 1
  | 2 => entries 2
  | 3 => entries 3

theorem table_eq {α : Type} (entries : Fin 4 → α) : table entries = entries := by
  funext i
  match i with
  | 0 | 1 | 2 | 3 => rfl

/-- The same state, with a table of the latched signals. -/
def tabulated (s : Gpu F) : Gpu F :=
  { s with memoryController :=
    { s.memoryController with clientsLatched := table s.memoryController.clientsLatched } }

theorem tabulated_eq (s : Gpu F) : s.tabulated = s := by
  unfold tabulated
  rw [table_eq]

/-- `after`, to be evaluated. -/
def evaluated (f : Floats F) (alu : Alu Dword) (config : GpuConfig) (env : GpuEnvironment)
    (unit0 unit1 : ShaderUnit Dword) : Nat → Gpu F :=
  run (fun clock s => (s.step f alu config env clock).tabulated) (new unit0 unit1)

theorem evaluated_eq (f : Floats F) (alu : Alu Dword) (config : GpuConfig) (env : GpuEnvironment)
    (unit0 unit1 : ShaderUnit Dword) :
    evaluated f alu config env unit0 unit1 = after f alu config env unit0 unit1 := by
  unfold evaluated
  simp only [tabulated_eq]
  rfl

/-! ## Between two clocks -/

/-- No block has stopped the program with `FATAL_ERROR`. -/
structure Running (s : Gpu F) : Prop where
  blitter : ¬ s.blitter.Aborted
  shaderFrontend : ¬ s.shaderFrontend.Aborted
  shaderUnit0 : ¬ s.shaderUnit0.Aborted
  shaderUnit1 : ¬ s.shaderUnit1.Aborted
  primitiveAssembler : ¬ s.primitiveAssembler.Aborted
  vertexShader : ¬ s.vertexShader.Aborted
  rasterizer : ¬ s.fragments.rasterizer.Aborted
  perFragment : ¬ s.fragments.perFragment.Aborted
  outputMerger : ¬ s.outputMerger.Aborted

instance (s : Gpu F) : Decidable s.Running :=
  decidable_of_iff (¬ s.blitter.Aborted ∧ ¬ s.shaderFrontend.Aborted ∧ ¬ s.shaderUnit0.Aborted ∧
    ¬ s.shaderUnit1.Aborted ∧ ¬ s.primitiveAssembler.Aborted ∧ ¬ s.vertexShader.Aborted ∧
    ¬ s.fragments.rasterizer.Aborted ∧ ¬ s.fragments.perFragment.Aborted ∧
    ¬ s.outputMerger.Aborted) (by
    constructor
    · rintro ⟨h1, h2, h3, h4, h5, h6, h7, h8, h9⟩
      exact ⟨h1, h2, h3, h4, h5, h6, h7, h8, h9⟩
    · rintro ⟨h1, h2, h3, h4, h5, h6, h7, h8, h9⟩
      exact ⟨h1, h2, h3, h4, h5, h6, h7, h8, h9⟩)

/-- No work is outstanding: every block waits for new work and offers none, and there is no
    access to the memory. -/
structure Idle (config : GpuConfig) (s : Gpu F) : Prop where
  blitter : s.blitter.Idle
  memoryController : s.memoryController.Idle
  shaderFrontend : s.shaderFrontend.Idle
  shaderUnit0 : s.shaderUnit0.Idle
  shaderUnit1 : s.shaderUnit1.Idle
  primitiveAssembler : s.primitiveAssembler.Idle
  vertexShader : s.vertexShader.Idle
  rasterizer : s.fragments.rasterizer.Idle
  perTriangle : s.fragments.perTriangle.Away ∨
    s.fragments.perTriangle.Waits (attributesCount config.vsPsCustomComponents)
  perFragment : s.fragments.perFragment.Idle
  outputMerger : s.outputMerger.Idle

/-- Which clients of the memory controller wait for it. -/
def awaiting (s : Gpu F) : Fin 4 → Bool
  | 0 => s.primitiveAssembler.awaiting
  | 1 => s.blitter.awaiting
  | 2 => s.outputMerger.awaiting
  | 3 => s.shaderFrontend.awaiting

/-- Every block but the fragment shader shows that it works. -/
structure Tracked (f : Floats F) (config : GpuConfig) (s : Gpu F) : Prop where
  commandStreamer : s.commandStreamer.Tracked
  blitter : s.blitter.Tracked
  accesses : Accesses s.memoryController s.memoryClients s.awaiting
  shaderFrontend : s.shaderFrontend.Tracked
  shaderUnit0 : s.shaderUnit0.Tracked
  shaderUnit1 : s.shaderUnit1.Tracked
  primitiveAssembler : s.primitiveAssembler.Tracked
  vertexShader : s.vertexShader.Tracked
  rasterizer : s.fragments.rasterizer.Tracked
  perFragment : s.fragments.perFragment.Tracked
  pipeline : PipelineInv f config.vsPsCustomComponents s.fragments
  outputMerger : s.outputMerger.Tracked

variable {f : Floats F} {alu : Alu Dword} {config : GpuConfig} {env : GpuEnvironment}
  {s : Gpu F}

theorem tracked_new (f : Floats F) (config : GpuConfig) (unit0 unit1 : ShaderUnit Dword) :
    (new unit0 unit1 : Gpu F).Tracked f config where
  commandStreamer := CommandStreamer.tracked_new
  blitter := Blitter.tracked_new _
  accesses := by
    have hclients : (new unit0 unit1 : Gpu F).memoryClients = fun _ => .low := by
      funext i
      match i with
      | 0 | 1 | 2 | 3 => rfl
    have hawaiting : (new unit0 unit1 : Gpu F).awaiting = fun _ => false := by
      funext i
      match i with
      | 0 | 1 | 2 | 3 => rfl
    rw [hclients, hawaiting]
    exact accesses_init 3
  shaderFrontend := ShaderFrontendBlock.tracked_new
  shaderUnit0 := ShaderUnitBlock.tracked_new unit0
  shaderUnit1 := ShaderUnitBlock.tracked_new unit1
  primitiveAssembler := PrimitiveAssembler.tracked_new
  vertexShader := VertexShader.tracked_new
  rasterizer := Rasterizer.tracked_new
  perFragment := PerFragmentThread.tracked_new
  pipeline := pipelineInv_new
  outputMerger := OutputMerger.tracked_new

theorem tracked_step (h : s.Tracked f config) (alu : Alu Dword) (env : GpuEnvironment)
    (clock : Nat) : (s.step f alu config env clock).Tracked f config := by
  have hblitter : ({ s.blitter with userMemory := env.userWrites clock s.blitter.userMemory } :
      Blitter).Tracked := h.blitter
  obtain ⟨hblitter', hobeysBlitter⟩ := Blitter.step_spec hblitter s.commandStreamer.bltBlock
    (s.memoryController.outCompleted 1) s.memoryController.outData
  obtain ⟨hprimitives, hobeysPrimitives⟩ := PrimitiveAssembler.step_spec h.primitiveAssembler
    config.primitiveAssembler s.commandStreamer.paEnable (s.memoryController.outCompleted 0)
    s.memoryController.outData s.vertexShader.previousBlock.outReceiving
  obtain ⟨hmerger, hobeysMerger⟩ := @OutputMerger.step_spec F f _ h.outputMerger
    config.outputMerger s.fragments.perFragment.nextBlock.outSending
    s.fragments.perFragment.nextBlock.outDataPorts (s.memoryController.outCompleted 2)
    s.memoryController.outData
  obtain ⟨hfrontend, hobeysFrontend⟩ := ShaderFrontendBlock.step_spec h.shaderFrontend 2 2
    (env.responseFirst clock) s.shaderFrontendInputs
  constructor
  · exact CommandStreamer.tracked_step (CommandStreamer.tracked_push h.commandStreamer _) _ _
  · exact hblitter'
  · apply accesses_step h.accesses
    intro i
    match i with
    | 0 => exact hobeysPrimitives
    | 1 => exact hobeysBlitter
    | 2 => exact hobeysMerger
    | 3 => exact hobeysFrontend
  · exact hfrontend
  · exact ShaderUnitBlock.tracked_step h.shaderUnit0 _ _ _ _
  · exact ShaderUnitBlock.tracked_step h.shaderUnit1 _ _ _ _
  · exact hprimitives
  · exact VertexShader.tracked_step h.vertexShader _ _
  · exact Rasterizer.tracked_step h.rasterizer _ _
  · exact PerFragmentThread.tracked_step h.perFragment _ _
  · exact pipelineInv_step (fun _ => s.surroundings config) clock s.fragments h.pipeline
  · exact hmerger

/-- A program that has stopped does not go on. -/
theorem running_of_step (h : s.Tracked f config) {clock : Nat}
    (hrunning : (s.step f alu config env clock).Running) : s.Running where
  blitter := by
    intro haborted
    apply hrunning.blitter
    have hsame : ({ s.blitter with userMemory := env.userWrites clock s.blitter.userMemory } :
        Blitter).Aborted := haborted
    exact hsame.step _ _ _
  shaderFrontend := fun haborted =>
    hrunning.shaderFrontend (haborted.step h.shaderFrontend _ _ _ _)
  shaderUnit0 := fun haborted => hrunning.shaderUnit0 (haborted.step _ _ _ _)
  shaderUnit1 := fun haborted => hrunning.shaderUnit1 (haborted.step _ _ _ _)
  primitiveAssembler := fun haborted => hrunning.primitiveAssembler (haborted.step _ _ _ _ _)
  vertexShader := fun haborted => hrunning.vertexShader (haborted.step _ _)
  rasterizer := fun haborted => hrunning.rasterizer (haborted.step _ _)
  perFragment := fun haborted => hrunning.perFragment (haborted.step _ _)
  outputMerger := fun haborted => hrunning.outputMerger (haborted.step _ _ _ _ _)

/-! ## Idle blocks -/

/-- A rasterizer that is idle is between two triangles, and so is the thread that receives
    them. -/
theorem perTriangle_idle (h : PipelineInv f config.vsPsCustomComponents s.fragments)
    (hidle : s.fragments.rasterizer.Idle) : s.fragments.perTriangle.Away ∨
      s.fragments.perTriangle.Waits (attributesCount config.vsPsCustomComponents) := by
  have hpc : ∀ triangle call, s.fragments.rasterizer.pc ≠ .perTriangle triangle call := by
    intro triangle call hpc
    rcases hidle.pc with hstart | ⟨count, call', hreceive, -⟩
    · rw [hpc] at hstart
      cases hstart
    · rw [hpc] at hreceive
      cases hreceive
  cases h.triangles with
  | between hr ht hshown => exact ht
  | offering htriangle hr ht => exact absurd hr.pc (hpc _ _)
  | moving htriangle p hr ht => exact absurd hr.pc (hpc _ _)

/-- Where the four clients of the memory are idle, none of them awaits a response. -/
theorem awaiting_eq_false (hprimitives : s.primitiveAssembler.Idle) (hblitter : s.blitter.Idle)
    (hmerger : s.outputMerger.Idle) (hfrontend : s.shaderFrontend.Idle) (i : Fin 4) :
    s.awaiting i = false := by
  match i with
  | 0 => exact hprimitives.awaiting
  | 1 => exact hblitter.awaiting
  | 2 => exact hmerger.awaiting
  | 3 => exact hfrontend.awaiting

/-- Blocks that show nothing, and a fragment shader without fragments, have nothing to do. -/
theorem Tracked.idle (h : s.Tracked f config) (hrunning : s.Running)
    (hbusy : ∀ signal ∈ s.getBlocksBusySignals, signal = false)
    (hfragments : s.fragments.perFragment.holdsFragments = false) : s.Idle config := by
  have hblitter := h.blitter.idle (hbusy _ (by simp [getBlocksBusySignals])) hrunning.blitter
  have hfrontend := h.shaderFrontend.idle (hbusy _ (by simp [getBlocksBusySignals]))
    hrunning.shaderFrontend
  have hprimitives := h.primitiveAssembler.idle (hbusy _ (by simp [getBlocksBusySignals]))
    hrunning.primitiveAssembler
  have hmerger := h.outputMerger.idle (hbusy _ (by simp [getBlocksBusySignals]))
    hrunning.outputMerger
  have hrasterizer := h.rasterizer.idle (hbusy _ (by simp [getBlocksBusySignals]))
    hrunning.rasterizer
  have hfree := awaiting_eq_false hprimitives hblitter hmerger hfrontend
  constructor
  · exact hblitter
  · exact h.accesses.idle hfree
  · exact hfrontend
  · exact h.shaderUnit0.idle (hbusy _ (by simp [getBlocksBusySignals])) hrunning.shaderUnit0
  · exact h.shaderUnit1.idle (hbusy _ (by simp [getBlocksBusySignals])) hrunning.shaderUnit1
  · exact hprimitives
  · exact h.vertexShader.idle (hbusy _ (by simp [getBlocksBusySignals])) hrunning.vertexShader
  · exact hrasterizer
  · exact perTriangle_idle h.pipeline hrasterizer
  · exact h.perFragment.idle hfragments hrunning.perFragment
  · exact hmerger

/-- Where nothing is outstanding and nothing is launched, nothing is outstanding a clock
    later. -/
theorem Idle.step (hidle : s.Idle config) (h : s.Tracked f config)
    (hquiet : s.commandStreamer.Quiet) (hrunning : s.Running) {clock : Nat}
    (hrunning' : (s.step f alu config env clock).Running) :
    (s.step f alu config env clock).Idle config := by
  have hrasterizer : (s.step f alu config env clock).fragments.rasterizer.Idle :=
    (hidle.rasterizer.step _ hidle.vertexShader.nextBlock).resolve_right hrunning'.rasterizer
  have hblitter : (s.step f alu config env clock).blitter.Idle := by
    have hsame : ({ s.blitter with userMemory := env.userWrites clock s.blitter.userMemory } :
        Blitter).Idle := ⟨hidle.blitter.pc, hidle.blitter.enable⟩
    have hstep := hsame.step hquiet.2 (s.memoryController.outCompleted 1) s.memoryController.outData
    unfold Gpu.step
    dsimp only
    rw [hstep]
    exact hsame
  have hprimitives : (s.step f alu config env clock).primitiveAssembler.Idle := by
    have hstep := hidle.primitiveAssembler.step config.primitiveAssembler
      (s.memoryController.outCompleted 0) s.memoryController.outData
      s.vertexShader.previousBlock.outReceiving
    unfold Gpu.step
    dsimp only
    rw [hquiet.1, hstep]
    exact hidle.primitiveAssembler
  have hclients : ∀ client, s.shaderFrontendInputs.clientSending client = false := by
    intro client
    cases client with
    | zero => exact hidle.vertexShader.request
    | succ client => exact hidle.perFragment.low.request
  have hunits : ∀ unit, s.shaderFrontendInputs.unitSending unit = false := by
    intro unit
    cases unit with
    | zero => exact hidle.shaderUnit0.response
    | succ unit => exact hidle.shaderUnit1.response
  have hfrontend : (s.step f alu config env clock).shaderFrontend.Idle :=
    hidle.shaderFrontend.step 2 2 (env.responseFirst clock) hclients hunits
  have hmerger : (s.step f alu config env clock).outputMerger.Idle := by
    unfold Gpu.step
    dsimp only
    rw [hidle.perFragment.low.nextBlock]
    exact hidle.outputMerger.step _ _ _ _
  have hnext := tracked_step h alu env clock
  have hfree := awaiting_eq_false hprimitives hblitter hmerger hfrontend
  constructor
  · exact hblitter
  · exact hnext.accesses.idle hfree
  · exact hfrontend
  · unfold Gpu.step
    dsimp only
    rw [hidle.shaderFrontend.request.unitRequests 0]
    exact hidle.shaderUnit0.step _ _ _
  · unfold Gpu.step
    dsimp only
    rw [hidle.shaderFrontend.request.unitRequests 1]
    exact hidle.shaderUnit1.step _ _ _
  · exact hprimitives
  · exact (hidle.vertexShader.step _ hidle.primitiveAssembler.sending).resolve_right
      hrunning'.vertexShader
  · exact hrasterizer
  · exact perTriangle_idle hnext.pipeline hrasterizer
  · exact hidle.perFragment.step hrunning.perFragment h.pipeline.batch.calls _
      hidle.rasterizer.low.perFragment
  · exact hmerger

/-! ## Commands -/

/-- The command that is launched at a clock. -/
def dispatched (env : GpuEnvironment) (clock : Nat) (s : Gpu F) : Option CommandStreamer.Command :=
  (s.commandStreamer.push (env.pushed clock)).dispatched s.out.outBusyNoCs

/-- The run comes to clock `n`, and a command is launched there. -/
structure Dispatches (f : Floats F) (alu : Alu Dword) (config : GpuConfig) (env : GpuEnvironment)
    (unit0 unit1 : ShaderUnit Dword) (n : Nat) : Prop where
  running : (after f alu config env unit0 unit1 n).Running
  dispatched : ((after f alu config env unit0 unit1 n).dispatched env n).isSome = true

theorem tracked_after (f : Floats F) (alu : Alu Dword) (config : GpuConfig) (env : GpuEnvironment)
    (unit0 unit1 : ShaderUnit Dword) (n : Nat) :
    (after f alu config env unit0 unit1 n).Tracked f config :=
  run_always (tracked_new f config unit0 unit1) (fun clock _ h => tracked_step h alu env clock) n

theorem idle_new (config : GpuConfig) (unit0 unit1 : ShaderUnit Dword) :
    (new unit0 unit1 : Gpu F).Idle config where
  blitter := ⟨rfl, rfl⟩
  memoryController := ⟨rfl, rfl, fun _ => rfl, fun _ => rfl⟩
  shaderFrontend := ⟨rfl, rfl, ⟨rfl, fun _ => rfl⟩, fun _ => rfl⟩
  shaderUnit0 := ⟨⟨_, _, rfl, trivial, rfl, rfl⟩, rfl⟩
  shaderUnit1 := ⟨⟨_, _, rfl, trivial, rfl, rfl⟩, rfl⟩
  primitiveAssembler := ⟨rfl, rfl, rfl⟩
  vertexShader := ⟨Or.inl rfl, rfl, rfl⟩
  rasterizer := ⟨Or.inl rfl, rfl, rfl⟩
  perTriangle := Or.inl ⟨rfl, rfl⟩
  perFragment := ⟨rfl, rfl, rfl⟩
  outputMerger := ⟨⟨_, rfl, trivial⟩, rfl⟩

/-- The launch of a command finds nothing outstanding if the fragment shader had no fragments a
    clock before. Its busy signal is the one that nobody reads. -/
theorem idle_of_dispatches {unit0 unit1 : ShaderUnit Dword} {n : Nat}
    (hdispatches : Dispatches f alu config env unit0 unit1 n)
    (hfragments :
      (after f alu config env unit0 unit1 (n - 1)).fragments.perFragment.holdsFragments = false) :
    (after f alu config env unit0 unit1 n).Idle config := by
  cases n with
  | zero => exact idle_new config unit0 unit1
  | succ n =>
    have htracked := tracked_after f alu config env unit0 unit1 n
    have hrunning' := hdispatches.running
    have hrunning := running_of_step htracked hrunning'
    have hlow : (after f alu config env unit0 unit1 (n + 1)).out.outBusyNoCs = false := by
      have hsome := hdispatches.dispatched
      by_contra hbusy
      rw [Bool.not_eq_false] at hbusy
      rw [dispatched, CommandStreamer.dispatched, hbusy] at hsome
      split at hsome
      · cases hsome
      · cases hsome
    obtain ⟨hblocks, hcommandStreamer⟩ := BusyValue.idle_of_step hlow
    have hidle := htracked.idle hrunning hblocks hfragments
    exact hidle.step htracked (htracked.commandStreamer.quiet hcommandStreamer) hrunning hrunning'

end

/-- One triangle, all of it in the corner of a framebuffer of one pixel: the float operations
    meet nothing but zeros and the division of zero by one. -/
def pixelConfig : GpuConfig where
  vsCustomInputComponents := ⟨1, 0, 0, 0⟩
  vsPsCustomComponents := ⟨0, 0, 0, 0⟩
  framebufferWidth := 1
  framebufferHeight := 1
  verticesAddress := 256
  verticesCount := 3
  vsShaderAddress := 0
  vsUniforms := ⟨0, 0, 0, 0⟩
  vsUniformsData := fun _ _ => 0
  fsShaderAddress := 512
  fsUniforms := ⟨0, 0, 0, 0⟩
  fsUniformsData := fun _ _ => 0
  framebufferAddress := 1024
  depthEnable := false
  depthBufferAddress := 0

/-- `#vertexShader`, `#input r0.x`, `#output r1.xyzw`, `#undefinedRegs`, `finit r1.w 1.0` -/
def pixelVs : List Dword := [204472332, 1635828508, 48, 32, 1116, 1065353216]

/-- `#fragmentShader`, `#input r0.xyzw`, `#output r1.xyzw`, `#undefinedRegs`, `mov r1 r0` -/
def pixelFs : List Dword :=
  [204523636, 1635827741, 48, 3164418, 3165506, 3162498, 4035019, 4020747,
    4018763, 4087238, 4088326, 65116, 1065353216, 1065353216, 1065353216, 1065353216,
    4073026, 4056642, 550470, 565766, 581062, 2795101, 2794013, 2792925, 671744,
    655360, 638976, 32781, 2785373, 32, 245854, 2785309]

/-- Both shaders and a draw, and then the blit that reads the pixel. -/
def pixelEnvironment : GpuEnvironment where
  pushed := fun clock =>
    if clock = 0 then
      [CommandStreamer.blit .copyToMem 0 0 pixelVs.length none,
        CommandStreamer.blit .copyToMem 512 4096 pixelFs.length none,
        CommandStreamer.draw none,
        CommandStreamer.blit .copyFromMem 1024 8192 1 none]
    else []
  userWrites := fun clock userMemory =>
    if clock = 0 then fun ptr =>
      if ptr.toNat < 4096 then pixelVs.getD (ptr.toNat / 4) 0
      else pixelFs.getD ((ptr.toNat - 4096) / 4) 0
    else userMemory
  listenLast := fun _ => true
  responseFirst := fun _ => true

def pixelUnit : ShaderUnit Dword where
  isaMetadata := .zero
  isa := fun _ => 0
  gpr := fun _ _ => ⟨0, 0, 0, 0⟩
  pc := 0
  uniformDwords := fun _ => 0

end Gpu

end PicoGpu
