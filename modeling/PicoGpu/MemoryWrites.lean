import PicoGpu.Gpu
import PicoGpu.MergerRun

/- Which dwords of the memory a run of the `Gpu` can change. A write passes three places on
   its way from a block to the memory: the signals of the block, the signals that the
   controller has latched, and the signals of the controller to the memory. At each of them
   it is at a permitted address if it was at one when the block asked for it, and what the
   blocks ask for is in the target of a blit, or at a pixel that a triangle covers.

   What is proved:
     1. `MemoryController.Confined.step`, `Blitter.Confined.step`, `OutputMerger.Confined.step`:
        what is written is at a permitted address.
     2. `Rasterizer.Framed.step`, `PerFragmentThread.Framed.step`: the coordinates of a
        fragment are those of a covered pixel on the whole way to the output merger.
     3. `Gpu.memory_confined`: from a clock without work on, a dword that no blit is to write
        and that is of no covered pixel keeps its value.
   The addresses are those that the blocks compute, with 32 bits. -/
namespace PicoGpu
open Clocked OutputMerger

/-! ## The way to the memory -/

/-- The signals ask for no write outside of `permitted`. -/
def MemorySignals.Permitted (permitted : MemoryAddressType → Prop) (s : MemorySignals) : Prop :=
  s.enable = true → s.write = true → permitted s.address

section
variable {permitted : MemoryAddressType → Prop} {s : MemorySignals}

theorem MemorySignals.permitted_disabled (h : s.enable = false) : s.Permitted permitted := by
  intro he
  rw [h] at he
  cases he

theorem MemorySignals.permitted_reading (h : s.write = false) : s.Permitted permitted := by
  intro _ hw
  rw [h] at hw
  cases hw

theorem MemorySignals.Permitted.disable (h : s.Permitted permitted) (completing : Bool) :
    (MemoryController.disable completing s).Permitted permitted := by
  unfold MemoryController.disable
  split
  · exact permitted_disabled rfl
  · exact h

theorem MemorySignals.Permitted.listen (h : s.Permitted permitted) {client : MemorySignals}
    (hclient : client.Permitted permitted) :
    (MemoryController.listenClients client s).Permitted permitted := by
  unfold MemoryController.listenClients
  split
  · next henable => exact fun _ hw => hclient henable hw
  · exact h

/-- Only the cell of a permitted address changes. -/
theorem Memory.work_outside {size : Nat} (m : Memory size) (h : s.Permitted permitted)
    {i : Fin size} (hi : ∀ address, permitted address → addressIndex address ≠ i) :
    (m.work s).rawMemory i = m.rawMemory i := by
  unfold Memory.work
  cases he : s.enable with
  | false => rfl
  | true =>
    cases hw : s.write with
    | false => rfl
    | true =>
      simp only [Bool.not_true, Bool.false_eq_true, if_false, if_true]
      unfold store
      split
      · next hlt =>
        have hne := hi s.address (h he hw)
        apply Function.update_of_ne
        intro heq
        exact hne (congrArg Fin.val heq).symm
      · rfl

end

namespace MemoryController
variable {last : Nat} {permitted : MemoryAddressType → Prop} {c : MemoryController last}

/-- No write outside of `permitted` is latched or asked of the memory. -/
structure Confined (permitted : MemoryAddressType → Prop) (c : MemoryController last) : Prop where
  latched : ∀ i, (c.clientsLatched i).Permitted permitted
  memory : c.memory.Permitted permitted

theorem Idle.confined (h : c.Idle) : c.Confined permitted where
  latched := fun i => MemorySignals.permitted_disabled (h.latched i)
  memory := MemorySignals.permitted_disabled h.enable

theorem Confined.main (h : c.Confined permitted) (inpData : MemoryDataType) (inpCompleted : Bool) :
    (c.main inpData inpCompleted).memory.Permitted permitted := by
  cases hpc : c.pc with
  | scanning =>
    rw [main_scanning _ _ hpc]
    obtain ⟨hlatched, -, hmemory, -⟩ := clearOutput_frame c
    unfold scan
    split
    · show c.clearOutput.memory.Permitted permitted
      rw [hmemory]
      exact h.memory
    · next client _ =>
      intro _ hw
      have hfound : (c.clearOutput.clientsLatched client).Permitted permitted := by
        rw [hlatched]
        exact h.latched client
      refine hfound ?_ hw
      exact findClient_enabled ‹_›
  | issued w =>
    rw [main_issued _ _ hpc]
    exact MemorySignals.permitted_disabled rfl
  | waiting w =>
    cases inpCompleted with
    | false =>
      rw [main_pending hpc]
      exact h.memory
    | true =>
      rw [main_waiting _ hpc rfl]
      exact h.memory

theorem Confined.step (h : c.Confined permitted) {clients : Fin (last + 1) → MemorySignals}
    (hclients : ∀ i, (clients i).Permitted permitted) (listenLast : Bool)
    (inpData : MemoryDataType) (inpCompleted : Bool) :
    (c.step listenLast clients inpData inpCompleted).Confined permitted where
  latched := by
    intro i
    unfold MemoryController.step
    dsimp only
    split
    · exact ((h.latched i).disable _).listen (hclients i)
    · exact ((h.latched i).listen (hclients i)).disable _
  memory := h.main inpData inpCompleted

end MemoryController

/-! ## The clients that only read -/

namespace PrimitiveAssembler
variable {p : PrimitiveAssembler}

theorem fetchComponents_reads (h : p.memory.write = false) (draw : Draw) (triangleIndex : Nat)
    (readVertices : List Dword) :
    (p.fetchComponents draw triangleIndex readVertices).memory.write = false := by
  unfold fetchComponents
  dsimp only
  split
  · rfl
  · split
    · exact h
    · exact h

theorem assembleTriangles_reads (h : p.memory.write = false) (outBusy : Bool) (draw : Draw)
    (triangleIndex : Nat) : (p.assembleTriangles outBusy draw triangleIndex).memory.write = false := by
  unfold assembleTriangles
  split
  · split
    · exact h
    · exact fetchComponents_reads h draw triangleIndex []
  · split
    · exact h
    · exact h

theorem step_reads (h : p.memory.write = false) (pins : PrimitiveAssemblerPins)
    (inpEnable inpCompleted : Bool) (inpData : MemoryDataType) (inpReceiving : Bool) :
    (p.step pins inpEnable inpCompleted inpData inpReceiving).memory.write = false := by
  unfold step
  cases p.pc with
  | start =>
    dsimp only
    split
    · split
      · next outBusy _ _ _ => exact @assembleTriangles_reads { p with outBusy := outBusy } h _ _ _
      · exact h
      · exact h
    · exact h
  | betweenTriangles draw triangleIndex => exact fetchComponents_reads h draw triangleIndex []
  | fetching draw triangleIndex readVertices =>
    dsimp only
    split
    · exact @fetchComponents_reads { p with memory := .low } rfl draw triangleIndex _
    · exact h
  | sending draw triangleIndex readVertices call =>
    dsimp only
    split
    · exact h
    · next ports _ => exact @assembleTriangles_reads { p with nextBlock := ports } h _ _ _
  | aborted e => exact h

end PrimitiveAssembler

namespace ShaderFrontendBlock
variable {s : ShaderFrontendBlock}

theorem sendInputs_memory (r : FrontendRequest) (index : Nat) (s : ShaderFrontendBlock) :
    (s.sendInputs r index).memory = s.memory := by
  unfold sendInputs
  split <;> rfl

theorem executeIsa_memory (r : FrontendRequest) (s : ShaderFrontendBlock) :
    (s.executeIsa r).memory = s.memory := by
  unfold executeIsa
  split <;> rfl

theorem storeCachedIsa_memory (r : FrontendRequest) (slot : Fin 2) (s : ShaderFrontendBlock) :
    (s.storeCachedIsa r slot).memory = s.memory := by
  unfold storeCachedIsa
  split
  · rfl
  · dsimp only
    split <;> rfl

theorem loadDwords_reads (h : s.memory.write = false) (r : FrontendRequest) (data : List Dword)
    (dwordsToLoad : Nat) : (s.loadDwords r data dwordsToLoad).memory.write = false := by
  unfold loadDwords
  split
  · split
    · exact h
    · exact h
  · dsimp only
    rw [storeCachedIsa_memory]
    exact h

theorem getIsa_reads (h : s.memory.write = false) (r : FrontendRequest) :
    (s.getIsa r).memory.write = false := by
  unfold getIsa
  split
  · rw [executeIsa_memory]
    exact h
  · split
    · rw [storeCachedIsa_memory]
      exact h
    · exact loadDwords_reads h r [] 1

theorem receiveRequest_reads (h : s.memory.write = false) (clientIndex shaderUnitIndex : Nat)
    (received : List Dword) :
    (s.receiveRequest clientIndex shaderUnitIndex received).memory.write = false := by
  unfold receiveRequest
  dsimp only
  split
  · exact h
  · exact getIsa_reads h _

theorem loadedDword_reads (h : s.memory.write = false) (r : FrontendRequest) (data : List Dword)
    (dword : Dword) (dwordsToLoad : Nat) :
    (s.loadedDword r data dword dwordsToLoad).memory.write = false := by
  unfold loadedDword
  dsimp only
  split
  · split
    · exact h
    · split
      · exact h
      · exact loadDwords_reads h r _ _
  · exact loadDwords_reads h r _ _

theorem stepRequest_reads (h : s.memory.write = false) (clientsCount shaderUnitsCount : Nat)
    (inputs : ShaderFrontendInputs) :
    (s.stepRequest clientsCount shaderUnitsCount inputs).memory.write = false := by
  unfold stepRequest
  cases s.requestPc with
  | start =>
    dsimp only
    split
    · split
      · exact h
      · exact h
    · exact h
  | receivingHeader clientIndex shaderUnitIndex call =>
    dsimp only
    split
    · exact h
    · next ports _ =>
      exact @receiveRequest_reads { s with
        clientRequests := Function.update s.clientRequests clientIndex ports } h _ _ _
  | receivingRequest clientIndex shaderUnitIndex received => exact receiveRequest_reads h _ _ _
  | loadingIsa r data dwordsToLoad =>
    dsimp only
    split
    · exact @loadedDword_reads { s with
        memory := { s.memory with enable := false, address := 0 } } h _ _ _ _
    · exact h
  | storingIsa r data call =>
    dsimp only
    split
    · exact h
    · rw [executeIsa_memory]
      exact h
  | executingIsa r call =>
    dsimp only
    split
    · exact h
    · rw [sendInputs_memory]
      exact h
  | sendingInputs r index =>
    dsimp only
    rw [sendInputs_memory]
    exact h
  | aborted e => exact h

/-- The other thread has no part in the memory signals. -/
theorem step_reads (htracked : s.Tracked) (h : s.memory.write = false)
    (clientsCount shaderUnitsCount : Nat) (responseFirst : Bool) (inputs : ShaderFrontendInputs) :
    (s.step clientsCount shaderUnitsCount responseFirst inputs).memory.write = false := by
  obtain ⟨hrequest, hresponse⟩ := htracked
  unfold step
  cases responseFirst with
  | true =>
    rw [if_pos rfl]
    obtain ⟨-, hsame⟩ := stepResponse_leaves hresponse shaderUnitsCount inputs
    apply stepRequest_reads
    rw [hsame.memory]
    exact h
  | false =>
    rw [if_neg (by decide)]
    obtain ⟨-, -, hsame⟩ := stepRequest_spec hrequest clientsCount shaderUnitsCount inputs
    obtain ⟨-, hsame'⟩ := stepResponse_leaves (hsame.tracked hresponse) shaderUnitsCount inputs
    rw [hsame'.memory]
    exact stepRequest_reads h clientsCount shaderUnitsCount inputs

end ShaderFrontendBlock

/-! ## Blits -/

/-- The dwords that a command of the blitter writes in the memory. -/
def BlitterSignals.Writes (command : BlitterSignals) (address : MemoryAddressType) : Prop :=
  (command.commandType = .copyToMem ∨ command.commandType = .fillMem) ∧
    ∃ k < command.sizeInDwords.toNat, address = dwordAddress command.memoryPtr k

/-- The signals that the command streamer launches a blit with. -/
def CommandStreamer.BlitData.signals (blit : CommandStreamer.BlitData) : BlitterSignals :=
  ⟨blit.blitType, blit.memoryPtr, blit.userPtr, BitVec.ofNat 16 blit.sizeInDwords⟩

namespace CommandStreamer
variable {permitted : MemoryAddressType → Prop} {s : CommandStreamer}

/-- The signals to the blitter change with a blit that is launched, and go down. -/
theorem step_bltBlock (time : Nat) (inpGpuBusyNoCs : Bool) (s : CommandStreamer) :
    (s.step time inpGpuBusyNoCs).bltBlock = s.bltBlock ∨
      (s.step time inpGpuBusyNoCs).bltBlock = .low ∨
      ∃ command, s.dispatched inpGpuBusyNoCs = some command ∧ command.type = .blit ∧
        (s.step time inpGpuBusyNoCs).bltBlock = command.blitData.signals := by
  unfold step
  cases s.pc with
  | start =>
    dsimp only
    cases hdispatched : s.dispatched inpGpuBusyNoCs with
    | none => exact .inl rfl
    | some command =>
      unfold launch
      dsimp only
      cases hcommand : command.type with
      | draw => exact .inl rfl
      | blit => exact .inr (.inr ⟨command, rfl, hcommand, rfl⟩)
  | launched =>
    unfold lower
    cases s.command.type with
    | draw => exact .inl rfl
    | blit => exact .inr (.inl rfl)

theorem step_writes (h : ∀ address, s.bltBlock.Writes address → permitted address) {time : Nat}
    {inpGpuBusyNoCs : Bool}
    (hlaunched : ∀ command, s.dispatched inpGpuBusyNoCs = some command → command.type = .blit →
      ∀ address, command.blitData.signals.Writes address → permitted address) :
    ∀ address, (s.step time inpGpuBusyNoCs).bltBlock.Writes address → permitted address := by
  intro address hwrites
  obtain hsame | hlow | ⟨command, hdispatched, hblit, hsignals⟩ :=
    step_bltBlock time inpGpuBusyNoCs s
  · rw [hsame] at hwrites
    exact h address hwrites
  · rw [hlow] at hwrites
    obtain ⟨hnone | hnone, -⟩ := hwrites
    · cases hnone
    · cases hnone
  · rw [hsignals] at hwrites
    exact hlaunched command hdispatched hblit address hwrites

end CommandStreamer

namespace Blitter
variable {permitted : MemoryAddressType → Prop} {b : Blitter}

/-- The block writes what the command that it works on permits. -/
structure Confined (permitted : MemoryAddressType → Prop) (b : Blitter) : Prop where
  memory : b.memory.Permitted permitted
  blit : ∀ blit dwordIndex, b.pc = .accessing blit dwordIndex → blit.isWrite = true →
    ∀ k < blit.sizeInDwords, permitted (dwordAddress blit.memoryPtr k)

theorem Idle.confined (h : b.Idle) : b.Confined permitted where
  memory := MemorySignals.permitted_disabled h.enable
  blit := by
    intro blit dwordIndex hpc
    rw [h.pc] at hpc
    cases hpc

theorem copy_confined (h : b.memory.Permitted permitted) {blit : Blit}
    (hblit : blit.isWrite = true → ∀ k < blit.sizeInDwords, permitted (dwordAddress blit.memoryPtr k))
    (outBusy : Bool) (dwordIndex : Nat) : (b.copy outBusy blit dwordIndex).Confined permitted := by
  unfold copy
  split
  · next hlt =>
    constructor
    · exact fun _ hw => hblit hw dwordIndex hlt
    · intro blit' dwordIndex' hpc
      cases hpc
      exact hblit
  · split
    · exact ⟨h, fun _ _ hpc => by cases hpc⟩
    · exact ⟨h, fun _ _ hpc => by cases hpc⟩

theorem Confined.step (h : b.Confined permitted) {command : BlitterSignals}
    (hcommand : ∀ address, command.Writes address → permitted address) (inpCompleted : Bool)
    (inpData : MemoryDataType) : (b.step command inpCompleted inpData).Confined permitted := by
  unfold Blitter.step
  cases hpc : b.pc with
  | start =>
    dsimp only
    split
    · exact h
    · split
      · next outBusy _ =>
        apply @copy_confined permitted { b with outBusy := outBusy } h.memory
        intro hwrite k hk
        exact hcommand _ ⟨of_decide_eq_true hwrite, k, hk, rfl⟩
      · exact ⟨h.memory, fun _ _ hpc' => by cases hpc'⟩
  | accessing blit dwordIndex =>
    have hblit := h.blit blit dwordIndex hpc
    dsimp only
    split
    · split
      · exact @copy_confined permitted { b with memory := .low }
          (MemorySignals.permitted_disabled rfl) blit hblit _ _
      · exact @copy_confined permitted { b with
          memory := .low
          userMemory := Function.update b.userMemory (userAddress blit.userPtr dwordIndex) inpData }
          (MemorySignals.permitted_disabled rfl) blit hblit _ _
    · refine ⟨MemorySignals.permitted_disabled rfl, ?_⟩
      intro blit' dwordIndex' hpc'
      exact h.blit blit' dwordIndex' (hpc.trans hpc')
  | aborted e => exact h

end Blitter

/-! ## The coordinates of fragments -/

/-- A receive call of one element is in one of the `wait()`s of its handshake, and what it
    returns is what was offered. -/
theorem receive_returned {α : Type} {args : ReceiveArgs} (hone : args.packagesCount = 1)
    (hports : args.dataPortsCount = 1) (hcount : args.dataToReceiveCount = 1) {call : ReceiveCall α}
    (hcall : call.AtHandshake) {inpSending : Bool} {inpData : Nat → α} {ports ports' : ReceivePorts}
    {received : List α}
    (h : call.resume args inpSending inpData ports = (.returned true received, ports')) :
    inpSending = true ∧ received = [inpData 0] := by
  have hawait : ∀ clocksWaiting,
      awaitSending args inpSending inpData clocksWaiting ports = (.returned true received, ports') →
        inpSending = true ∧ received = [inpData 0] := by
    intro clocksWaiting h
    unfold awaitSending at h
    split at h
    · next hsending =>
      unfold receivePackages ReceiveArgs.readPackage at h
      rw [hone, if_neg (by decide), hports, hcount] at h
      cases h
      exact ⟨hsending, rfl⟩
    · cases h
  cases call with
  | acknowledge clocksWaiting => exact hawait _ h
  | stalled clocksWaiting =>
    unfold ReceiveCall.resume at h
    dsimp only at h
    split at h
    · exact hawait _ h
    · split at h
      · cases h
      · exact hawait _ h
  | package dataReceived packagesReceived => exact absurd hcall id

namespace Rasterizer
variable {F : Type} {f : Floats F} {inside : BitVec 16 → BitVec 16 → Prop} {width height : Dword}
  {r : Rasterizer F}

/-- A pixel of the framebuffer that the triangle hits. -/
structure Covers (f : Floats F) (width height : Dword) (vertices : Vertices F) (x y : BitVec 16) :
    Prop where
  width : x.toNat < width.toNat
  height : y.toNat < height.toNat
  hit : hits f vertices x y = true

theorem nextHit_covers {vertices : Vertices F} {iterations : Nat} {x y x' y' : BitVec 16}
    (hy : y.toNat < height.toNat)
    (h : nextHit f vertices width height iterations x y = .hit x' y') :
    Covers f width height vertices x' y' := by
  induction iterations generalizing x y with
  | zero => cases h
  | succ iterations ih =>
    rw [nextHit] at h
    split at h
    · next hx =>
      split at h
      · next hhit =>
        cases h
        exact ⟨hx, hy, hhit⟩
      · exact ih hy h
    · split at h
      · next hy' => exact ih hy' h
      · cases h

/-- What the triangle that the block works on covers is inside, and so is the fragment on
    offer. -/
structure Framed (f : Floats F) (inside : BitVec 16 → BitVec 16 → Prop) (width height : Dword)
    (r : Rasterizer F) : Prop where
  offered : r.perFragment.outSending = true →
    inside (r.perFragment.outDataPorts 0).fragment.x (r.perFragment.outDataPorts 0).fragment.y
  sending : ∀ triangle call, r.pc = .perTriangle triangle call →
    ∀ x y, Covers f width height triangle.vertices x y → inside x y
  scanning : ∀ vertices width' height' fragment call,
    r.pc = .perFragment vertices width' height' fragment call →
      (width' = width ∧ height' = height ∧ fragment.fragment.y.toNat < height.toNat ∧
        call = .acknowledge 1 1) ∧
      ∀ x y, Covers f width height vertices x y → inside x y

theorem Idle.framed (h : r.Idle) : r.Framed f inside width height where
  offered := by
    intro hsending
    rw [h.low.perFragment] at hsending
    cases hsending
  sending := by
    intro triangle call hpc
    rcases h.pc with hstart | ⟨count, call', hreceive, -⟩
    · cases hpc.symm.trans hstart
    · cases hpc.symm.trans hreceive
  scanning := by
    intro vertices width' height' fragment call hpc
    rcases h.pc with hstart | ⟨count, call', hreceive, -⟩
    · cases hpc.symm.trans hstart
    · cases hpc.symm.trans hreceive

/-- At another `wait()` the offer of a fragment is as it was. -/
theorem framed_outside (h : r.Framed f inside width height) {r' : Rasterizer F}
    (hports : r'.perFragment = r.perFragment)
    (hsending : ∀ triangle call, r'.pc ≠ .perTriangle triangle call)
    (hscanning : ∀ vertices width' height' fragment call,
      r'.pc ≠ .perFragment vertices width' height' fragment call) :
    r'.Framed f inside width height where
  offered := by
    rw [hports]
    exact h.offered
  sending := fun _ _ heq => absurd heq (hsending _ _)
  scanning := fun _ _ _ _ _ heq => absurd heq (hscanning _ _ _ _ _)

theorem rasterizeFrom_framed (h : r.Framed f inside width height) {vertices : Vertices F}
    (hcovers : ∀ x y, Covers f width height vertices x y → inside x y) {iterations : Nat}
    {x y : BitVec 16} (hy : y.toNat < height.toNat) :
    (r.rasterizeFrom vertices width height
      (nextHit f vertices width height iterations x y)).Framed f inside width height := by
  cases hhit : nextHit f vertices width height iterations x y with
  | hit x' y' =>
    have hcovered := nextHit_covers hy hhit
    constructor
    · exact fun _ => hcovers x' y' hcovered
    · exact nofun
    · intro vertices' width' height' fragment call hpc
      cases hpc
      exact ⟨⟨rfl, rfl, hcovered.height, rfl⟩, hcovers⟩
  | finished => exact framed_outside h rfl nofun nofun
  | endless => exact framed_outside h rfl nofun nofun

/-- The vertices of a triangle are taken. -/
theorem receiveFromVs_framed (h : r.Framed f inside width height)
    (components : CustomShaderComponents) {inputs : RasterizerInputs} {count : Nat}
    {call : ReceiveCall Dword} (hpc : r.pc = .receiveFromVs count call)
    (hnew : ∀ triangle, (r.step f components inputs).triangles = r.triangles ++ [triangle] →
      ∀ x y, Covers f width height triangle.vertices x y → inside x y) :
    (r.step f components inputs).Framed f inside width height := by
  unfold Rasterizer.step at hnew ⊢
  rw [hpc] at hnew ⊢
  dsimp only at hnew ⊢
  split
  · exact framed_outside h rfl nofun nofun
  · next returned received ports hresume =>
    rw [hresume] at hnew
    dsimp only at hnew
    split
    · next vertices hvertices =>
      rw [hvertices] at hnew
      dsimp only at hnew
      unfold setupPerTriangleFsState at hnew ⊢
      dsimp only at hnew ⊢
      split
      · next hsend =>
        rw [hsend] at hnew
        constructor
        · exact h.offered
        · intro triangle call' hpc'
          cases hpc'
          exact hnew _ rfl
        · exact nofun
      · exact framed_outside h rfl nofun nofun
    · exact framed_outside h rfl nofun nofun

/-- The triangle is sent, and its first pixel is looked for. -/
theorem perTriangle_framed (h : r.Framed f inside width height)
    (components : CustomShaderComponents) {inputs : RasterizerInputs}
    (hwidth : inputs.inpWidth = width) (hheight : inputs.inpHeight = height)
    {triangle : Triangle F} {call : SendCall} (hpc : r.pc = .perTriangle triangle call) :
    (r.step f components inputs).Framed f inside width height := by
  have hcovers := h.sending triangle call hpc
  unfold Rasterizer.step
  rw [hpc]
  dsimp only
  split
  · constructor
    · exact h.offered
    · intro triangle' call' hpc'
      cases hpc'
      exact hcovers
    · exact nofun
  · next ports _ =>
    have hsame : ({ r with perTriangle := ports } : Rasterizer F).Framed f inside width height :=
      ⟨h.offered, h.sending, h.scanning⟩
    unfold rasterize
    rw [hwidth, hheight]
    split
    · next hpos =>
      have hnext := @rasterizeFrom_framed F f inside width height _ hsame triangle.vertices hcovers
        maxIterations 0 0 hpos
      exact hnext
    · exact framed_outside h rfl nofun nofun

/-- A fragment is sent, and the next pixel is looked for. -/
theorem perFragment_framed (h : r.Framed f inside width height)
    (components : CustomShaderComponents) (inputs : RasterizerInputs) {vertices : Vertices F}
    {width' height' : Dword} {fragment : RasterizedFragment} {call : SendCall}
    (hpc : r.pc = .perFragment vertices width' height' fragment call) :
    (r.step f components inputs).Framed f inside width height := by
  obtain ⟨⟨rfl, rfl, hy, rfl⟩, hcovers⟩ := h.scanning _ _ _ _ _ hpc
  unfold Rasterizer.step
  rw [hpc]
  dsimp only
  cases hreceiving : inputs.perFragmentReceiving with
  | false =>
    rw [resume_send_waits]
    refine ⟨h.offered, nofun, ?_⟩
    intro vertices' width'' height'' fragment' call hpc'
    cases hpc'
    exact ⟨⟨rfl, rfl, hy, rfl⟩, hcovers⟩
  | true =>
    obtain ⟨ports', hresume, hlow⟩ := resume_send_returns fragment r.perFragment
    rw [hresume]
    have hquiet : ({ r with perFragment := ports' } : Rasterizer F).Framed f inside width'
        height' := by
      refine ⟨?_, h.sending, h.scanning⟩
      intro hsending
      rw [hlow] at hsending
      cases hsending
    have hnext := @rasterizeFrom_framed F f inside width' height' _ hquiet vertices hcovers
      maxIterations (fragment.fragment.x + 1) fragment.fragment.y hy
    exact hnext

/-- A clock, if what a new triangle covers is inside. -/
theorem Framed.step (h : r.Framed f inside width height) (components : CustomShaderComponents)
    {inputs : RasterizerInputs} (hwidth : inputs.inpWidth = width)
    (hheight : inputs.inpHeight = height)
    (hnew : ∀ triangle, (r.step f components inputs).triangles = r.triangles ++ [triangle] →
      ∀ x y, Covers f width height triangle.vertices x y → inside x y) :
    (r.step f components inputs).Framed f inside width height := by
  cases hpc : r.pc with
  | start =>
    unfold Rasterizer.step
    rw [hpc]
    dsimp only
    split
    · exact framed_outside h rfl nofun nofun
    · split
      · exact framed_outside h rfl nofun nofun
      · exact framed_outside h rfl nofun nofun
  | receiveFromVs count call => exact receiveFromVs_framed h components hpc hnew
  | perTriangle triangle call => exact perTriangle_framed h components hwidth hheight hpc
  | perFragment vertices width' height' fragment call =>
    exact perFragment_framed h components inputs hpc
  | endless =>
    unfold Rasterizer.step
    rw [hpc]
    exact h
  | aborted e =>
    unfold Rasterizer.step
    rw [hpc]
    exact h

end Rasterizer

namespace PerFragmentThread
variable {F : Type} {f : Floats F} {inside : BitVec 16 → BitVec 16 → Prop} {t : PerFragmentThread}

/-- The fragments of the batch that the thread works on. -/
def batch (t : PerFragmentThread) : List RasterizedFragment :=
  match t.pc with
  | .start | .aborted _ => []
  | .receiving fragments _ | .sendingRequest fragments _ _ | .receivingResponse fragments _
  | .sendingFragments fragments _ _ _ => fragments

/-- The fragments of the batch and the one on offer are inside. -/
structure Framed (inside : BitVec 16 → BitVec 16 → Prop) (t : PerFragmentThread) : Prop where
  batch : ∀ fragment ∈ t.batch, inside fragment.fragment.x fragment.fragment.y
  offered : t.nextBlock.outSending = true →
    inside (t.nextBlock.outDataPorts 0).x (t.nextBlock.outDataPorts 0).y
  sending : ∀ fragments response i call,
    t.pc = .sendingFragments fragments response i call → call = .acknowledge 1 1

theorem Idle.framed (h : t.Idle) : t.Framed inside where
  batch := by
    have hempty := h.empty
    unfold holdsFragments at hempty
    unfold PerFragmentThread.batch
    intro fragment hfragment
    cases hpc : t.pc with
    | start =>
      rw [hpc] at hfragment
      cases hfragment
    | receiving fragments call =>
      rw [hpc] at hempty hfragment
      dsimp only at hempty hfragment
      rw [Bool.not_eq_false', List.isEmpty_iff] at hempty
      rw [hempty] at hfragment
      cases hfragment
    | aborted e =>
      rw [hpc] at hfragment
      cases hfragment
    | sendingRequest | receivingResponse | sendingFragments =>
      rw [hpc] at hempty
      cases hempty
  offered := by
    intro hsending
    rw [h.low.nextBlock] at hsending
    cases hsending
  sending := by
    have hempty := h.empty
    unfold holdsFragments at hempty
    intro fragments response i call hpc
    rw [hpc] at hempty
    cases hempty

/-- While the offer of a fragment is as it was, the fragments of the batch count. -/
theorem framed_outside (h : t.Framed inside) {t' : PerFragmentThread}
    (hports : t'.nextBlock = t.nextBlock)
    (hbatch : ∀ fragment ∈ t'.batch,
      inside fragment.fragment.x fragment.fragment.y)
    (hpc : ∀ fragments response i call, t'.pc ≠ .sendingFragments fragments response i call) :
    t'.Framed inside where
  batch := hbatch
  offered := by
    rw [hports]
    exact h.offered
  sending := fun _ _ _ _ heq => absurd heq (hpc _ _ _ _)

theorem buildRequest_framed (h : t.Framed inside) {fragments : List RasterizedFragment}
    (hfragments : ∀ fragment ∈ fragments,
      inside fragment.fragment.x fragment.fragment.y)
    (pins : FragmentShaderPins) (perTriangleAttribs : Nat → Dword) :
    (buildRequest f pins perTriangleAttribs fragments t).Framed inside := by
  unfold buildRequest
  split
  · exact framed_outside h rfl (by intro _ h; cases h) nofun
  · dsimp only
    split
    · exact framed_outside h rfl hfragments nofun
    · exact framed_outside h rfl (by intro _ h; cases h) nofun

theorem sendFragments_framed (h : t.Framed inside) {fragments : List RasterizedFragment}
    (hfragments : ∀ fragment ∈ fragments,
      inside fragment.fragment.x fragment.fragment.y)
    (response : List Dword) (i : Nat) :
    (sendFragments f fragments response i t).Framed inside := by
  unfold sendFragments
  cases hfragment : fragments[i]? with
  | none => exact framed_outside h rfl (by intro _ h; cases h) nofun
  | some fragment =>
    constructor
    · exact hfragments
    · exact fun _ => hfragments fragment (List.mem_of_getElem? hfragment)
    · intro fragments' response' i' call hpc
      cases hpc
      rfl

theorem receivedFragment_framed (h : t.Framed inside) {fragments : List RasterizedFragment}
    (hfragments : ∀ fragment ∈ fragments,
      inside fragment.fragment.x fragment.fragment.y)
    (pins : FragmentShaderPins) (perTriangleAttribs : Nat → Dword)
    {outcome : ReceiveOutcome RasterizedFragment} {ports : ReceivePorts}
    (hreceived : ∀ received, outcome = .returned true received → ∀ fragment ∈ received,
      inside fragment.fragment.x fragment.fragment.y) :
    (receivedFragment f pins perTriangleAttribs fragments t (outcome, ports)).Framed
      inside := by
  have hports : ({ t with previousBlock := ports } : PerFragmentThread).Framed inside :=
    ⟨h.batch, h.offered, h.sending⟩
  cases outcome with
  | suspended call => exact framed_outside h rfl hfragments nofun
  | returned result received =>
    cases result with
    | true =>
      have hall : ∀ fragment ∈ fragments ++ received,
          inside fragment.fragment.x fragment.fragment.y := by
        intro fragment hfragment
        rcases List.mem_append.mp hfragment with hold | hnew
        · exact hfragments fragment hold
        · exact hreceived received rfl fragment hnew
      unfold receivedFragment
      dsimp only
      split
      · exact framed_outside hports rfl hall nofun
      · exact buildRequest_framed hports hall pins perTriangleAttribs
    | false =>
      unfold receivedFragment
      dsimp only
      split
      · exact framed_outside h rfl (by intro _ h; cases h) nofun
      · exact buildRequest_framed hports hfragments pins perTriangleAttribs

/-- A call for a fragment is in its handshake. -/
theorem calls_atHandshake {fragments : List RasterizedFragment}
    {call : ReceiveCall RasterizedFragment} (hpc : t.pc = .receiving fragments call)
    (hcalls : t.Away ∨ (∃ fragments, t.Waits fragments) ∨ ∃ fragments, t.GivesUp fragments) :
    call.AtHandshake := by
  rcases hcalls with haway | ⟨fragments', hwaits⟩ | ⟨fragments', hgivesUp⟩
  · exact absurd hpc (haway.1 fragments call)
  · have heq := hpc.symm.trans hwaits.1
    cases heq
    trivial
  · have heq := hpc.symm.trans hgivesUp.1
    cases heq
    trivial

theorem Framed.step (h : t.Framed inside)
    (hcalls : t.Away ∨ (∃ fragments, t.Waits fragments) ∨ ∃ fragments, t.GivesUp fragments)
    (pins : FragmentShaderPins) {inputs : PerFragmentInputs}
    (hoffered : inputs.inpSending = true →
      inside (inputs.inpData 0).fragment.x (inputs.inpData 0).fragment.y) :
    (t.step f pins inputs).Framed inside := by
  have hbatch := h.batch
  unfold PerFragmentThread.batch at hbatch
  unfold PerFragmentThread.step
  cases hpc : t.pc with
  | start => exact framed_outside h rfl (by intro _ h; cases h) nofun
  | receiving fragments call =>
    rw [hpc] at hbatch
    apply receivedFragment_framed h hbatch
    intro received houtcome fragment hfragment
    obtain ⟨hsending, hreceived⟩ := receive_returned rfl rfl rfl (calls_atHandshake hpc hcalls)
      (Prod.ext houtcome rfl)
    rw [hreceived, List.mem_singleton] at hfragment
    rw [hfragment]
    exact hoffered hsending
  | sendingRequest fragments request call =>
    rw [hpc] at hbatch
    dsimp only
    split
    · exact framed_outside h rfl hbatch nofun
    · exact framed_outside h rfl hbatch nofun
  | receivingResponse fragments call =>
    rw [hpc] at hbatch
    dsimp only
    split
    · exact framed_outside h rfl hbatch nofun
    · next response ports _ =>
      have hsame : ({ t with response := ports } : PerFragmentThread).Framed inside :=
        ⟨h.batch, h.offered, h.sending⟩
      exact sendFragments_framed hsame hbatch response 0
  | sendingFragments fragments response i call =>
    rw [hpc] at hbatch
    obtain rfl := h.sending _ _ _ _ hpc
    dsimp only
    cases hreceiving : inputs.nextBlockReceiving with
    | false =>
      rw [resume_send_waits]
      refine ⟨hbatch, h.offered, ?_⟩
      intro fragments' response' i' call hpc'
      cases hpc'
      rfl
    | true =>
      obtain ⟨ports', hresume, hlow⟩ := resume_send_returns
        (shadedFragment f (fragments.getD i default) response i) t.nextBlock
      rw [hresume]
      have hquiet : ({ t with nextBlock := ports' } : PerFragmentThread).Framed inside := by
        refine ⟨h.batch, ?_, h.sending⟩
        intro hsending
        rw [hlow] at hsending
        cases hsending
      exact sendFragments_framed hquiet hbatch response (i + 1)
  | aborted e => exact h

end PerFragmentThread

namespace OutputMerger
variable {F : Type} {f : Floats F} {permitted : MemoryAddressType → Prop}
  {inside : BitVec 16 → BitVec 16 → Prop} {pins : OutputMergerPins} {m : OutputMerger}

/-- The pixel at coordinates that are inside may be written. -/
structure Pixels (permitted : MemoryAddressType → Prop) (inside : BitVec 16 → BitVec 16 → Prop)
    (pins : OutputMergerPins) : Prop where
  color : ∀ x y, inside x y → permitted (colorDword pins x y)
  depth : pins.depthEnable = true → ∀ x y, inside x y → permitted (depthDword pins x y)

/-- The block writes the pixel of the fragment that it works on. -/
structure Confined (permitted : MemoryAddressType → Prop) (pins : OutputMergerPins)
    (m : OutputMerger) : Prop where
  memory : m.memory.Permitted permitted
  receiving : ∀ call, m.pc = .receiving call → call.AtHandshake
  readingDepth : ∀ fragment depthAddress, m.pc = .readingDepth fragment depthAddress →
    permitted depthAddress ∧ permitted (colorDword pins fragment.x fragment.y)
  writingDepth : ∀ fragment, m.pc = .writingDepth fragment →
    permitted (colorDword pins fragment.x fragment.y)

theorem Idle.confined (h : m.Idle) : m.Confined permitted pins where
  memory := MemorySignals.permitted_disabled h.enable
  receiving := by
    intro call hpc
    obtain ⟨call', hpc', hcall⟩ := h.pc
    have heq := hpc.symm.trans hpc'
    cases heq
    exact hcall
  readingDepth := by
    intro fragment depthAddress hpc
    obtain ⟨call, hpc', -⟩ := h.pc
    have heq := hpc.symm.trans hpc'
    cases heq
  writingDepth := by
    intro fragment hpc
    obtain ⟨call, hpc', -⟩ := h.pc
    have heq := hpc.symm.trans hpc'
    cases heq

theorem receive_confined (h : m.memory.Permitted permitted) : m.receive.Confined permitted pins where
  memory := h
  receiving := by
    intro call hpc
    cases hpc
    trivial
  readingDepth := nofun
  writingDepth := nofun

theorem writeColor_confined {fragment : ShadedFragment}
    (hcolor : permitted (colorDword pins fragment.x fragment.y)) :
    (m.writeColor pins fragment).Confined permitted pins where
  memory := fun _ _ => hcolor
  receiving := nofun
  readingDepth := nofun
  writingDepth := nofun

theorem merge_confined (hpixels : Pixels permitted inside pins) {fragment : ShadedFragment}
    (hinside : inside fragment.x fragment.y) : (m.merge pins fragment).Confined permitted pins := by
  have hcolor := hpixels.color _ _ hinside
  unfold merge
  split
  · next henable =>
    constructor
    · exact MemorySignals.permitted_reading rfl
    · exact nofun
    · intro fragment' depthAddress hpc
      cases hpc
      exact ⟨hpixels.depth henable _ _ hinside, hcolor⟩
    · exact nofun
  · exact writeColor_confined hcolor

theorem testDepth_confined (h : m.memory.Permitted permitted) {fragment : ShadedFragment}
    {depthAddress : MemoryAddressType} (hdepth : permitted depthAddress)
    (hcolor : permitted (colorDword pins fragment.x fragment.y)) (inpData : MemoryDataType) :
    (testDepth f pins fragment depthAddress inpData m).Confined permitted pins := by
  unfold testDepth
  dsimp only
  split
  · exact receive_confined h
  · split
    · constructor
      · exact fun _ _ => hdepth
      · exact nofun
      · exact nofun
      · intro fragment' hpc
        cases hpc
        exact hcolor
    · exact writeColor_confined hcolor

theorem Confined.step (h : m.Confined permitted pins) (hpixels : Pixels permitted inside pins)
    {inpSending : Bool} {inpFragment : Nat → ShadedFragment}
    (hoffered : inpSending = true → inside (inpFragment 0).x (inpFragment 0).y)
    (inpCompleted : Bool) (inpData : MemoryDataType) :
    (m.step f pins inpSending inpFragment inpCompleted inpData).Confined permitted pins := by
  unfold OutputMerger.step
  cases hpc : m.pc with
  | receiving call =>
    have hcall := h.receiving call hpc
    dsimp only
    cases inpSending with
    | true =>
      rw [resume_offered hcall]
      exact merge_confined hpixels (hoffered rfl)
    | false =>
      obtain ⟨clocksWaiting, hresume⟩ := @ReceiveCall.resume_silent _ (Transfer.receive true) rfl
        inpFragment m.previousBlock call hcall
      rw [hresume]
      refine ⟨h.memory, ?_, nofun, nofun⟩
      intro call' hpc'
      cases hpc'
      trivial
  | readingDepth fragment depthAddress =>
    obtain ⟨hdepth, hcolor⟩ := h.readingDepth _ _ hpc
    dsimp only
    split
    · apply testDepth_confined _ hdepth hcolor
      exact MemorySignals.permitted_disabled rfl
    · refine ⟨MemorySignals.permitted_disabled rfl, ?_, ?_, ?_⟩
      · exact fun call hpc' => h.receiving call (hpc.trans hpc')
      · exact fun fragment' depthAddress' hpc' => h.readingDepth _ _ (hpc.trans hpc')
      · exact fun fragment' hpc' => h.writingDepth _ (hpc.trans hpc')
  | writingDepth fragment =>
    have hcolor := h.writingDepth _ hpc
    dsimp only
    split
    · exact writeColor_confined hcolor
    · refine ⟨MemorySignals.permitted_disabled rfl, ?_, ?_, ?_⟩
      · exact fun call hpc' => h.receiving call (hpc.trans hpc')
      · exact fun fragment' depthAddress' hpc' => h.readingDepth _ _ (hpc.trans hpc')
      · exact fun fragment' hpc' => h.writingDepth _ (hpc.trans hpc')
  | writingColor =>
    dsimp only
    split
    · exact receive_confined (MemorySignals.permitted_disabled rfl)
    · refine ⟨MemorySignals.permitted_disabled rfl, ?_, ?_, ?_⟩
      · exact fun call hpc' => h.receiving call (hpc.trans hpc')
      · exact fun fragment' depthAddress' hpc' => h.readingDepth _ _ (hpc.trans hpc')
      · exact fun fragment' hpc' => h.writingDepth _ (hpc.trans hpc')
  | aborted e => exact h

end OutputMerger

/-! ## The whole chip -/

namespace Gpu

/-- What is fixed before a run. -/
structure Run (F : Type) where
  floats : Floats F
  alu : Alu Dword
  config : GpuConfig
  env : GpuEnvironment
  unit0 : ShaderUnit Dword
  unit1 : ShaderUnit Dword

/-- The state behind clock `n`. -/
def Run.state {F : Type} (r : Run F) (n : Nat) : Gpu F :=
  after r.floats r.alu r.config r.env r.unit0 r.unit1 n

/-- The command that is launched at clock `n`. -/
def Run.launched {F : Type} (r : Run F) (n : Nat) : Option CommandStreamer.Command :=
  (r.state n).dispatched r.env n

variable {F : Type} {f : Floats F} {config : GpuConfig} {env : GpuEnvironment} {s : Gpu F}

theorem Run.state_succ (r : Run F) (n : Nat) :
    r.state (n + 1) = (r.state n).step r.floats r.alu r.config r.env n := rfl

theorem Run.tracked (r : Run F) (n : Nat) : (r.state n).Tracked r.floats r.config :=
  tracked_after r.floats r.alu r.config r.env r.unit0 r.unit1 n

/-- A triangle that was set up from clock `n` to clock `m` covers the pixel. -/
def Run.Covered (r : Run F) (n m : Nat) (x y : BitVec 16) : Prop :=
  ∃ k triangle, (r.state n).fragments.rasterizer.triangles.length ≤ k ∧
    (r.state m).fragments.rasterizer.triangles[k]? = some triangle ∧
    Rasterizer.Covers r.floats r.config.framebufferWidth r.config.framebufferHeight
      triangle.vertices x y

/-- The dwords that a run writes from clock `n` to clock `m`: those of the pixels that a triangle
    covers, and the targets of the blits that are launched. -/
inductive Run.MayWrite (r : Run F) (n m : Nat) : MemoryAddressType → Prop
  | color (x y : BitVec 16) (h : r.Covered n m x y) :
      MayWrite r n m (colorDword r.config.outputMerger x y)
  | depth (henable : r.config.depthEnable = true) (x y : BitVec 16) (h : r.Covered n m x y) :
      MayWrite r n m (depthDword r.config.outputMerger x y)
  | blit (k : Nat) (hn : n ≤ k) (hm : k < m) (command : CommandStreamer.Command)
      (hlaunched : r.launched k = some command) (hblit : command.type = .blit)
      (address : MemoryAddressType) (hwrites : command.blitData.signals.Writes address) :
      MayWrite r n m address

theorem triangles_step (htracked : s.Tracked f config) (alu : Alu Dword) (env : GpuEnvironment)
    (clock : Nat) : s.fragments.rasterizer.triangles <+:
      (s.step f alu config env clock).fragments.rasterizer.triangles := by
  obtain ⟨rest, hrest⟩ := htracked.pipeline.triangles.triangles {
    inpWidth := config.framebufferWidth
    inpHeight := config.framebufferHeight
    inpSending := s.vertexShader.nextBlock.outSending
    inpData := s.vertexShader.nextBlock.outDataPorts
    perTriangleReceiving := s.fragments.perTriangle.previousBlock.outReceiving
    perFragmentReceiving := s.fragments.perFragment.previousBlock.outReceiving }
  exact ⟨rest, hrest.symm⟩

/-- The triangles that were set up stay recorded. -/
theorem triangles_prefix (r : Run F) {n m : Nat} (hnm : n ≤ m) :
    (r.state n).fragments.rasterizer.triangles <+: (r.state m).fragments.rasterizer.triangles := by
  induction m, hnm using Nat.le_induction with
  | base => exact List.prefix_rfl
  | succ m hnm ih => exact ih.trans (triangles_step (r.tracked m) r.alu r.env m)

/-- Two of the clients of the memory do not write. -/
structure Reads (s : Gpu F) : Prop where
  shaderFrontend : s.shaderFrontend.memory.write = false
  primitiveAssembler : s.primitiveAssembler.memory.write = false

theorem Reads.step (h : s.Reads) (htracked : s.Tracked f config) (alu : Alu Dword)
    (env : GpuEnvironment) (clock : Nat) : (s.step f alu config env clock).Reads where
  shaderFrontend :=
    ShaderFrontendBlock.step_reads htracked.shaderFrontend h.shaderFrontend 2 2 _ _
  primitiveAssembler := PrimitiveAssembler.step_reads h.primitiveAssembler _ _ _ _ _

theorem reads_after (r : Run F) (n : Nat) : (r.state n).Reads := by
  induction n with
  | zero => exact ⟨rfl, rfl⟩
  | succ n ih => exact ih.step (r.tracked n) r.alu r.env n

/-- Nothing outside of `permitted` is written or going to be, and no fragment that is not
    `inside` is on its way. -/
structure Confined (f : Floats F) (permitted : MemoryAddressType → Prop)
    (inside : BitVec 16 → BitVec 16 → Prop) (config : GpuConfig) (s : Gpu F) : Prop where
  commandStreamer : ∀ address, s.commandStreamer.bltBlock.Writes address → permitted address
  blitter : s.blitter.Confined permitted
  memoryController : s.memoryController.Confined permitted
  rasterizer :
    s.fragments.rasterizer.Framed f inside config.framebufferWidth config.framebufferHeight
  perFragment : s.fragments.perFragment.Framed inside
  outputMerger : s.outputMerger.Confined permitted config.outputMerger

section
variable {permitted : MemoryAddressType → Prop} {inside : BitVec 16 → BitVec 16 → Prop}

theorem Idle.confined (h : s.Idle config) (hquiet : s.commandStreamer.Quiet) :
    s.Confined f permitted inside config where
  commandStreamer := by
    intro address hwrites
    obtain ⟨hcopy | hfill, -⟩ := hwrites
    · rw [hquiet.2] at hcopy
      cases hcopy
    · rw [hquiet.2] at hfill
      cases hfill
  blitter := h.blitter.confined
  memoryController := h.memoryController.confined
  rasterizer := h.rasterizer.framed
  perFragment := h.perFragment.framed
  outputMerger := h.outputMerger.confined

/-- A clock whose blit writes permitted dwords only, and whose triangle covers only pixels that
    are inside. -/
theorem Confined.step (h : s.Confined f permitted inside config) (htracked : s.Tracked f config)
    (hreads : s.Reads) (hpixels : Pixels permitted inside config.outputMerger) (alu : Alu Dword)
    {clock : Nat}
    (hlaunched : ∀ command, s.dispatched env clock = some command → command.type = .blit →
      ∀ address, command.blitData.signals.Writes address → permitted address)
    (hnew : ∀ triangle, (s.step f alu config env clock).fragments.rasterizer.triangles =
        s.fragments.rasterizer.triangles ++ [triangle] →
      ∀ x y, Rasterizer.Covers f config.framebufferWidth config.framebufferHeight
        triangle.vertices x y → inside x y) :
    (s.step f alu config env clock).Confined f permitted inside config where
  commandStreamer := by
    have hpushed : ∀ address,
        (s.commandStreamer.push (env.pushed clock)).bltBlock.Writes address → permitted address :=
      h.commandStreamer
    exact CommandStreamer.step_writes hpushed hlaunched
  blitter := by
    have hsame : ({ s.blitter with userMemory := env.userWrites clock s.blitter.userMemory } :
        Blitter).Confined permitted := ⟨h.blitter.memory, h.blitter.blit⟩
    exact hsame.step h.commandStreamer _ _
  memoryController := by
    apply h.memoryController.step
    intro i
    match i with
    | 0 => exact MemorySignals.permitted_reading hreads.primitiveAssembler
    | 1 => exact h.blitter.memory
    | 2 => exact h.outputMerger.memory
    | 3 => exact MemorySignals.permitted_reading hreads.shaderFrontend
  rasterizer := h.rasterizer.step _ rfl rfl hnew
  perFragment := h.perFragment.step htracked.pipeline.batch.calls _ h.rasterizer.offered
  outputMerger := h.outputMerger.step hpixels h.perFragment.offered _ _

end

/-- The clocks behind one without work confine what is asked for. -/
theorem confined_after {r : Run F} {n m k : Nat} (hidle : (r.state n).Idle r.config)
    (hquiet : (r.state n).commandStreamer.Quiet) (hnk : n ≤ k) (hkm : k ≤ m) :
    (r.state k).Confined r.floats (r.MayWrite n m) (r.Covered n m) r.config := by
  induction k, hnk using Nat.le_induction with
  | base => exact hidle.confined hquiet
  | succ k hnk ih =>
    have hpixels : Pixels (r.MayWrite n m) (r.Covered n m) r.config.outputMerger :=
      ⟨Run.MayWrite.color, Run.MayWrite.depth⟩
    apply (ih (Nat.le_of_succ_le hkm)).step (r.tracked k) (reads_after r k) hpixels r.alu
    · intro command hlaunched hblit address hwrites
      exact .blit k hnk hkm command hlaunched hblit address hwrites
    · intro triangle htriangles x y hcovers
      have hbefore := triangles_prefix r hnk
      have hlater := triangles_prefix r hkm
      refine ⟨_, triangle, hbefore.length_le, ?_, hcovers⟩
      have hlast : (r.state (k + 1)).fragments.rasterizer.triangles[
          (r.state k).fragments.rasterizer.triangles.length]? = some triangle :=
        (congrArg (·[_]?) htriangles).trans List.getElem?_concat_length
      obtain ⟨rest, hrest⟩ := hlater
      rw [← hrest, List.getElem?_append_left (List.getElem?_eq_some_iff.mp hlast).1]
      exact hlast

/-- **From a clock without work on, a run changes no dword of the memory but the targets of the
    blits that it launches and the pixels that its triangles cover.** -/
theorem memory_confined (r : Run F) (n m : Nat) (hnm : n ≤ m) (hidle : (r.state n).Idle r.config)
    (hquiet : (r.state n).commandStreamer.Quiet) (i : Fin memorySize)
    (hi : ∀ address, r.MayWrite n m address → addressIndex address ≠ i) :
    (r.state m).memory.rawMemory i = (r.state n).memory.rawMemory i := by
  have hrun : ∀ k, n ≤ k → k ≤ m →
      (r.state k).memory.rawMemory i = (r.state n).memory.rawMemory i := by
    intro k hnk
    induction k, hnk using Nat.le_induction with
    | base => exact fun _ => rfl
    | succ k hnk ih =>
      intro hkm
      have hconfined := confined_after hidle hquiet hnk (Nat.le_of_succ_le hkm)
      rw [← ih (Nat.le_of_succ_le hkm)]
      exact Memory.work_outside _ hconfined.memoryController.memory hi
  exact hrun m hnm (Nat.le_refl m)

def pixelRun : Run Dword :=
  ⟨dwordFloats, integerAlu, pixelConfig, pixelEnvironment, pixelUnit, pixelUnit⟩

/-- Dword 300 is behind the first shader, which a blit copies in this time. -/
theorem memory_confined_pixel :
    (pixelRun.state 40).memory.rawMemory ⟨300, by decide⟩ =
      (pixelRun.state 0).memory.rawMemory ⟨300, by decide⟩ := by
  have hblits : (List.range 40).all (fun k => (pixelRun.launched k).all fun command =>
      decide (command.blitData.signals.memoryPtr.toNat % 4 = 0 ∧
        command.blitData.signals.memoryPtr.toNat / 4 +
          command.blitData.signals.sizeInDwords.toNat ≤ 200)) = true := by decide +kernel
  apply memory_confined pixelRun 0 40 (Nat.zero_le 40) (idle_new _ _ _) ⟨rfl, rfl⟩
  intro address hwrite
  cases hwrite with
  | color x y h =>
    obtain ⟨k, triangle, -, -, hcovers⟩ := h
    have hx : x = 0 := BitVec.eq_of_toNat_eq (Nat.lt_one_iff.mp hcovers.width)
    have hy : y = 0 := BitVec.eq_of_toNat_eq (Nat.lt_one_iff.mp hcovers.height)
    rw [hx, hy]
    decide
  | depth henable x y h => cases henable
  | blit k hn hm command hlaunched hblit _ hwrites =>
    have hfits := List.all_eq_true.mp hblits k (List.mem_range.mpr hm)
    rw [hlaunched, Option.all_some, decide_eq_true_eq] at hfits
    obtain ⟨haligned, hfits⟩ := hfits
    obtain ⟨-, j, hj, rfl⟩ := hwrites
    have hindex : command.blitData.signals.memoryPtr.toNat / 4 + j < 200 := by omega
    rw [dwordAddress, Nat.mul_comm, addressIndex_add haligned (hindex.trans (by decide))]
    exact Nat.ne_of_lt (hindex.trans (by decide))

end Gpu

end PicoGpu
