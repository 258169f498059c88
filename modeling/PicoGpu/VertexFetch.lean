import PicoGpu.HandshakeLink
import PicoGpu.ReadOnlyData

/- The block `PrimitiveAssembler` over whole runs of the `Gpu`. It reads the vertices of a
   draw a dword at a time, through a memory that other blocks use at the same time, and
   sends a triangle when it has its dwords.

   What is proved: the triangles that it begins to send are those that
   `PrimitiveAssemblerPins.assemble` finds in the memory, each once for each draw, in
   their order (`Gpu.triangles_assembled`), if nothing writes the vertices meanwhile. -/
namespace PicoGpu
open Clocked Streams Atomic

/-! ## One block -/

namespace PrimitiveAssemblerPins
variable (pins : PrimitiveAssemblerPins)

/-- The dwords of a triangle. -/
def triangleSize : Nat := verticesInPrimitive * pins.inpCustomInputComponents.sizes.sum

def primitiveCount : Nat := pins.inpVerticesCount.toNat / verticesInPrimitive

/-- Where a dword of a triangle is. -/
def componentAddress (triangleIndex componentIndex : Nat) : MemoryAddressType :=
  pins.inpVerticesAddress + BitVec.ofNat 32 (triangleIndex * pins.triangleSize * 4) +
    BitVec.ofNat 32 (componentIndex * 4)

/-- A triangle of the vertex buffer. -/
def triangle (memory : MemoryAddressType → MemoryDataType) (triangleIndex : Nat) : List Dword :=
  (List.range pins.triangleSize).map fun componentIndex =>
    memory (pins.componentAddress triangleIndex componentIndex)

/-- The triangles of a draw. -/
def triangles (memory : MemoryAddressType → MemoryDataType) : List (List Dword) :=
  (List.range pins.primitiveCount).map (pins.triangle memory)

theorem componentsToTransfer_eq : pins.componentsToTransfer = .ok pins.triangleSize := by
  unfold componentsToTransfer
  rw [CustomShaderComponents.getTotalCustomComponents_eq]
  rfl

/-- What `assemble` sends while the memory stays as it is. -/
theorem assemble_triangles (rawMemory : Fin memorySize → MemoryDataType) :
    pins.assemble (fun _ => rawMemory) = .ok (pins.triangles (initialMemory rawMemory)) := by
  unfold assemble
  rw [CustomShaderComponents.getTotalCustomComponents_eq]
  rfl

/-- The locals of a draw. -/
def draw : PrimitiveAssembler.Draw where
  vertexBufferAddress := pins.inpVerticesAddress
  primitiveCount := pins.primitiveCount
  componentsToTransfer := pins.triangleSize

theorem triangles_drop (memory : MemoryAddressType → MemoryDataType) {triangleIndex : Nat}
    (h : triangleIndex < pins.primitiveCount) :
    (pins.triangles memory).drop triangleIndex =
      pins.triangle memory triangleIndex :: (pins.triangles memory).drop (triangleIndex + 1) := by
  have hlength : triangleIndex < (pins.triangles memory).length := by
    simpa [triangles] using h
  rw [List.drop_eq_getElem_cons hlength]
  simp [triangles]

theorem triangle_length (memory : MemoryAddressType → MemoryDataType) (triangleIndex : Nat) :
    (pins.triangle memory triangleIndex).length = pins.triangleSize := by
  simp [triangle]

end PrimitiveAssemblerPins

namespace PrimitiveAssembler
variable {pins : PrimitiveAssemblerPins} {memory : MemoryAddressType → MemoryDataType}
  {p : PrimitiveAssembler}

/-- The call of `sendArrayWithParallelPorts`. -/
def sendCall (p : PrimitiveAssembler) : Option (List Dword × SendCall) :=
  match p.pc with
  | .sending _ _ readVertices call => some (readVertices, call)
  | _ => none

/-- Where the block is in a draw, and what it has read of it. -/
def Assembles (pins : PrimitiveAssemblerPins) (memory : MemoryAddressType → MemoryDataType)
    (p : PrimitiveAssembler) : Prop :=
  match p.pc with
  | .start | .aborted _ => True
  | .betweenTriangles draw triangleIndex =>
    draw = pins.draw ∧ triangleIndex < pins.primitiveCount
  | .fetching draw triangleIndex readVertices =>
    draw = pins.draw ∧ triangleIndex < pins.primitiveCount ∧
      readVertices.length < pins.triangleSize ∧
      readVertices = (pins.triangle memory triangleIndex).take readVertices.length ∧
      p.memory.address = pins.componentAddress triangleIndex readVertices.length
  | .sending draw triangleIndex readVertices _ =>
    draw = pins.draw ∧ triangleIndex < pins.primitiveCount ∧
      readVertices = pins.triangle memory triangleIndex

/-- The triangles of the draw that are still to come. -/
def remaining (triangles : List (List Dword)) (p : PrimitiveAssembler) : List (List Dword) :=
  match p.pc with
  | .start | .aborted _ => []
  | .betweenTriangles _ triangleIndex | .fetching _ triangleIndex _ => triangles.drop triangleIndex
  | .sending _ triangleIndex _ _ => triangles.drop (triangleIndex + 1)

/-- A draw begins in this clock. -/
def begins (inpEnable : Bool) (p : PrimitiveAssembler) : Bool :=
  match p.pc with
  | .start => inpEnable
  | _ => false

/-- What happens in the loop over the components, with the first ones of a triangle read. -/
theorem fetchComponents_assembles {triangleIndex : Nat} {readVertices : List Dword}
    (hindex : triangleIndex < pins.primitiveCount) (hle : readVertices.length ≤ pins.triangleSize)
    (hread : readVertices = (pins.triangle memory triangleIndex).take readVertices.length)
    (hrunning : ¬ (p.fetchComponents pins.draw triangleIndex readVertices).Aborted) :
    (p.fetchComponents pins.draw triangleIndex readVertices).Assembles pins memory ∧
      (pins.triangles memory).drop triangleIndex =
        begun none (p.fetchComponents pins.draw triangleIndex readVertices).sendCall ++
          (p.fetchComponents pins.draw triangleIndex readVertices).remaining
            (pins.triangles memory) := by
  unfold fetchComponents at hrunning ⊢
  dsimp only at hrunning ⊢
  by_cases hless : readVertices.length < pins.draw.componentsToTransfer
  · rw [if_pos hless]
    exact ⟨⟨rfl, hindex, hless, hread, rfl⟩, rfl⟩
  · rw [if_neg hless] at hrunning ⊢
    have hall : readVertices = pins.triangle memory triangleIndex := by
      have hlength : readVertices.length = pins.triangleSize :=
        Nat.le_antisymm hle (Nat.le_of_not_lt hless)
      rw [hlength, ← pins.triangle_length memory triangleIndex, List.take_length] at hread
      exact hread
    cases hsend : sendArrayImpl (sendArgs readVertices) p.nextBlock with
    | error e =>
      rw [hsend] at hrunning
      exact absurd ⟨e, rfl⟩ hrunning
    | ok result =>
      obtain ⟨call, ports⟩ := result
      refine ⟨⟨rfl, hindex, hall⟩, ?_⟩
      rw [pins.triangles_drop memory hindex, ← hall]
      rfl

/-- What a clock does: the invariant goes on, and what is still to come is begun or stays. -/
structure Advances (pins : PrimitiveAssemblerPins) (memory : MemoryAddressType → MemoryDataType)
    (inpEnable : Bool) (p p' : PrimitiveAssembler) : Prop where
  assembles : p'.Assembles pins memory
  conserved : p.remaining (pins.triangles memory) ++
      (if p.begins inpEnable then pins.triangles memory else []) =
    begun p.sendCall p'.sendCall ++ p'.remaining (pins.triangles memory)

section
variable {signals : MemorySignals} {nextBlock : SendPorts Dword} {outBusy : Bool}
  {inpEnable inpCompleted inpReceiving : Bool} {inpData : MemoryDataType}

theorem start_advances (hrunning : ¬ (step pins inpEnable inpCompleted inpData inpReceiving
      ⟨.start, signals, nextBlock, outBusy⟩).Aborted) :
    Advances pins memory inpEnable ⟨.start, signals, nextBlock, outBusy⟩
      (step pins inpEnable inpCompleted inpData inpReceiving
        ⟨.start, signals, nextBlock, outBusy⟩) := by
  unfold step at hrunning ⊢
  dsimp only at hrunning ⊢
  cases inpEnable with
  | false => exact ⟨trivial, rfl⟩
  | true =>
    rw [if_pos rfl] at hrunning ⊢
    rw [pins.componentsToTransfer_eq] at hrunning ⊢
    cases hconstruct : RaiiBooleanSetter.construct outBusy with
    | error e =>
      rw [hconstruct] at hrunning
      exact absurd ⟨e, rfl⟩ hrunning
    | ok busy =>
      rw [hconstruct] at hrunning
      change ¬ (assembleTriangles outBusy pins.draw 0
        ⟨.start, signals, nextBlock, busy⟩).Aborted at hrunning
      show Advances pins memory true _
        (assembleTriangles outBusy pins.draw 0 ⟨.start, signals, nextBlock, busy⟩)
      unfold assembleTriangles at hrunning ⊢
      by_cases hany : 0 < pins.draw.primitiveCount
      · rw [if_pos hany, if_neg (by decide)] at hrunning ⊢
        obtain ⟨hassembles, hconserved⟩ :=
          @fetchComponents_assembles pins memory _ 0 [] hany (Nat.zero_le _) rfl hrunning
        exact ⟨hassembles, hconserved⟩
      · rw [if_neg hany] at hrunning ⊢
        have hnone : pins.triangles memory = [] := by
          have hzero : pins.primitiveCount = 0 := Nat.eq_zero_of_not_pos hany
          rw [PrimitiveAssemblerPins.triangles, hzero]
          rfl
        cases hdestruct : RaiiBooleanSetter.destruct outBusy with
        | error e =>
          rw [hdestruct] at hrunning
          exact absurd ⟨e, rfl⟩ hrunning
        | ok busy' =>
          refine ⟨trivial, ?_⟩
          rw [hnone]
          rfl

/-- The component that was fetched is the next one of the triangle. -/
theorem fetched_take {triangleIndex : Nat} {readVertices : List Dword}
    (hless : readVertices.length < pins.triangleSize)
    (hread : readVertices = (pins.triangle memory triangleIndex).take readVertices.length)
    (hdata : inpData = memory (pins.componentAddress triangleIndex readVertices.length)) :
    readVertices ++ [inpData] =
      (pins.triangle memory triangleIndex).take (readVertices ++ [inpData]).length := by
  have hlength : readVertices.length < (pins.triangle memory triangleIndex).length := by
    rw [pins.triangle_length]
    exact hless
  rw [List.length_append, List.length_singleton, List.take_add_one, ← hread,
    List.getElem?_eq_getElem hlength, hdata]
  simp only [PrimitiveAssemblerPins.triangle, List.getElem_map, List.getElem_range]
  rfl

theorem fetching_advances {draw : Draw} {triangleIndex : Nat} {readVertices : List Dword}
    (h : Assembles pins memory ⟨.fetching draw triangleIndex readVertices, signals, nextBlock, outBusy⟩)
    (hdata : inpCompleted = true → inpData = memory signals.address)
    (hrunning : ¬ (step pins inpEnable inpCompleted inpData inpReceiving
      ⟨.fetching draw triangleIndex readVertices, signals, nextBlock, outBusy⟩).Aborted) :
    Advances pins memory inpEnable
      ⟨.fetching draw triangleIndex readVertices, signals, nextBlock, outBusy⟩
      (step pins inpEnable inpCompleted inpData inpReceiving
        ⟨.fetching draw triangleIndex readVertices, signals, nextBlock, outBusy⟩) := by
  obtain ⟨rfl, hindex, hless, hread, haddress⟩ := h
  cases inpCompleted with
  | false => exact ⟨⟨rfl, hindex, hless, hread, haddress⟩, List.append_nil _⟩
  | true =>
    have hread' := fetched_take hless hread ((hdata rfl).trans (congrArg memory haddress))
    obtain ⟨hassembles, hconserved⟩ := @fetchComponents_assembles pins memory
      ⟨.fetching pins.draw triangleIndex readVertices, .low, nextBlock, outBusy⟩ triangleIndex
      (readVertices ++ [inpData]) hindex (by rw [List.length_append]; exact hless) hread'
      hrunning
    exact ⟨hassembles, (List.append_nil _).trans hconserved⟩

theorem sending_advances {draw : Draw} {triangleIndex : Nat} {readVertices : List Dword}
    {call : SendCall}
    (h : Assembles pins memory ⟨.sending draw triangleIndex readVertices call, signals, nextBlock, outBusy⟩)
    (hrunning : ¬ (step pins inpEnable inpCompleted inpData inpReceiving
      ⟨.sending draw triangleIndex readVertices call, signals, nextBlock, outBusy⟩).Aborted) :
    Advances pins memory inpEnable
      ⟨.sending draw triangleIndex readVertices call, signals, nextBlock, outBusy⟩
      (step pins inpEnable inpCompleted inpData inpReceiving
        ⟨.sending draw triangleIndex readVertices call, signals, nextBlock, outBusy⟩) := by
  obtain ⟨rfl, hindex, hall⟩ := h
  unfold step at hrunning ⊢
  dsimp only at hrunning ⊢
  cases hcall : call.resume (sendArgs readVertices) inpReceiving nextBlock with
  | mk next ports =>
    rw [hcall] at hrunning
    cases next with
    | some call' => exact ⟨⟨rfl, hindex, hall⟩, List.append_nil _⟩
    | none =>
      dsimp only at hrunning ⊢
      unfold assembleTriangles at hrunning ⊢
      by_cases hmore : triangleIndex + 1 < pins.draw.primitiveCount
      · rw [if_pos hmore, if_pos (Nat.succ_ne_zero _)] at hrunning ⊢
        exact ⟨⟨rfl, hmore⟩, List.append_nil _⟩
      · rw [if_neg hmore] at hrunning ⊢
        have hlast : (pins.triangles memory).drop (triangleIndex + 1) = [] := by
          have hle : pins.primitiveCount ≤ triangleIndex + 1 := Nat.le_of_not_lt hmore
          apply List.drop_eq_nil_of_le
          simpa [PrimitiveAssemblerPins.triangles] using hle
        cases hdestruct : RaiiBooleanSetter.destruct outBusy with
        | error e =>
          rw [hdestruct] at hrunning
          exact absurd ⟨e, rfl⟩ hrunning
        | ok busy => exact ⟨trivial, (List.append_nil _).trans hlast⟩

end

theorem Assembles.step (h : p.Assembles pins memory) {inpEnable inpCompleted inpReceiving : Bool}
    {inpData : MemoryDataType}
    (hdata : inpCompleted = true → inpData = memory p.memory.address)
    (hrunning : ¬ (p.step pins inpEnable inpCompleted inpData inpReceiving).Aborted) :
    Advances pins memory inpEnable p
      (p.step pins inpEnable inpCompleted inpData inpReceiving) := by
  obtain ⟨pc, signals, nextBlock, outBusy⟩ := p
  cases pc with
  | start => exact start_advances hrunning
  | betweenTriangles draw triangleIndex =>
    obtain ⟨rfl, hindex⟩ := h
    obtain ⟨hassembles, hconserved⟩ := @fetchComponents_assembles pins memory
      ⟨.betweenTriangles pins.draw triangleIndex, signals, nextBlock, outBusy⟩ triangleIndex [] hindex
      (Nat.zero_le _) rfl hrunning
    exact ⟨hassembles, (List.append_nil _).trans hconserved⟩
  | fetching draw triangleIndex readVertices => exact fetching_advances h hdata hrunning
  | sending draw triangleIndex readVertices call => exact sending_advances h hrunning
  | aborted e => exact absurd ⟨e, rfl⟩ hrunning

end PrimitiveAssembler

/-! ## The link to the vertex shader -/

namespace PrimitiveAssembler
variable {pins : PrimitiveAssemblerPins} {p : PrimitiveAssembler}

/-- The draw is one for these pins, and a triangle is sent when it is complete. -/
def DrawsFor (pins : PrimitiveAssemblerPins) (p : PrimitiveAssembler) : Prop :=
  match p.pc with
  | .start | .aborted _ => True
  | .betweenTriangles draw _ => draw = pins.draw
  | .fetching draw _ readVertices => draw = pins.draw ∧ readVertices.length < pins.triangleSize
  | .sending draw _ readVertices _ => draw = pins.draw ∧ readVertices.length = pins.triangleSize

/-- A clock on the link, on which whole triangles are sent. -/
structure SendsTriangles (pins : PrimitiveAssemblerPins) (inpReceiving : Bool)
    (p p' : PrimitiveAssembler) : Prop where
  draws : p'.DrawsFor pins
  sends : PicoGpu.Sends 9 inpReceiving p.sendCall p.nextBlock p'.sendCall p'.nextBlock
    (begun p.sendCall p'.sendCall)
  length : ∀ data ∈ begun p.sendCall p'.sendCall, data.length = pins.triangleSize

theorem fetchComponents_sends (hcall : p.sendCall = none) (inpReceiving : Bool)
    (triangleIndex : Nat) {readVertices : List Dword}
    (hle : readVertices.length ≤ pins.triangleSize) (signals : MemorySignals) (busy : Bool) :
    SendsTriangles pins inpReceiving p
      ({ p with memory := signals, outBusy := busy }.fetchComponents pins.draw triangleIndex
        readVertices) := by
  unfold fetchComponents
  dsimp only
  by_cases hless : readVertices.length < pins.draw.componentsToTransfer
  · rw [if_pos hless]
    refine ⟨⟨rfl, hless⟩, ?_, ?_⟩
    · rw [hcall]
      exact .rests
    · intro data hdata
      rw [hcall] at hdata
      cases hdata
  · rw [if_neg hless]
    cases hsend : sendArrayImpl (sendArgs readVertices) p.nextBlock with
    | error e =>
      refine ⟨trivial, ?_, ?_⟩
      · rw [hcall]
        exact .rests
      · intro data hdata
        rw [hcall] at hdata
        cases hdata
    | ok result =>
      have hlength : readVertices.length = pins.triangleSize :=
        Nat.le_antisymm hle (Nat.le_of_not_lt hless)
      refine ⟨⟨rfl, hlength⟩, ?_, ?_⟩
      · rw [hcall]
        exact .begins hsend
      · intro data hdata
        rw [hcall] at hdata
        have hread : data = readVertices := List.mem_singleton.mp hdata
        rw [hread]
        exact hlength

/-- A clock in which nothing is sent. -/
theorem sendsTriangles_of_frame {p' : PrimitiveAssembler} {inpReceiving : Bool}
    (hdraws : p'.DrawsFor pins) (hcall : p.sendCall = none) (hcall' : p'.sendCall = none)
    (hports : p'.nextBlock = p.nextBlock) : SendsTriangles pins inpReceiving p p' := by
  refine ⟨hdraws, ?_, ?_⟩
  · rw [hcall, hcall', hports]
    exact .rests
  · intro data hdata
    rw [hcall, hcall'] at hdata
    cases hdata

theorem DrawsFor.step (h : p.DrawsFor pins) (inpEnable inpCompleted inpReceiving : Bool)
    (inpData : MemoryDataType) :
    SendsTriangles pins inpReceiving p
      (p.step pins inpEnable inpCompleted inpData inpReceiving) := by
  obtain ⟨pc, signals, nextBlock, outBusy⟩ := p
  cases pc with
  | start =>
    unfold step
    dsimp only
    rw [pins.componentsToTransfer_eq]
    split
    · split
      · next busy components hconstruct hcomponents =>
        cases hcomponents
        show SendsTriangles pins inpReceiving _
          (assembleTriangles outBusy pins.draw 0 ⟨.start, signals, nextBlock, busy⟩)
        unfold assembleTriangles
        split
        · rw [if_neg (by decide)]
          exact @fetchComponents_sends pins ⟨.start, signals, nextBlock, outBusy⟩ rfl inpReceiving 0
            [] (Nat.zero_le _) signals busy
        · split
          · exact sendsTriangles_of_frame trivial rfl rfl rfl
          · exact sendsTriangles_of_frame trivial rfl rfl rfl
      · exact sendsTriangles_of_frame trivial rfl rfl rfl
      · exact sendsTriangles_of_frame trivial rfl rfl rfl
    · exact sendsTriangles_of_frame trivial rfl rfl rfl
  | betweenTriangles draw triangleIndex =>
    obtain rfl : draw = pins.draw := h
    exact @fetchComponents_sends pins ⟨.betweenTriangles pins.draw triangleIndex, signals, nextBlock,
      outBusy⟩ rfl inpReceiving triangleIndex [] (Nat.zero_le _) signals outBusy
  | fetching draw triangleIndex readVertices =>
    obtain ⟨rfl, hless⟩ := h
    cases inpCompleted with
    | false => exact sendsTriangles_of_frame ⟨rfl, hless⟩ rfl rfl rfl
    | true =>
      exact @fetchComponents_sends pins ⟨.fetching pins.draw triangleIndex readVertices, signals,
        nextBlock, outBusy⟩ rfl inpReceiving triangleIndex (readVertices ++ [inpData])
        (by rw [List.length_append]; exact hless) .low outBusy
  | sending draw triangleIndex readVertices call =>
    obtain ⟨rfl, hlength⟩ := h
    unfold step
    dsimp only
    cases hcall : call.resume (sendArgs readVertices) inpReceiving nextBlock with
    | mk next ports =>
      have hnone : ∀ data ∈ ([] : List (List Dword)), data.length = pins.triangleSize := by
        intro data hdata
        cases hdata
      cases next with
      | some call' => exact ⟨⟨rfl, hlength⟩, .resumes hcall, hnone⟩
      | none =>
        dsimp only
        unfold assembleTriangles
        split
        · rw [if_pos (Nat.succ_ne_zero _)]
          exact ⟨rfl, .resumes hcall, hnone⟩
        · split
          · exact ⟨trivial, .resumes hcall, hnone⟩
          · exact ⟨trivial, .resumes hcall, hnone⟩
  | aborted e => exact sendsTriangles_of_frame trivial rfl rfl rfl

end PrimitiveAssembler

/-! ## Whole runs -/

namespace Gpu
variable {F : Type} {r : Run F} {n d : Nat}

/-- A draw begins at this clock. -/
def drawBegins (s : Gpu F) : Bool := s.primitiveAssembler.begins s.commandStreamer.paEnable

/-- The draws that begin in the `d` clocks from clock `n` on. -/
def Run.draws (r : Run F) (n d : Nat) : Nat :=
  (List.range d).countP fun e => (r.state (n + e)).drawBegins

/-- The triangles that the primitive assembler begins to send. -/
def Run.assembled (r : Run F) (n d : Nat) : List (List Dword) :=
  upTo (fun e => begun (r.state (n + e)).primitiveAssembler.sendCall
    (r.state (n + e + 1)).primitiveAssembler.sendCall) d

/-- Nothing is written where the vertices are. -/
def Run.VerticesReadOnly (r : Run F) (n m : Nat) : Prop :=
  ∀ t < r.config.primitiveAssembler.primitiveCount,
    ∀ c < r.config.primitiveAssembler.triangleSize,
      r.ReadOnly n m (r.config.primitiveAssembler.componentAddress t c)

/-- No block aborts before one that is seen not to have. -/
theorem running_before (r : Run F) {k m : Nat} (hkm : k ≤ m) (hrunning : (r.state m).Running) :
    (r.state k).Running := by
  induction m, hkm using Nat.le_induction with
  | base => exact hrunning
  | succ m hkm ih => exact ih (running_of_step (r.tracked m) hrunning)

/-- The primitive assembler reads nothing but vertices. -/
theorem issues_vertex {memory : MemoryAddressType → MemoryDataType} {k m : Nat}
    (hvertices : r.VerticesReadOnly n m)
    (hassembles : (r.state k).primitiveAssembler.Assembles r.config.primitiveAssembler memory) :
    ∀ o ∈ ((r.state k).memoryClients 0).issues, r.ReadOnly n m o.address := by
  intro o ho
  have htracked := (r.tracked k).primitiveAssembler
  have hread := (reads_after r k).primitiveAssembler
  change o ∈ (r.state k).primitiveAssembler.memory.issues at ho
  unfold MemorySignals.issues MemorySignals.operation at ho
  rw [hread] at ho
  split at ho
  · next henable =>
    rw [List.mem_singleton] at ho
    subst ho
    show r.ReadOnly n m (r.state k).primitiveAssembler.memory.address
    unfold PrimitiveAssembler.Tracked at htracked
    unfold PrimitiveAssembler.Assembles at hassembles
    cases hpc : (r.state k).primitiveAssembler.pc with
    | fetching draw triangleIndex readVertices =>
      rw [hpc] at hassembles
      obtain ⟨-, hindex, hless, -, haddress⟩ := hassembles
      rw [haddress]
      exact hvertices _ hindex _ hless
    | start | betweenTriangles | sending => simp [hpc, henable] at htracked
    | aborted => simp [hpc, henable] at htracked
  · cases ho

/-- A clock of the primitive assembler. -/
theorem advances_step {f : Floats F} {alu : Alu Dword} {config : GpuConfig} {env : GpuEnvironment}
    {s : Gpu F} {memory : MemoryAddressType → MemoryDataType} {clock : Nat}
    (h : s.primitiveAssembler.Assembles config.primitiveAssembler memory)
    (hdata : s.memoryController.outCompleted 0 = true →
      s.memoryController.outData = memory s.primitiveAssembler.memory.address)
    (hrunning : (s.step f alu config env clock).Running) :
    PrimitiveAssembler.Advances config.primitiveAssembler memory s.commandStreamer.paEnable
      s.primitiveAssembler (s.step f alu config env clock).primitiveAssembler :=
  h.step hdata hrunning.primitiveAssembler

section
variable {m : Nat} (hidle : (r.state n).Idle r.config)
  (hquiet : (r.state n).commandStreamer.Quiet)
include hidle hquiet

/-- A clock of the primitive assembler that has read nothing but vertices. -/
theorem advances_of_assembles (hm : n + d ≤ m)
    (hvalid : ∀ e < d, (r.state (n + e + 1)).AccessesValid)
    (hrunning : (r.state (n + d + 1)).Running)
    (hassembles : (r.state (n + d)).primitiveAssembler.Assembles r.config.primitiveAssembler
      (initialMemory (r.state n).memory.rawMemory))
    (hreads : ∀ o ∈ r.asked n 0 d, r.ReadOnly n m o.address) :
    PrimitiveAssembler.Advances r.config.primitiveAssembler
      (initialMemory (r.state n).memory.rawMemory) (r.state (n + d)).commandStreamer.paEnable
      (r.state (n + d)).primitiveAssembler
      (r.state (n + d + 1)).primitiveAssembler := by
  rw [Run.state_succ] at hrunning ⊢
  refine advances_step hassembles ?_ hrunning
  intro hcompleted
  have hanswered := answered_readOnly hidle hquiet hm hvalid (Or.inl rfl) hreads hcompleted
  exact hanswered

variable (hvertices : r.VerticesReadOnly n m)
include hvertices

/-- Where the primitive assembler is, and that it has read nothing but vertices. -/
theorem assembles_after (hm : n + d ≤ m) (hvalid : ∀ e < d, (r.state (n + e + 1)).AccessesValid)
    (hrunning : (r.state (n + d)).Running) :
    (r.state (n + d)).primitiveAssembler.Assembles r.config.primitiveAssembler
        (initialMemory (r.state n).memory.rawMemory) ∧
      ∀ o ∈ r.asked n 0 d, r.ReadOnly n m o.address := by
  induction d with
  | zero =>
    constructor
    · unfold PrimitiveAssembler.Assembles
      rw [show (r.state (n + 0)).primitiveAssembler.pc = .start from hidle.primitiveAssembler.pc]
      trivial
    · intro o ho
      cases ho
  | succ d ih =>
    have hvalid' : ∀ e < d, (r.state (n + e + 1)).AccessesValid :=
      fun e he => hvalid e (Nat.lt_succ_of_lt he)
    have hrunning' := running_before r (Nat.le_succ (n + d)) hrunning
    obtain ⟨hassembles, hreads⟩ := ih (by omega) hvalid' hrunning'
    have hnext := advances_of_assembles hidle hquiet (by omega) hvalid' hrunning
      hassembles hreads
    refine ⟨hnext.assembles, ?_⟩
    intro o ho
    have hasked : r.asked n 0 (d + 1) =
        r.asked n 0 d ++ ((r.state (n + d + 1)).memoryClients 0).issues := upTo_succ _ d
    rw [hasked, List.mem_append] at ho
    rcases ho with ho | ho
    · exact hreads o ho
    · exact issues_vertex hvertices hnext.assembles o ho

/-- A clock of the primitive assembler. -/
theorem advances_after (hm : n + d ≤ m)
    (hvalid : ∀ e < d, (r.state (n + e + 1)).AccessesValid)
    (hrunning : (r.state (n + d + 1)).Running) :
    PrimitiveAssembler.Advances r.config.primitiveAssembler
      (initialMemory (r.state n).memory.rawMemory) (r.state (n + d)).commandStreamer.paEnable
      (r.state (n + d)).primitiveAssembler
      (r.state (n + d + 1)).primitiveAssembler := by
  obtain ⟨hassembles, hreads⟩ := assembles_after hidle hquiet hvertices hm hvalid
    (running_before r (Nat.le_succ (n + d)) hrunning)
  exact advances_of_assembles hidle hquiet hm hvalid hrunning hassembles hreads

end

theorem replicate_flatten_add {α : Type} (k : Nat) (more : Bool) (l : List α) :
    (List.replicate (k + if more then 1 else 0) l).flatten =
      (List.replicate k l).flatten ++ if more then l else [] := by
  cases more with
  | false => simp
  | true => simp [List.replicate_succ']

/-- **Each draw assembles the triangles that its vertex buffer holds**: what the primitive
    assembler begins to send is, in this order, all triangles of each draw, but for those that
    the current draw has still to come to. -/
theorem triangles_assembled (r : Run F) (n d : Nat) (hidle : (r.state n).Idle r.config)
    (hquiet : (r.state n).commandStreamer.Quiet) (hvertices : r.VerticesReadOnly n (n + d))
    (hvalid : ∀ e < d, (r.state (n + e + 1)).AccessesValid)
    (hrunning : (r.state (n + d)).Running) :
    ∃ triangles remaining,
      r.config.primitiveAssembler.assemble (fun _ => (r.state n).memory.rawMemory) =
        .ok triangles ∧
      (List.replicate (r.draws n d) triangles).flatten = r.assembled n d ++ remaining ∧
      ((r.state (n + d)).primitiveAssembler.Idle → remaining = []) := by
  refine ⟨_, (r.state (n + d)).primitiveAssembler.remaining
    (r.config.primitiveAssembler.triangles (initialMemory (r.state n).memory.rawMemory)),
    PrimitiveAssemblerPins.assemble_triangles _ _, ?_, ?_⟩
  · -- the clocks up to `d` begin what has still to come
    have hconserved : ∀ e ≤ d, (List.replicate (r.draws n e)
        (r.config.primitiveAssembler.triangles (initialMemory (r.state n).memory.rawMemory))).flatten =
        r.assembled n e ++ (r.state (n + e)).primitiveAssembler.remaining
          (r.config.primitiveAssembler.triangles
            (initialMemory (r.state n).memory.rawMemory)) := by
      intro e
      induction e with
      | zero =>
        intro _
        unfold PrimitiveAssembler.remaining
        rw [show (r.state (n + 0)).primitiveAssembler.pc = .start from hidle.primitiveAssembler.pc]
        rfl
      | succ e ih =>
        intro he
        have hrunning' := running_before r (Nat.add_le_add_left he n) hrunning
        have hadvances := advances_after hidle hquiet hvertices (by omega)
          (fun k hk => hvalid k (by omega)) hrunning'
        have hdraws : r.draws n (e + 1) =
            r.draws n e + if (r.state (n + e)).drawBegins then 1 else 0 := by
          simp [Run.draws, List.range_succ, List.countP_append, List.countP_singleton]
        have hassembled : r.assembled n (e + 1) = r.assembled n e ++
            begun (r.state (n + e)).primitiveAssembler.sendCall
              (r.state (n + e + 1)).primitiveAssembler.sendCall := upTo_succ _ e
        rw [hdraws, replicate_flatten_add, ih (Nat.le_of_succ_le he), hassembled, List.append_assoc,
          List.append_assoc]
        exact congrArg _ hadvances.conserved
    exact hconserved d (Nat.le_refl d)
  · intro hfree
    unfold PrimitiveAssembler.remaining
    rw [hfree.pc]

/-- A run without blits whose triangles are still to come writes nothing. -/
theorem readOnly_of_none {m : Nat} (hblits : r.WithoutBlits n d) (hm : m = n + d)
    (htriangles : (r.state m).fragments.rasterizer.triangles.length = 0)
    (address : MemoryAddressType) : r.ReadOnly n m address := by
  have hcovered : ∀ x y, ¬ r.Covered n m x y := by
    rintro x y ⟨k, triangle, -, hsome, -⟩
    rw [List.eq_nil_of_length_eq_zero htriangles] at hsome
    cases hsome
  intro hwrite
  cases hwrite with
  | color x y h => exact hcovered x y h
  | depth henable x y h => exact hcovered x y h
  | blit k hn hk command hlaunched hblit address hwrites =>
    apply hblits (k - n) (by omega) command
    · rw [Nat.add_sub_cancel' hn]
      exact hlaunched
    · exact hblit

/-- The clock behind the one in which the triangle of the draw has been read. -/
theorem triangles_assembled_draw :
    ∃ triangles remaining,
      drawRun.config.primitiveAssembler.assemble
        (fun _ => (drawRun.state 0).memory.rawMemory) = .ok triangles ∧
      (List.replicate 1 triangles).flatten = [[0, 0, 0]] ++ remaining ∧
      ((drawRun.state (0 + 17)).primitiveAssembler.Idle → remaining = []) := by
  have hdraws : drawRun.draws 0 17 = 1 := by decide +kernel
  have hassembled : drawRun.assembled 0 17 = [[0, 0, 0]] := by decide +kernel
  have hblits : drawRun.WithoutBlits 0 17 := by decide +kernel
  have h := triangles_assembled drawRun 0 17 (idle_new _ _ _) ⟨rfl, rfl⟩
    (fun t _ c _ => readOnly_of_none hblits rfl (by decide +kernel) _) (by decide +kernel)
    (by decide +kernel)
  rw [hdraws, hassembled] at h
  exact h

end Gpu

end PicoGpu
