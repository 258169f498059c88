import PicoGpu.VertexFetch
import PicoGpu.VertexStream

/- The triangles on their way through the `Gpu`: from the primitive assembler to the vertex
   shader, as requests to the shader frontend, as responses back, and on to the rasterizer.

   What is proved: on both links of the vertex shader nothing is lost, doubled or overtaken
   (`Gpu.triangles_reach_rasterizer`). There is at most one triangle on each link, and at
   most one that is asked for. -/
namespace PicoGpu
open Clocked Streams

section
variable {α : Type} {ports count : Nat} {s : Option (List α × SendCall)}
  {sp : SendPorts α} {r : Option (ReceiveCall α)} {rp : ReceivePorts} {pending : List (List α)}

theorem HandshakeLink.pending_length (h : HandshakeLink ports count s sp r rp pending) :
    pending.length ≤ 1 := by
  cases h with
  | apart _ _ => exact Nat.zero_le 1
  | offering _ _ _ _ _ _ => exact Nat.le_refl 1
  | moving _ _ _ _ _ _ _ _ => exact Nat.le_refl 1

/-- Nothing is on its way when the sender is in no call. -/
theorem HandshakeLink.pending_nil (h : HandshakeLink ports count s sp r rp pending)
    (hs : s = none) : pending = [] := by
  cases h with
  | apart _ _ => rfl
  | offering _ _ _ _ _ _ => cases hs
  | moving _ _ _ _ _ _ _ _ => cases hs

theorem ReceiveOutcome.data_length (outcome : ReceiveOutcome α) : outcome.data.length ≤ 1 := by
  cases outcome with
  | suspended call => exact Nat.zero_le 1
  | returned success dataReceived => exact Nat.le_refl 1

end

theorem map_mapIdx {α β : Type} (g : Nat → α → β) {l : List α} (h : l.length ≤ 1) :
    l.map (g 0) = l.mapIdx g := by
  match l, h with
  | [], _ => rfl
  | [_], _ => rfl

theorem VertexShader.takes_length (inputs : VertexShaderInputs) (v : VertexShader) :
    (v.takes inputs).length ≤ 1 := by
  unfold takes
  split
  · exact ReceiveOutcome.data_length _
  · exact Nat.zero_le 1

namespace Gpu
variable {F : Type}

/-! ## One clock -/

section
variable {f : Floats F} {alu : Alu Dword} {config : GpuConfig} {env : GpuEnvironment}
  {s : Gpu F}

/-- What the rasterizer reads. -/
def rasterizerInputs (config : GpuConfig) (s : Gpu F) : RasterizerInputs :=
  s.fragments.rasterizerInputs (s.surroundings config)

/-- Where the three blocks are, and what is on its way between them. -/
structure VertexLinks (config : GpuConfig) (s : Gpu F) (triangles vertices : List (List Dword)) :
    Prop where
  primitiveAssembler : s.primitiveAssembler.DrawsFor config.primitiveAssembler
  vertexShader : s.vertexShader.Expects config.vertexShader
  rasterizer : s.fragments.rasterizer.Expects config.vsPsCustomComponents
  triangles : HandshakeLink 9 config.vertexShader.triangleSize s.primitiveAssembler.sendCall
    s.primitiveAssembler.nextBlock s.vertexShader.triangleCall s.vertexShader.previousBlock
    triangles
  vertices : HandshakeLink 12 config.vertexShader.verticesSize s.vertexShader.verticesCall
    s.vertexShader.nextBlock s.fragments.rasterizer.verticesCall
    s.fragments.rasterizer.previousBlock vertices

/-- What a clock moves on the way to the rasterizer. -/
structure MovesVertices (f : Floats F) (config : GpuConfig) (s s' : Gpu F)
    (triangles triangles' vertices vertices' : List (List Dword)) : Prop where
  links : s'.VertexLinks config triangles' vertices'
  size : ∀ data ∈ begun s.primitiveAssembler.sendCall s'.primitiveAssembler.sendCall,
    data.length = config.vertexShader.triangleSize
  triangles : (triangles ++ begun s.primitiveAssembler.sendCall s'.primitiveAssembler.sendCall).map
      (List.take config.vertexShader.triangleSize) =
    s.vertexShader.takes s.vertexShaderInputs ++
      triangles'.map (List.take config.vertexShader.triangleSize)
  shader : VertexShader.Passes config.vertexShader s.vertexShaderInputs s.vertexShader
    s'.vertexShader
  vertices : (vertices ++ begun s.vertexShader.verticesCall s'.vertexShader.verticesCall).map
      (List.take config.vertexShader.verticesSize) =
    s.fragments.rasterizer.takes (s.rasterizerInputs config) ++
      vertices'.map (List.take config.vertexShader.verticesSize)
  rasterizer : Rasterizer.TakesVertices f config.vsPsCustomComponents (s.rasterizerInputs config)
    s.fragments.rasterizer s'.fragments.rasterizer

theorem vertexLinks_new (config : GpuConfig) (unit0 unit1 : ShaderUnit Dword) :
    (new unit0 unit1 : Gpu F).VertexLinks config [] [] where
  primitiveAssembler := trivial
  vertexShader := trivial
  rasterizer := Rasterizer.expects_of_none rfl
  triangles := .apart ⟨rfl, Or.inl rfl⟩ (Or.inl ⟨rfl, rfl⟩)
  vertices := .apart ⟨rfl, Or.inl rfl⟩ (Or.inl ⟨rfl, rfl⟩)

theorem vertexShader_step (h : s.vertexShader.Expects config.vertexShader) {clock : Nat}
    (hrunning : (s.step f alu config env clock).Running) :
    VertexShader.Step config.vertexShader s.vertexShaderInputs s.vertexShader
      (s.step f alu config env clock).vertexShader :=
  VertexShader.step_cases h hrunning.vertexShader

theorem VertexLinks.step {triangles vertices : List (List Dword)}
    (h : s.VertexLinks config triangles vertices) (hsize : 0 < config.vertexShader.triangleSize)
    {clock : Nat} (hrunning : (s.step f alu config env clock).Running) :
    ∃ triangles' vertices', MovesVertices f config s (s.step f alu config env clock)
      triangles triangles' vertices vertices' := by
  have hassembler := h.primitiveAssembler.step s.commandStreamer.paEnable
    (s.memoryController.outCompleted 0) s.vertexShader.previousBlock.outReceiving
    s.memoryController.outData
  have hshader := vertexShader_step h.vertexShader hrunning
  have hrasterizer := @Rasterizer.Expects.step F f config.vsPsCustomComponents
    (s.rasterizerInputs config) _ h.rasterizer hrunning.rasterizer
  obtain ⟨triangles', htriangles', htriangles⟩ := h.triangles.step hsize hassembler.sends
    (fun data hdata => Nat.le_of_eq (hassembler.length data hdata).symm) hshader.links.triangle
  have hvertices := hshader.links.vertices
  have hlength : ∀ data ∈ begun s.vertexShader.verticesCall
      (s.step f alu config env clock).vertexShader.verticesCall,
      config.vertexShader.verticesSize ≤ data.length := hshader.vertices_length
  obtain ⟨vertices', hvertices', hmoved⟩ := h.vertices.step config.vertexShader.verticesSize_pos hvertices
    hlength hrasterizer.vertices
  exact ⟨triangles', vertices', ⟨hassembler.draws, hshader.expects h.vertexShader,
    hrasterizer.expects, htriangles', hvertices'⟩, hassembler.length, htriangles, hshader.passes,
    hmoved, hrasterizer⟩

end

/-! ## Whole runs -/

variable {r : Run F} {n d : Nat}

/-- The triangles that the vertex shader takes in the `d` clocks from clock `n` on. -/
def Run.vertexTriangles (r : Run F) (n d : Nat) : List (List Dword) :=
  upTo (fun e => (r.state (n + e)).vertexShader.takes (r.state (n + e)).vertexShaderInputs) d

/-- The requests that it begins to send. -/
def Run.vertexRequests (r : Run F) (n d : Nat) : List (List Dword) :=
  upTo (fun e => begun (r.state (n + e)).vertexShader.requestCall
    (r.state (n + e + 1)).vertexShader.requestCall) d

/-- The responses that come. -/
def Run.vertexResponses (r : Run F) (n d : Nat) : List (List Dword) :=
  upTo (fun e => (r.state (n + e)).vertexShader.answers (r.state (n + e)).vertexShaderInputs) d

/-- The vertices that it begins to send. -/
def Run.vertexOutputs (r : Run F) (n d : Nat) : List (List Dword) :=
  upTo (fun e => begun (r.state (n + e)).vertexShader.verticesCall
    (r.state (n + e + 1)).vertexShader.verticesCall) d

/-- The vertices that the rasterizer takes. -/
def Run.rasterizerVertices (r : Run F) (n d : Nat) : List (List Dword) :=
  upTo (fun e => (r.state (n + e)).fragments.rasterizer.takes
    ((r.state (n + e)).rasterizerInputs r.config)) d

/-- A vertex shader whose triangles have no dwords does not come to its second clock. -/
theorem triangleSize_pos (hrunning : (r.state (n + 1)).Running) :
    0 < r.config.vertexShader.triangleSize := by
  have hfirst := running_before r (Nat.succ_le_succ (Nat.zero_le n)) hrunning
  rw [Run.state_succ] at hfirst
  have hexpects : (r.state 0).vertexShader.Expects r.config.vertexShader := trivial
  have hstep := vertexShader_step hexpects hfirst
  have hnext := hstep.expects hexpects
  have hpc : (r.state 0).vertexShader.pc = .start := rfl
  cases hstep with
  | listens _ call ports _ hv =>
    rw [hv] at hnext
    exact hnext.2
  | waits _ _ _ h | requests _ _ _ _ _ _ _ _ h | sendsRequest _ _ _ _ h | asked _ _ _ _ _ h
  | awaitsResponse _ _ _ h | answered _ _ _ _ _ _ h | sendsVertices _ _ _ _ h | given _ _ _ h =>
    rw [hpc] at h
    cases h

theorem vertexLinks_after (hrunning : (r.state n).Running) :
    ∃ triangles vertices, (r.state n).VertexLinks r.config triangles vertices := by
  induction n with
  | zero => exact ⟨[], [], vertexLinks_new r.config _ _⟩
  | succ n ih =>
    have hsize := triangleSize_pos hrunning
    obtain ⟨triangles, vertices, hlinks⟩ := ih (running_before r (Nat.le_succ n) hrunning)
    rw [Run.state_succ] at hrunning ⊢
    obtain ⟨triangles', vertices', hmoves⟩ := hlinks.step hsize hrunning
    exact ⟨triangles', vertices', hmoves.links⟩

/-- What the clocks from `n` to `n + d` have moved, with what is on its way at the end. -/
structure Moved (r : Run F) (n d : Nat) (triangles vertices : List (List Dword)) : Prop where
  links : (r.state (n + d)).VertexLinks r.config triangles vertices
  triangles : r.assembled n d = r.vertexTriangles n d ++
    triangles.map (List.take r.config.vertexShader.triangleSize)
  clientToken : (r.state (n + d)).vertexShader.clientToken =
    (r.state n).vertexShader.clientToken + BitVec.ofNat 16 (r.vertexTriangles n d).length
  requests : r.vertexRequests n d = (r.vertexTriangles n d).mapIdx fun i triangle =>
    r.config.vertexShader.requestDwords
      ((r.state n).vertexShader.clientToken + BitVec.ofNat 16 i) triangle
  asked : (r.vertexTriangles n d).length =
    (r.state (n + d)).vertexShader.asking + (r.vertexResponses n d).length
  outputs : (r.vertexOutputs n d).map (List.take r.config.vertexShader.verticesSize) =
    (r.vertexResponses n d).map r.config.vertexShader.verticesIn
  vertices : (r.vertexOutputs n d).map (List.take r.config.vertexShader.verticesSize) =
    r.rasterizerVertices n d ++ vertices.map (List.take r.config.vertexShader.verticesSize)
  rasterizer : (r.state (n + d)).fragments.rasterizer.triangles.map some =
    (r.state n).fragments.rasterizer.triangles.map some ++
      (r.rasterizerVertices n d).map
        (Rasterizer.triangleOf r.floats r.config.vsPsCustomComponents)

/-- At an idle clock nothing is on its way. -/
theorem moved_idle (hidle : (r.state n).Idle r.config) (hrunning : (r.state n).Running) :
    Moved r n 0 [] [] := by
  obtain ⟨triangles, vertices, hlinks⟩ := vertexLinks_after hrunning
  have hassembler : (r.state n).primitiveAssembler.sendCall = none := by
    unfold PrimitiveAssembler.sendCall
    rw [hidle.primitiveAssembler.pc]
  have hpc := hidle.vertexShader.pc
  have hshader : (r.state n).vertexShader.verticesCall = none ∧
      (r.state n).vertexShader.asking = 0 := by
    unfold VertexShader.verticesCall VertexShader.asking
    rcases hpc with hpc | ⟨count, call, hpc, -⟩
    · rw [hpc]
      exact ⟨rfl, rfl⟩
    · rw [hpc]
      exact ⟨rfl, rfl⟩
  obtain rfl := hlinks.triangles.pending_nil hassembler
  obtain rfl := hlinks.vertices.pending_nil hshader.1
  exact ⟨hlinks, rfl, (BitVec.add_zero _).symm, rfl, hshader.2.symm, rfl, rfl,
    (List.append_nil _).symm⟩

theorem Moved.step {triangles vertices : List (List Dword)} (h : Moved r n d triangles vertices)
    (hrunning : (r.state (n + d + 1)).Running) :
    ∃ triangles' vertices', Moved r n (d + 1) triangles' vertices' := by
  have hsize := triangleSize_pos hrunning
  obtain ⟨triangles', vertices', hmoves⟩ : ∃ triangles' vertices', MovesVertices r.floats r.config
      (r.state (n + d)) (r.state (n + d + 1)) triangles triangles' vertices vertices' := by
    rw [Run.state_succ] at hrunning ⊢
    exact h.links.step hsize hrunning
  have hassembled : r.assembled n (d + 1) = r.assembled n d ++
      begun (r.state (n + d)).primitiveAssembler.sendCall
        (r.state (n + d + 1)).primitiveAssembler.sendCall := upTo_succ _ d
  have htaken : r.vertexTriangles n (d + 1) = r.vertexTriangles n d ++
      (r.state (n + d)).vertexShader.takes (r.state (n + d)).vertexShaderInputs := upTo_succ _ d
  have hrequests : r.vertexRequests n (d + 1) = r.vertexRequests n d ++
      begun (r.state (n + d)).vertexShader.requestCall
        (r.state (n + d + 1)).vertexShader.requestCall := upTo_succ _ d
  have hresponses : r.vertexResponses n (d + 1) = r.vertexResponses n d ++
      (r.state (n + d)).vertexShader.answers (r.state (n + d)).vertexShaderInputs := upTo_succ _ d
  have houtputs : r.vertexOutputs n (d + 1) = r.vertexOutputs n d ++
      begun (r.state (n + d)).vertexShader.verticesCall
        (r.state (n + d + 1)).vertexShader.verticesCall := upTo_succ _ d
  have hvertices : r.rasterizerVertices n (d + 1) = r.rasterizerVertices n d ++
      (r.state (n + d)).fragments.rasterizer.takes
        ((r.state (n + d)).rasterizerInputs r.config) := upTo_succ _ d
  refine ⟨triangles', vertices', hmoves.links, ?_, ?_, ?_, ?_, ?_, ?_, ?_⟩
  · -- whole triangles are begun, so cutting them to their size changes nothing
    have hwhole : (begun (r.state (n + d)).primitiveAssembler.sendCall
        (r.state (n + d + 1)).primitiveAssembler.sendCall).map
          (List.take r.config.vertexShader.triangleSize) =
        begun (r.state (n + d)).primitiveAssembler.sendCall
          (r.state (n + d + 1)).primitiveAssembler.sendCall := by
      conv_rhs => rw [← List.map_id (begun _ _)]
      apply List.map_congr_left
      intro data hdata
      exact List.take_of_length_le (Nat.le_of_eq (hmoves.size data hdata))
    have hclock := hmoves.triangles
    rw [List.map_append, hwhole] at hclock
    rw [hassembled, htaken]
    exact conserved_step h.triangles hclock
  · rw [htaken, List.length_append, ← Nat.add_assoc, hmoves.shader.clientToken, h.clientToken,
      BitVec.add_assoc, ← BitVec.ofNat_add]
  · rw [hrequests, htaken, List.mapIdx_append, h.requests, hmoves.shader.requests, h.clientToken]
    have hone := map_mapIdx (fun i triangle => r.config.vertexShader.requestDwords
      ((r.state n).vertexShader.clientToken +
        BitVec.ofNat 16 (i + (r.vertexTriangles n d).length)) triangle)
      ((r.state (n + d)).vertexShader.takes_length (r.state (n + d)).vertexShaderInputs)
    rw [Nat.zero_add] at hone
    rw [hone]
  · rw [htaken, hresponses, List.length_append, List.length_append, h.asked]
    have hasking := hmoves.shader.asking
    rw [← Nat.add_assoc n d 1]
    omega
  · rw [houtputs, hresponses, List.map_append, List.map_append, h.outputs,
      hmoves.shader.vertices]
  · have hclock := hmoves.vertices
    rw [List.map_append] at hclock
    rw [houtputs, hvertices, List.map_append]
    exact conserved_step h.vertices hclock
  · rw [← Nat.add_assoc, hmoves.rasterizer.triangles, h.rasterizer, hvertices, List.map_append,
      List.append_assoc]

theorem moved_after (hidle : (r.state n).Idle r.config) (hrunning : (r.state (n + d)).Running) :
    ∃ triangles vertices, Moved r n d triangles vertices := by
  induction d with
  | zero => exact ⟨[], [], moved_idle hidle hrunning⟩
  | succ d ih =>
    obtain ⟨triangles, vertices, hmoved⟩ := ih (running_before r (Nat.le_succ (n + d)) hrunning)
    exact hmoved.step hrunning

/-- **The vertex shader passes the triangles on in their order**: it takes those that were
    assembled, asks once for each, with the tokens in turn, and the rasterizer takes the
    vertices of the responses. On each of the links there is at most one triangle. -/
theorem triangles_reach_rasterizer (r : Run F) (n d : Nat) (hidle : (r.state n).Idle r.config)
    (hrunning : (r.state (n + d)).Running) :
    ∃ ahead behind,
      r.assembled n d = r.vertexTriangles n d ++ ahead ∧ ahead.length ≤ 1 ∧
      r.vertexRequests n d = ((r.vertexTriangles n d).mapIdx fun i triangle =>
        r.config.vertexShader.requestDwords
          ((r.state n).vertexShader.clientToken + BitVec.ofNat 16 i) triangle) ∧
      (r.vertexTriangles n d).length =
        (r.state (n + d)).vertexShader.asking + (r.vertexResponses n d).length ∧
      (r.vertexResponses n d).map r.config.vertexShader.verticesIn =
        r.rasterizerVertices n d ++ behind ∧ behind.length ≤ 1 ∧
      (r.state (n + d)).fragments.rasterizer.triangles.map some =
        (r.state n).fragments.rasterizer.triangles.map some ++
          (r.rasterizerVertices n d).map
            (Rasterizer.triangleOf r.floats r.config.vsPsCustomComponents) := by
  obtain ⟨triangles, vertices, hmoved⟩ := moved_after hidle hrunning
  refine ⟨_, _, hmoved.triangles, ?_, hmoved.requests, hmoved.asked,
    hmoved.outputs.symm.trans hmoved.vertices, ?_, hmoved.rasterizer⟩
  · rw [List.length_map]
    exact hmoved.links.triangles.pending_length
  · rw [List.length_map]
    exact hmoved.links.vertices.pending_length

/-- The triangle of the draw has come to the rasterizer, and no request is without response. -/
theorem triangles_reach_rasterizer_pixel :
    (pixelRun.rasterizerVertices 0 300).length = 1 ∧
      (pixelRun.vertexRequests 0 300).length = (pixelRun.vertexResponses 0 300).length := by
  have hrun : let s := pixelRun.state (0 + 300)
      s.Running ∧ s.fragments.rasterizer.triangles.length = 1 ∧ s.vertexShader.asking = 0 := by
    unfold Run.state
    rw [← evaluated_eq]
    decide +kernel
  obtain ⟨hrunning, hone, hasking⟩ := hrun
  obtain ⟨ahead, behind, -, -, hrequests, hasked, -, -, htriangles⟩ :=
    triangles_reach_rasterizer pixelRun 0 300 (idle_new _ _ _) hrunning
  constructor
  · have hlength := congrArg List.length htriangles
    have hnone : (pixelRun.state 0).fragments.rasterizer.triangles = [] := rfl
    rw [List.length_map, hone, hnone, List.map_nil, List.nil_append, List.length_map] at hlength
    exact hlength.symm
  · rw [hrequests, List.length_mapIdx, hasked, hasking, Nat.zero_add]

end Gpu

end PicoGpu
