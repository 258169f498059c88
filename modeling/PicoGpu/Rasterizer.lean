import PicoGpu.FragmentLink
import PicoGpu.ShaderRequests
import PicoGpu.TransferStream

/- The block `Rasterizer`, cut at the `wait()`s of its calls of `Transfer`.

   Correspondence (rasterizer.cpp ↔ here):
     the `wait()` that `main` is in          ↔ `RasterizerPc`
     the loops of `rasterize` up to a hit    ↔ `nextHit`
     from a `wait()` to the next one         ↔ `Rasterizer.step`
   The floats are of any type `F`; a division or a comparison of floats is not looked
   into. A fragment is marked with the triangle that it comes from, and the triangles
   are recorded: the code reads neither. -/
namespace PicoGpu

/-- The float operations of the blocks. -/
structure Floats (F : Type) where
  ofBits : Dword → F
  bits : F → Dword
  ofInt : BitVec 16 → F
  zero : F
  one : F
  maxByte : F
  sub : F → F → F
  mul : F → F → F
  div : F → F → F
  lt : F → F → Bool
  eq : F → F → Bool
  toUint : F → Dword

/-- A fragment and the index of the triangle that was rasterized to it. -/
structure RasterizedFragment where
  fragment : UnshadedFragment
  triangle : Nat
  deriving DecidableEq, Repr

instance : Inhabited RasterizedFragment := ⟨⟨⟨0, 0⟩, 0⟩⟩

namespace Rasterizer

structure Point (F : Type) where
  x : F
  y : F
  z : F
  w : F
  customComponents : List F

section
variable {F : Type} (f : Floats F)

def readPoint (receivedVertices : List Dword) (stride customComponentsCount pointIndex : Nat) :
    Except FatalError (Point F) :=
  let component := fun i => f.ofBits (receivedVertices.getD (pointIndex * stride + i) 0)
  let w := component 3
  if f.eq w f.zero then .error "Homogeneous coordinate is 0"
  else .ok {
    x := f.div (component 0) w
    y := f.div (component 1) w
    z := f.div (component 2) w
    w := w
    customComponents := (List.range customComponentsCount).map fun i => component (4 + i) }

def sign (p1 p2 p3 : Point F) : F :=
  f.sub (f.mul (f.sub p1.x p3.x) (f.sub p2.y p3.y)) (f.mul (f.sub p2.x p3.x) (f.sub p1.y p3.y))

def isPointInTriangle (pt v1 v2 v3 : Point F) : Bool :=
  let d1 := sign f pt v1 v2
  let d2 := sign f pt v2 v3
  let d3 := sign f pt v3 v1
  let has_neg := f.lt d1 f.zero || f.lt d2 f.zero || f.lt d3 f.zero
  let has_pos := f.lt f.zero d1 || f.lt f.zero d2 || f.lt f.zero d3
  !(has_neg && has_pos)

/-- The three vertices that a triangle has in `main`. -/
structure Vertices (F : Type) where
  v0 : Point F
  v1 : Point F
  v2 : Point F

/-- The pixel of a fragment is in the triangle. -/
def hits (vertices : Vertices F) (x y : BitVec 16) : Bool :=
  isPointInTriangle f ⟨f.ofInt x, f.ofInt y, f.zero, f.zero, []⟩ vertices.v0 vertices.v1 vertices.v2

/-- What `receiveFromVs` makes of the dwords it has received. -/
def readVertices (customComponentsPerVertex : Nat) (receivedVertices : List Dword) :
    Except FatalError (Vertices F) := do
  let componentsPerVertex := 4 + customComponentsPerVertex
  let point := readPoint f receivedVertices componentsPerVertex customComponentsPerVertex
  return ⟨← point 0, ← point 1, ← point 2⟩

/-- The dwords that `setupPerTriangleFsState` sends: positions and attributes. -/
def dataToSend (vertices : Vertices F) : List Dword :=
  [vertices.v0, vertices.v1, vertices.v2].flatMap fun vertex =>
    f.bits vertex.x :: f.bits vertex.y :: f.bits vertex.z :: vertex.customComponents.map f.bits

/-- Where the loops of `rasterize` come to. -/
inductive Scan where
  | hit (x y : BitVec 16)
  | finished
  | endless

/-- The loops of `rasterize` from the test of the inner one. With a framebuffer wider or
    higher than the 16 bits of a coordinate they need not end: after as many iterations as
    there are coordinates, `endless`, they come back to where they have been. -/
def nextHit (vertices : Vertices F) (width height : Dword) :
    Nat → BitVec 16 → BitVec 16 → Scan
  | 0, _, _ => .endless
  | iterations + 1, x, y =>
    if x.toNat < width.toNat then
      if hits f vertices x y then .hit x y
      else nextHit vertices width height iterations (x + 1) y
    else if (y + 1).toNat < height.toNat then nextHit vertices width height iterations 0 (y + 1)
    else .finished

/-- The pairs of coordinates, and one more. -/
def maxIterations : Nat := 2 ^ 32 + 1

/-- A triangle that was set up: its vertices and the dwords sent for them. -/
structure Triangle (F : Type) where
  vertices : Vertices F
  attributes : List Dword

end

end Rasterizer

/-- The `wait()` that `Rasterizer::main` is in. -/
inductive RasterizerPc (F : Type) where
  | start
  | receiveFromVs (customComponentsPerVertex : Nat) (call : ReceiveCall Dword)
  | perTriangle (triangle : Rasterizer.Triangle F) (call : SendCall)
  | perFragment (vertices : Rasterizer.Vertices F) (width height : Dword)
      (fragment : RasterizedFragment) (call : SendCall)
  | endless
  | aborted (error : FatalError)

structure Rasterizer (F : Type) where
  pc : RasterizerPc F
  previousBlock : ReceivePorts
  perTriangle : SendPorts Dword
  perFragment : SendPorts RasterizedFragment
  triangles : List (Rasterizer.Triangle F)

/-- What the rasterizer reads of its surroundings at a clock. -/
structure RasterizerInputs where
  inpWidth : Dword
  inpHeight : Dword
  inpSending : Bool
  inpData : Nat → Dword
  perTriangleReceiving : Bool
  perFragmentReceiving : Bool

namespace Rasterizer

section
variable {F : Type} (f : Floats F)

def new : Rasterizer F where
  pc := .start
  previousBlock := ⟨false, false⟩
  perTriangle := ⟨false, fun _ => 0⟩
  perFragment := ⟨false, fun _ => default⟩
  triangles := []

/-- The transfer of `receiveFromVs`. -/
def verticesArgs (customComponentsPerVertex : Nat) : ReceiveArgs where
  dataPortsCount := 12
  dataToReceiveCount := verticesInPrimitive * (4 + customComponentsPerVertex)
  outBusinessSignal := true
  timeout := none
  performHandshake := true

/-- The transfer of `setupPerTriangleFsState`. -/
def triangleArgs (triangle : Triangle F) : SendArgs Dword where
  dataToSend := triangle.attributes
  dataPortsCount := 3
  performHandshake := true

/-- `rasterize` from where its loops have come to. -/
def rasterizeFrom (vertices : Vertices F) (width height : Dword) (r : Rasterizer F) :
    Scan → Rasterizer F
  | .hit x y =>
    let fragment : RasterizedFragment := ⟨⟨x, y⟩, r.triangles.length - 1⟩
    match sendArrayImpl (Transfer.send fragment) r.perFragment with
    | .ok (call, ports) =>
      { r with pc := .perFragment vertices width height fragment call, perFragment := ports }
    | .error e => { r with pc := .aborted e }
  | .finished => { r with pc := .start }
  | .endless => { r with pc := .endless }

def rasterize (vertices : Vertices F) (width height : Dword) (r : Rasterizer F) : Rasterizer F :=
  if 0 < height.toNat then
    r.rasterizeFrom vertices width height (nextHit f vertices width height maxIterations 0 0)
  else { r with pc := .start }

def setupPerTriangleFsState (vertices : Vertices F) (r : Rasterizer F) : Rasterizer F :=
  let triangle : Triangle F := ⟨vertices, dataToSend f vertices⟩
  match sendArrayImpl (triangleArgs triangle) r.perTriangle with
  | .ok (call, ports) =>
    { r with pc := .perTriangle triangle call, perTriangle := ports,
             triangles := r.triangles ++ [triangle] }
  | .error e => { r with pc := .aborted e }

/-- From a `wait()` of `main` to the next one. -/
def step (components : CustomShaderComponents) (inputs : RasterizerInputs) (r : Rasterizer F) :
    Rasterizer F :=
  match r.pc with
  | .start =>
    match components.getTotalCustomComponents with
    | .error e => { r with pc := .aborted e }
    | .ok customComponentsPerVertex =>
      match receiveArrayImpl (verticesArgs customComponentsPerVertex) r.previousBlock with
      | .ok (call, ports) =>
        { r with pc := .receiveFromVs customComponentsPerVertex call, previousBlock := ports }
      | .error e => { r with pc := .aborted e }
  | .receiveFromVs customComponentsPerVertex call =>
    match call.resume (verticesArgs customComponentsPerVertex) inputs.inpSending inputs.inpData
      r.previousBlock with
    | (.suspended call, ports) =>
      { r with pc := .receiveFromVs customComponentsPerVertex call, previousBlock := ports }
    | (.returned _ receivedVertices, ports) =>
      match readVertices f customComponentsPerVertex receivedVertices with
      | .ok vertices => setupPerTriangleFsState f vertices { r with previousBlock := ports }
      | .error e => { r with pc := .aborted e }
  | .perTriangle triangle call =>
    match call.resume (triangleArgs triangle) inputs.perTriangleReceiving r.perTriangle with
    | (some call, ports) => { r with pc := .perTriangle triangle call, perTriangle := ports }
    | (none, ports) =>
      rasterize f triangle.vertices inputs.inpWidth inputs.inpHeight { r with perTriangle := ports }
  | .perFragment vertices width height fragment call =>
    match call.resume (Transfer.send fragment) inputs.perFragmentReceiving r.perFragment with
    | (some call, ports) =>
      { r with pc := .perFragment vertices width height fragment call, perFragment := ports }
    | (none, ports) =>
      { r with perFragment := ports }.rasterizeFrom vertices width height
        (nextHit f vertices width height maxIterations (fragment.fragment.x + 1) fragment.fragment.y)
  | _ => r

/-! ## Triangles -/

theorem readPoint_length {receivedVertices : List Dword} {stride count index : Nat}
    {point : Point F} (h : readPoint f receivedVertices stride count index = .ok point) :
    point.customComponents.length = count := by
  unfold readPoint at h
  dsimp only at h
  split at h
  · cases h
  · cases h
    rw [List.length_map, List.length_range]

theorem dataToSend_length {count : Nat} {receivedVertices : List Dword} {vertices : Vertices F}
    (h : readVertices f count receivedVertices = .ok vertices) :
    (dataToSend f vertices).length = (3 + count) * verticesInPrimitive := by
  obtain ⟨v0, h0, h⟩ := bind_ok.mp h
  obtain ⟨v1, h1, h⟩ := bind_ok.mp h
  obtain ⟨v2, h2, h⟩ := bind_ok.mp h
  cases h
  simp only [dataToSend, List.flatMap_cons, List.flatMap_nil, List.length_append, List.length_cons,
    List.length_map, List.length_nil, readPoint_length f h0, readPoint_length f h1,
    readPoint_length f h2, verticesInPrimitive]
  omega

/-- A triangle as `main` sets it up. -/
structure SetUp (components : CustomShaderComponents) (triangle : Triangle F) : Prop where
  attributes : triangle.attributes = dataToSend f triangle.vertices
  length : triangle.attributes.length = (3 + components.sizes.sum) * verticesInPrimitive

variable {f} {components : CustomShaderComponents} {triangle : Triangle F}

theorem SetUp.pos (h : SetUp f components triangle) : 0 < triangle.attributes.length := by
  rw [h.length, verticesInPrimitive]
  omega

/-- The transfer of a triangle to the fragment shader. -/
def SetUp.transfer (h : SetUp f components triangle) : Xfer Dword :=
  .handshake 0 0 ⟨triangle.attributes, 3, h.pos, by decide⟩

/-! ## Hits -/

theorem nextHit_hit {vertices : Vertices F} {width height : Dword} {iterations : Nat}
    {x y x' y' : BitVec 16} (h : nextHit f vertices width height iterations x y = .hit x' y') :
    hits f vertices x' y' = true := by
  induction iterations generalizing x y with
  | zero => cases h
  | succ iterations ih =>
    rw [nextHit] at h
    split at h
    · split at h
      · next hhit =>
        cases h
        exact hhit
      · exact ih h
    · split at h
      · exact ih h
      · cases h

/-! ## Between two clocks -/

/-- Nothing is offered. -/
structure Low (r : Rasterizer F) : Prop where
  perTriangle : r.perTriangle.outSending = false
  perFragment : r.perFragment.outSending = false

/-- Not in a transfer: at the head of the loop of `main`, or stopped. -/
def Rests (r : Rasterizer F) : Prop :=
  r.Low ∧ (r.pc = .start ∨ r.pc = .endless ∨ ∃ e, r.pc = .aborted e)

def Receives (components : CustomShaderComponents) (r : Rasterizer F) : Prop :=
  r.Low ∧ ∃ call, r.pc = .receiveFromVs components.sizes.sum call

/-- The triangle that was set up last is on offer, and not yet acknowledged. -/
structure OffersTriangle (htriangle : SetUp f components triangle) (r : Rasterizer F) : Prop where
  pc : r.pc = .perTriangle triangle
    (.acknowledge (htriangle.transfer.sendArgs.packageEnd (0 * htriangle.transfer.ports)) 1)
  perTriangle : r.perTriangle.outSending = true
  shown : htriangle.transfer.Shown 0 r.perTriangle.outDataPorts
  perFragment : r.perFragment.outSending = false
  last : r.triangles.getLast? = some triangle

/-- Package `p` of the triangle is on the ports. -/
structure SendsTriangle (htriangle : SetUp f components triangle) (p : Nat) (r : Rasterizer F) :
    Prop where
  pc : r.pc = .perTriangle triangle
    (.package (htriangle.transfer.sendArgs.packageEnd (p * htriangle.transfer.ports)) p)
  low : r.Low
  shown : htriangle.transfer.Shown p r.perTriangle.outDataPorts
  last : r.triangles.getLast? = some triangle

/-- The fragment comes from the triangle that was set up last. -/
structure OfLast (f : Floats F) (triangles : List (Triangle F)) (fragment : RasterizedFragment) :
    Prop where
  index : fragment.triangle + 1 = triangles.length
  hit : ∀ triangle, triangles.getLast? = some triangle →
    hits f triangle.vertices fragment.fragment.x fragment.fragment.y = true

/-- A fragment of the triangle is on offer. -/
structure OffersFragment (f : Floats F) (triangle : Triangle F) (r : Rasterizer F) : Prop where
  pc : ∃ width height fragment,
    r.pc = .perFragment triangle.vertices width height fragment (.acknowledge 1 1) ∧
      r.perFragment.outDataPorts 0 = fragment ∧ OfLast f r.triangles fragment
  perFragment : r.perFragment.outSending = true
  perTriangle : r.perTriangle.outSending = false
  last : r.triangles.getLast? = some triangle

/-- Behind package `p` comes the next one, or `rasterize` begins. -/
def AfterPackage (htriangle : SetUp f components triangle) (p : Nat) (r : Rasterizer F) : Prop :=
  (p + 1 < htriangle.transfer.packages ∧ r.SendsTriangle htriangle (p + 1)) ∨
    (¬ p + 1 < htriangle.transfer.packages ∧ (r.OffersFragment f triangle ∨ r.Rests))

/-- `rasterize` goes on with a fragment of the triangle, or returns. -/
theorem rasterizeFrom_cases {r : Rasterizer F} (hlow : r.Low)
    (hlast : r.triangles.getLast? = some triangle) (width height : Dword) {scan : Scan}
    (hscan : ∀ x y, scan = .hit x y → hits f triangle.vertices x y = true) :
    ((r.rasterizeFrom triangle.vertices width height scan).OffersFragment f triangle ∨
      (r.rasterizeFrom triangle.vertices width height scan).Rests) ∧
    (r.rasterizeFrom triangle.vertices width height scan).triangles = r.triangles := by
  cases scan with
  | hit x y =>
    have hpos : 0 < r.triangles.length := by
      refine List.length_pos_iff.mpr ?_
      rintro hnil
      rw [hnil] at hlast
      cases hlast
    refine ⟨Or.inl ⟨⟨width, height, _, rfl, rfl, ?_, ?_⟩, rfl, hlow.perTriangle, hlast⟩, rfl⟩
    · show r.triangles.length - 1 + 1 = r.triangles.length
      omega
    · intro last hsome
      have hlast' : r.triangles.getLast? = some last := hsome
      rw [hlast] at hlast'
      cases hlast'
      exact hscan x y rfl
  | finished => exact ⟨Or.inr ⟨⟨hlow.perTriangle, hlow.perFragment⟩, Or.inl rfl⟩, rfl⟩
  | endless =>
    exact ⟨Or.inr ⟨⟨hlow.perTriangle, hlow.perFragment⟩, Or.inr (Or.inl rfl)⟩, rfl⟩

theorem rasterize_cases {r : Rasterizer F} (hlow : r.Low)
    (hlast : r.triangles.getLast? = some triangle) (width height : Dword) :
    ((rasterize f triangle.vertices width height r).OffersFragment f triangle ∨
      (rasterize f triangle.vertices width height r).Rests) ∧
    (rasterize f triangle.vertices width height r).triangles = r.triangles := by
  unfold rasterize
  split
  · exact rasterizeFrom_cases hlow hlast width height fun x y hscan => nextHit_hit hscan
  · exact ⟨Or.inr ⟨⟨hlow.perTriangle, hlow.perFragment⟩, Or.inl rfl⟩, rfl⟩

/-! ## What a clock does -/

section
variable {r : Rasterizer F} {inputs : RasterizerInputs}

theorem Rests.step (h : r.Rests) (components : CustomShaderComponents) (inputs : RasterizerInputs) :
    ((r.step f components inputs).Rests ∨ (r.step f components inputs).Receives components) ∧
      (r.step f components inputs).triangles = r.triangles := by
  obtain ⟨hlow, hpc | hpc | ⟨e, hpc⟩⟩ := h
  · have hstep : r.step f components inputs = { r with
        pc := .receiveFromVs components.sizes.sum (.acknowledge 1)
        previousBlock := { r.previousBlock with outReceiving := true } } := by
      have hcount : verticesInPrimitive * (4 + components.sizes.sum) ≠ 0 := by
        rw [verticesInPrimitive]
        omega
      unfold Rasterizer.step
      rw [hpc]
      dsimp only
      rw [CustomShaderComponents.getTotalCustomComponents_eq]
      dsimp only
      rw [receiveArrayImpl, verticesArgs]
      dsimp only
      rw [if_neg hcount, if_neg (by decide)]
      rfl
    rw [hstep]
    exact ⟨Or.inr ⟨⟨hlow.perTriangle, hlow.perFragment⟩, _, rfl⟩, rfl⟩
  · have hstep : r.step f components inputs = r := by
      unfold Rasterizer.step
      rw [hpc]
    rw [hstep]
    exact ⟨Or.inl ⟨hlow, Or.inr (Or.inl hpc)⟩, rfl⟩
  · have hstep : r.step f components inputs = r := by
      unfold Rasterizer.step
      rw [hpc]
    rw [hstep]
    exact ⟨Or.inl ⟨hlow, Or.inr (Or.inr ⟨e, hpc⟩)⟩, rfl⟩

/-- Receiving ends with a triangle on offer, or stops the rasterizer. -/
theorem Receives.step (h : r.Receives components) (inputs : RasterizerInputs) :
    (((r.step f components inputs).Rests ∨ (r.step f components inputs).Receives components) ∧
      (r.step f components inputs).triangles = r.triangles) ∨
    ∃ triangle, ∃ htriangle : SetUp f components triangle,
      (r.step f components inputs).OffersTriangle htriangle ∧
      (r.step f components inputs).triangles = r.triangles ++ [triangle] := by
  obtain ⟨hlow, call, hpc⟩ := h
  unfold Rasterizer.step
  rw [hpc]
  dsimp only
  split
  · exact Or.inl ⟨Or.inr ⟨⟨hlow.perTriangle, hlow.perFragment⟩, _, rfl⟩, rfl⟩
  · split
    · next hvertices =>
      rename_i vertices
      have htriangle : SetUp f components ⟨vertices, dataToSend f vertices⟩ :=
        ⟨rfl, dataToSend_length f hvertices⟩
      obtain ⟨ports, hsend, hsending, hshown⟩ :=
        sendArrayImpl_xfer htriangle.transfer r.perTriangle
      have hcall : sendArrayImpl (triangleArgs ⟨vertices, dataToSend f vertices⟩) r.perTriangle =
          .ok (.acknowledge (htriangle.transfer.sendArgs.packageEnd
            (0 * htriangle.transfer.ports)) 1, ports) := hsend
      refine Or.inr ⟨_, htriangle, ?_, ?_⟩
      · unfold setupPerTriangleFsState
        dsimp only
        rw [hcall]
        exact ⟨rfl, hsending, hshown, hlow.perFragment, List.getLast?_concat⟩
      · unfold setupPerTriangleFsState
        dsimp only
        rw [hcall]
    · exact Or.inl ⟨Or.inl ⟨⟨hlow.perTriangle, hlow.perFragment⟩, Or.inr (Or.inr ⟨_, rfl⟩)⟩, rfl⟩

theorem OffersTriangle.step_waits {htriangle : SetUp f components triangle}
    (h : r.OffersTriangle htriangle) (hreceiving : inputs.perTriangleReceiving = false) :
    r.step f components inputs = r := by
  unfold Rasterizer.step
  rw [h.pc, hreceiving]
  show { r with pc := _, perTriangle := r.perTriangle } = r
  rw [← h.pc]

/-- The loop over the packages, with package `p` on the ports or acknowledged. -/
theorem sendsPackages (htriangle : SetUp f components triangle) {p : Nat} {ports : SendPorts Dword}
    (hsending : ports.outSending = false) (hperFragment : r.perFragment.outSending = false)
    (hlast : r.triangles.getLast? = some triangle)
    (hstep : r.step f components inputs =
      match sendPackages htriangle.transfer.sendArgs
        (htriangle.transfer.sendArgs.packageEnd (p * htriangle.transfer.ports)) (p + 1) ports with
      | (some call, ports) => { r with pc := .perTriangle triangle call, perTriangle := ports }
      | (none, ports) =>
        rasterize f triangle.vertices inputs.inpWidth inputs.inpHeight { r with perTriangle := ports }) :
    (r.step f components inputs).AfterPackage htriangle p ∧
    (r.step f components inputs).triangles = r.triangles := by
  rw [hstep]
  by_cases hmore : p + 1 < htriangle.transfer.packages
  · obtain ⟨ports', hcall, hlow, hshown⟩ := sendPackages_next hmore ports
    rw [hcall]
    exact ⟨Or.inl ⟨hmore, rfl, ⟨hlow.trans hsending, hperFragment⟩, hshown, hlast⟩, rfl⟩
  · obtain ⟨ports', hcall, hlow⟩ := sendPackages_last hmore
      (htriangle.transfer.sendArgs.packageEnd (p * htriangle.transfer.ports)) ports
    obtain ⟨hcases, htriangles⟩ := @rasterize_cases F f triangle { r with perTriangle := ports' }
      ⟨hlow.trans hsending, hperFragment⟩ hlast inputs.inpWidth inputs.inpHeight
    rw [hcall]
    exact ⟨Or.inr ⟨hmore, hcases⟩, htriangles⟩

theorem OffersTriangle.step_answered {htriangle : SetUp f components triangle}
    (h : r.OffersTriangle htriangle) (hreceiving : inputs.perTriangleReceiving = true) :
    (r.step f components inputs).AfterPackage htriangle 0 ∧
    (r.step f components inputs).triangles = r.triangles := by
  refine @sendsPackages F f components triangle r inputs htriangle 0
    { r.perTriangle with outSending := false } rfl h.perFragment h.last ?_
  unfold Rasterizer.step
  rw [h.pc, hreceiving]
  rfl

theorem SendsTriangle.step {htriangle : SetUp f components triangle} {p : Nat}
    (h : r.SendsTriangle htriangle p) (inputs : RasterizerInputs) :
    (r.step f components inputs).AfterPackage htriangle p ∧
    (r.step f components inputs).triangles = r.triangles := by
  refine sendsPackages htriangle h.low.perTriangle h.low.perFragment h.last ?_
  unfold Rasterizer.step
  rw [h.pc]
  rfl

/-- A fragment that is not taken stays on offer. -/
theorem step_fragment_waits {vertices : Vertices F} {width height : Dword}
    {fragment : RasterizedFragment}
    (hpc : r.pc = .perFragment vertices width height fragment (.acknowledge 1 1))
    (hreceiving : inputs.perFragmentReceiving = false) : r.step f components inputs = r := by
  unfold Rasterizer.step
  rw [hpc, hreceiving]
  show { r with pc := _, perFragment := r.perFragment } = r
  rw [← hpc]

/-- When a fragment is taken the loops go on behind its pixel. -/
theorem step_fragment_taken {vertices : Vertices F} {width height : Dword}
    {fragment : RasterizedFragment}
    (hpc : r.pc = .perFragment vertices width height fragment (.acknowledge 1 1))
    (hreceiving : inputs.perFragmentReceiving = true) :
    ∃ ports, ports.outSending = false ∧
      r.step f components inputs = { r with perFragment := ports }.rasterizeFrom vertices width height
        (nextHit f vertices width height maxIterations (fragment.fragment.x + 1) fragment.fragment.y) := by
  obtain ⟨ports, hcall, hlow⟩ := resume_send_returns fragment r.perFragment
  refine ⟨ports, hlow, ?_⟩
  unfold Rasterizer.step
  rw [hpc, hreceiving]
  dsimp only
  rw [hcall]

theorem OffersFragment.step_waits (h : r.OffersFragment f triangle)
    (hreceiving : inputs.perFragmentReceiving = false) : r.step f components inputs = r := by
  obtain ⟨⟨width, height, fragment, hpc, -⟩, -⟩ := h
  exact step_fragment_waits hpc hreceiving

theorem OffersFragment.step_answered (h : r.OffersFragment f triangle)
    (hreceiving : inputs.perFragmentReceiving = true) :
    ((r.step f components inputs).OffersFragment f triangle ∨
      (r.step f components inputs).Rests) ∧
    (r.step f components inputs).triangles = r.triangles := by
  obtain ⟨⟨width, height, fragment, hpc, -⟩, -, hperTriangle, hlast⟩ := h
  obtain ⟨ports, hsending, hstep⟩ := @step_fragment_taken F f components r inputs _ _ _ _ hpc hreceiving
  rw [hstep]
  exact @rasterizeFrom_cases F f triangle { r with perFragment := ports } ⟨hperTriangle, hsending⟩
    hlast width height _ fun x y hscan => nextHit_hit hscan

end

/-! ## Busy -/

section
variable {r : Rasterizer F}

def outBusy (r : Rasterizer F) : Bool := r.previousBlock.outBusinessSignal

def Aborted (r : Rasterizer F) : Prop := ∃ e, r.pc = .aborted e

instance (r : Rasterizer F) : Decidable r.Aborted :=
  decidable_of_iff ((match r.pc with | .aborted _ => true | _ => false) = true) (by
    unfold Aborted
    cases r.pc <;> simp)

/-- Waiting for a triangle, and nothing is offered. -/
structure Idle (r : Rasterizer F) : Prop where
  pc : r.pc = .start ∨ ∃ count call, r.pc = .receiveFromVs count call ∧ call.AtHandshake
  low : r.Low

/-- The block is busy from the clock of a triangle until it waits for the next one. -/
def Tracked (r : Rasterizer F) : Prop :=
  match r.pc with
  | .start => r.Low
  | .receiveFromVs _ call => call.Holds r.previousBlock ∧ r.Low
  | .perTriangle _ call =>
    r.outBusy = true ∧ call.Holds r.perTriangle ∧ r.perFragment.outSending = false
  | .perFragment _ _ _ _ call =>
    r.outBusy = true ∧ r.perTriangle.outSending = false ∧ call.Holds r.perFragment
  | .endless => r.outBusy = true
  | .aborted _ => True

theorem tracked_new : (new : Rasterizer F).Tracked := ⟨rfl, rfl⟩

theorem Tracked.idle (h : r.Tracked) (hbusy : r.outBusy = false) (hrunning : ¬ r.Aborted) :
    r.Idle := by
  unfold Tracked at h
  cases hpc : r.pc with
  | start =>
    rw [hpc] at h
    exact ⟨Or.inl hpc, h⟩
  | receiveFromVs count call =>
    rw [hpc] at h
    refine ⟨Or.inr ⟨count, call, hpc, ?_⟩, h.2⟩
    cases call with
    | acknowledge clocksWaiting => trivial
    | stalled clocksWaiting => trivial
    | package dataReceived packagesReceived =>
      rw [outBusy, h.1.2] at hbusy
      cases hbusy
  | perTriangle triangle call =>
    rw [hpc, hbusy] at h
    cases h.1
  | perFragment vertices width height fragment call =>
    rw [hpc, hbusy] at h
    cases h.1
  | endless =>
    rw [hpc, hbusy] at h
    cases h
  | aborted e => exact absurd ⟨e, hpc⟩ hrunning

theorem rasterizeFrom_tracked (hbusy : r.outBusy = true) (hlow : r.Low) (vertices : Vertices F)
    (width height : Dword) (scan : Scan) : (r.rasterizeFrom vertices width height scan).Tracked := by
  cases scan with
  | hit x y =>
    unfold rasterizeFrom
    dsimp only
    split
    · next hsend => exact ⟨hbusy, hlow.perTriangle, sendArrayImpl_holds hlow.perFragment hsend⟩
    · trivial
  | finished => exact ⟨hlow.perTriangle, hlow.perFragment⟩
  | endless => exact hbusy

theorem rasterize_tracked (hbusy : r.outBusy = true) (hlow : r.Low) (vertices : Vertices F)
    (width height : Dword) : (rasterize f vertices width height r).Tracked := by
  unfold rasterize
  split
  · exact rasterizeFrom_tracked hbusy hlow _ _ _ _
  · exact ⟨hlow.perTriangle, hlow.perFragment⟩

theorem setupPerTriangleFsState_tracked (hbusy : r.outBusy = true) (hlow : r.Low)
    (vertices : Vertices F) : (setupPerTriangleFsState f vertices r).Tracked := by
  unfold setupPerTriangleFsState
  dsimp only
  split
  · next hsend => exact ⟨hbusy, sendArrayImpl_holds hlow.perTriangle hsend, hlow.perFragment⟩
  · trivial

/-- From the head of its loop, the block goes to wait for a triangle. -/
theorem step_start (hpc : r.pc = .start) (hlow : r.Low) (components : CustomShaderComponents)
    (inputs : RasterizerInputs) :
    ((r.step f components inputs).Tracked ∧ (r.step f components inputs).Idle) ∨
      (r.step f components inputs).Aborted := by
  unfold Rasterizer.step
  rw [hpc]
  dsimp only
  split
  · exact Or.inr ⟨_, rfl⟩
  · split
    · next call ports hcall =>
      obtain ⟨hhandshake, rfl⟩ := receiveArrayImpl_handshake rfl hcall
      refine Or.inl ⟨⟨?_, hlow.perTriangle, hlow.perFragment⟩, Or.inr ⟨_, call, rfl, hhandshake⟩,
        hlow.perTriangle, hlow.perFragment⟩
      cases call with
      | acknowledge clocksWaiting => rfl
      | stalled clocksWaiting => rfl
      | package dataReceived packagesReceived => exact absurd hhandshake id
    · exact Or.inr ⟨_, rfl⟩

theorem Aborted.tracked (h : r.Aborted) : r.Tracked := by
  obtain ⟨e, hpc⟩ := h
  unfold Tracked
  rw [hpc]
  trivial

theorem Aborted.step (h : r.Aborted) (components : CustomShaderComponents)
    (inputs : RasterizerInputs) : (r.step f components inputs).Aborted := by
  obtain ⟨e, hpc⟩ := h
  unfold Rasterizer.step
  rw [hpc]
  exact ⟨e, hpc⟩

theorem tracked_step (h : r.Tracked) (components : CustomShaderComponents)
    (inputs : RasterizerInputs) : (r.step f components inputs).Tracked := by
  have htracked := h
  unfold Tracked at h
  cases hpc : r.pc with
  | start =>
    rw [hpc] at h
    rcases step_start hpc h components inputs with ⟨hnext, -⟩ | haborted
    · exact hnext
    · exact haborted.tracked
  | receiveFromVs count call =>
    rw [hpc] at h
    obtain ⟨hholds, hlow⟩ := h
    unfold Rasterizer.step
    rw [hpc]
    dsimp only
    split
    · next hresume =>
      exact ⟨ReceiveCall.resume_holds rfl rfl hholds hresume, hlow.perTriangle, hlow.perFragment⟩
    · next hresume =>
      have hports := ReceiveCall.resume_holds rfl rfl hholds hresume
      split
      · apply setupPerTriangleFsState_tracked
        · exact hports.2
        · exact ⟨hlow.perTriangle, hlow.perFragment⟩
      · trivial
  | perTriangle triangle call =>
    rw [hpc] at h
    obtain ⟨hbusy, hholds, hlow⟩ := h
    unfold Rasterizer.step
    rw [hpc]
    dsimp only
    split
    · next hresume => exact ⟨hbusy, SendCall.resume_some hholds hresume, hlow⟩
    · next hresume =>
      apply rasterize_tracked
      · exact hbusy
      · exact ⟨SendCall.resume_none hholds hresume, hlow⟩
  | perFragment vertices width height fragment call =>
    rw [hpc] at h
    obtain ⟨hbusy, hlow, hholds⟩ := h
    unfold Rasterizer.step
    rw [hpc]
    dsimp only
    split
    · next hresume => exact ⟨hbusy, hlow, SendCall.resume_some hholds hresume⟩
    · next hresume =>
      apply rasterizeFrom_tracked
      · exact hbusy
      · exact ⟨hlow, SendCall.resume_none hholds hresume⟩
  | endless =>
    unfold Rasterizer.step
    rw [hpc]
    exact htracked
  | aborted e =>
    unfold Rasterizer.step
    rw [hpc]
    exact htracked

/-- With no triangle offered, the block goes on waiting. -/
theorem Idle.step (h : r.Idle) (components : CustomShaderComponents) {inputs : RasterizerInputs}
    (hsending : inputs.inpSending = false) :
    (r.step f components inputs).Idle ∨ (r.step f components inputs).Aborted := by
  obtain ⟨hpc | ⟨count, call, hpc, hcall⟩, hlow⟩ := h
  · exact (step_start hpc hlow components inputs).imp_left And.right
  · obtain ⟨clocks, hresume⟩ :=
      @ReceiveCall.resume_silent _ (verticesArgs count) rfl inputs.inpData r.previousBlock call hcall
    unfold Rasterizer.step
    rw [hpc, hsending]
    dsimp only
    rw [hresume]
    exact Or.inl ⟨Or.inr ⟨count, _, rfl, trivial⟩, hlow.perTriangle, hlow.perFragment⟩

end

end

end Rasterizer

end PicoGpu
