import PicoGpu.Rasterizer
import PicoGpu.TransferLengths

/- The two threads of the block `FragmentShader`, cut at the `wait()`s of their calls of
   `Transfer`.

   Correspondence (fragment_shader.cpp ↔ here):
     the `wait()` that `perTriangleThread` is in ↔ `PerTrianglePc`
     the `wait()` that `perFragmentThread` is in ↔ `PerFragmentPc`
     from a `wait()` to the next one             ↔ `PerTriangleThread.step`, `PerFragmentThread.step`
   `perTriangleAttribs` are signals: what one thread writes the other one reads a clock
   later. The requests that `perFragmentThread` builds are recorded. -/
namespace PicoGpu

/-- The dwords of the header of a request. -/
def ShaderFrontendRequest.raw (r : ShaderFrontendRequest) : List Dword :=
  [r.isaAddress,
    BitVec.ofNat 32 (BitFields.pack
      [(16, r.clientToken.toNat), (5, r.threadCount.toNat), (1, r.programType.value)]),
    BitVec.ofNat 32 (BitFields.pack
      [(2, r.inputsCount.toNat), (2, r.inputSize0.toNat), (2, r.inputSize1.toNat),
        (2, r.inputSize2.toNat), (2, r.outputsCount.toNat), (2, r.outputSize0.toNat),
        (2, r.outputSize1.toNat), (2, r.outputSize2.toNat), (3, r.uniformsCount.toNat),
        (2, r.uniformSize0.toNat), (2, r.uniformSize1.toNat), (2, r.uniformSize2.toNat)])]

structure ShadedFragment where
  x : BitVec 16
  y : BitVec 16
  z : Dword
  color : Dword
  deriving DecidableEq, Repr

instance : Inhabited ShadedFragment := ⟨⟨0, 0, 0, 0⟩⟩

/-! ## perTriangleThread -/

inductive PerTrianglePc where
  | start
  | receiving (dataToReceiveCount : Nat) (call : ReceiveCall Dword)
  | aborted (error : FatalError)

structure PerTriangleThread where
  pc : PerTrianglePc
  previousBlock : ReceivePorts
  perTriangleAttribs : Nat → Dword

namespace PerTriangleThread

def new : PerTriangleThread where
  pc := .start
  previousBlock := ⟨false, false⟩
  perTriangleAttribs := fun _ => 0

def receiveArgs (dataToReceiveCount : Nat) : ReceiveArgs where
  dataPortsCount := 3
  dataToReceiveCount := dataToReceiveCount
  outBusinessSignal := false
  timeout := none
  performHandshake := true

/-- The call after it ran to its next `wait()` or to its return. -/
def proceed (dataToReceiveCount : Nat) (t : PerTriangleThread) :
    ReceiveOutcome Dword × ReceivePorts → PerTriangleThread
  | (.suspended call, ports) =>
    { t with pc := .receiving dataToReceiveCount call, previousBlock := ports }
  | (.returned _ data, ports) =>
    { t with
      pc := .start
      previousBlock := ports
      perTriangleAttribs := fun i =>
        if i < dataToReceiveCount then data.getD i 0 else t.perTriangleAttribs i }

def step (components : CustomShaderComponents) (inpSending : Bool) (inpData : Nat → Dword)
    (t : PerTriangleThread) : PerTriangleThread :=
  match t.pc with
  | .start =>
    match calculateTriangleAttributesCount components with
    | .error e => { t with pc := .aborted e }
    | .ok dataToReceiveCount =>
      match receiveArrayImpl (receiveArgs dataToReceiveCount) t.previousBlock with
      | .ok (call, ports) =>
        { t with pc := .receiving dataToReceiveCount call, previousBlock := ports }
      | .error e => { t with pc := .aborted e }
  | .receiving dataToReceiveCount call =>
    t.proceed dataToReceiveCount
      (call.resume (receiveArgs dataToReceiveCount) inpSending inpData t.previousBlock)
  | .aborted _ => t

/-! ### Between two clocks -/

def Away (t : PerTriangleThread) : Prop := t.pc = .start ∧ t.previousBlock.outReceiving = false

/-- Waiting for a triangle of `count` dwords. -/
def Waits (count : Nat) (t : PerTriangleThread) : Prop :=
  (∃ clocks, t.pc = .receiving count (.acknowledge clocks) ∨
    t.pc = .receiving count (.stalled clocks)) ∧ t.previousBlock.outReceiving = true

/-- The packages before package `p` have been received. -/
def Takes (x : Xfer Dword) (p : Nat) (t : PerTriangleThread) : Prop :=
  t.pc = .receiving x.data.length (.package (x.data.take (p * x.ports)) p) ∧
    t.previousBlock.outReceiving = false

/-- The signals show the triangle. -/
def Shows (data : List Dword) (t : PerTriangleThread) : Prop :=
  (List.range data.length).map t.perTriangleAttribs = data

/-- Behind package `p` comes the next one, or the signals are written. -/
def AfterPackage (x : Xfer Dword) (p : Nat) (t : PerTriangleThread) : Prop :=
  (p + 1 < x.packages ∧ t.Takes x (p + 1)) ∨ (¬ p + 1 < x.packages ∧ t.Away ∧ t.Shows x.data)

section
variable {t : PerTriangleThread} {inpSending : Bool} {inpData : Nat → Dword}

theorem Away.step (h : t.Away) (components : CustomShaderComponents) (inpSending : Bool)
    (inpData : Nat → Dword) :
    (t.step components inpSending inpData).Waits
        ((3 + components.sizes.sum) * verticesInPrimitive) ∧
      (t.step components inpSending inpData).perTriangleAttribs = t.perTriangleAttribs := by
  have hcount : (3 + components.sizes.sum) * verticesInPrimitive ≠ 0 := by
    rw [verticesInPrimitive]
    omega
  have hstep : t.step components inpSending inpData = { t with
      pc := .receiving ((3 + components.sizes.sum) * verticesInPrimitive) (.acknowledge 1)
      previousBlock := { t.previousBlock with outReceiving := true } } := by
    unfold PerTriangleThread.step
    rw [h.1]
    dsimp only
    rw [calculateTriangleAttributesCount_eq]
    dsimp only
    rw [receiveArrayImpl, receiveArgs]
    dsimp only
    rw [if_neg hcount, if_neg (by decide)]
    rfl
  rw [hstep]
  exact ⟨⟨⟨1, Or.inl rfl⟩, rfl⟩, rfl⟩

theorem Waits.step_silent {count : Nat} (h : t.Waits count) (components : CustomShaderComponents)
    (inpData : Nat → Dword) :
    (t.step components false inpData).Waits count ∧
      (t.step components false inpData).perTriangleAttribs = t.perTriangleAttribs := by
  obtain ⟨⟨clocks, hpc | hpc⟩, hreceiving⟩ := h <;>
  · have hstep : t.step components false inpData =
        { t with pc := .receiving count (.stalled clocks) } := by
      unfold PerTriangleThread.step
      rw [hpc]
      rfl
    rw [hstep]
    exact ⟨⟨⟨clocks, Or.inr rfl⟩, hreceiving⟩, rfl⟩

/-- The loop over the packages, once the handshake is done or package `p` is read. -/
theorem takesPackages {x : Xfer Dword} {p : Nat} {ports : ReceivePorts}
    {components : CustomShaderComponents} (hreceiving : ports.outReceiving = false)
    (hstep : t.step components inpSending inpData = t.proceed x.data.length
      (receivePackages (receiveArgs x.data.length) (x.data.take ((p + 1) * x.ports)) (p + 1), ports))
    (hports : x.ports = 3) :
    (t.step components inpSending inpData).AfterPackage x p ∧
      (p + 1 < x.packages →
        (t.step components inpSending inpData).perTriangleAttribs = t.perTriangleAttribs) := by
  have hpackages : (receiveArgs x.data.length).packagesCount = x.packages := by
    rw [Xfer.packages, hports]
    rfl
  rw [hstep]
  unfold receivePackages
  rw [hpackages]
  by_cases hmore : p + 1 < x.packages
  · rw [if_pos hmore]
    exact ⟨Or.inl ⟨hmore, rfl, hreceiving⟩, fun _ => rfl⟩
  · rw [if_neg hmore, take_all hmore]
    refine ⟨Or.inr ⟨hmore, ⟨rfl, hreceiving⟩, ?_⟩, fun h => absurd h hmore⟩
    apply List.ext_getElem
    · rw [List.length_map, List.length_range]
    · intro i hi hi'
      rw [List.getElem_map, List.getElem_range]
      exact (if_pos hi').trans (List.getD_eq_getElem _ _ hi')

theorem Waits.step_sending {x : Xfer Dword} (h : t.Waits x.data.length) (hports : x.ports = 3)
    (hhandshake : x.performHandshake = true) (hshown : x.Shown 0 inpData)
    (components : CustomShaderComponents) :
    (t.step components true inpData).AfterPackage x 0 ∧
      (0 + 1 < x.packages →
        (t.step components true inpData).perTriangleAttribs = t.perTriangleAttribs) := by
  have hargs : receiveArgs x.data.length = x.receiveArgs false := by
    rw [receiveArgs, Xfer.receiveArgs, hports, hhandshake]
  have hread : (receiveArgs x.data.length).readPackage inpData [] = x.data.take ((0 + 1) * x.ports) := by
    rw [hargs, ← readPackage_shown false hshown, Nat.zero_mul, List.take_zero]
  obtain ⟨⟨clocks, hpc | hpc⟩, -⟩ := h <;>
  · refine @takesPackages t true inpData x 0
      ((receiveArgs x.data.length).leaveHandshake t.previousBlock) components rfl ?_ hports
    unfold PerTriangleThread.step
    rw [hpc, ← hread]
    rfl

theorem Takes.step {x : Xfer Dword} {p : Nat} (h : t.Takes x p) (hports : x.ports = 3)
    (hhandshake : x.performHandshake = true) (hshown : x.Shown p inpData)
    (components : CustomShaderComponents) (inpSending : Bool) :
    (t.step components inpSending inpData).AfterPackage x p ∧
      (p + 1 < x.packages →
        (t.step components inpSending inpData).perTriangleAttribs = t.perTriangleAttribs) := by
  have hargs : receiveArgs x.data.length = x.receiveArgs false := by
    rw [receiveArgs, Xfer.receiveArgs, hports, hhandshake]
  refine takesPackages h.2 ?_ hports
  unfold PerTriangleThread.step
  rw [h.1, ← readPackage_shown false hshown, ← hargs]
  rfl

end

end PerTriangleThread

/-! ## perFragmentThread -/

inductive PerFragmentPc where
  | start
  | receiving (fragments : List RasterizedFragment) (call : ReceiveCall RasterizedFragment)
  | sendingRequest (fragments : List RasterizedFragment) (request : List Dword) (call : SendCall)
  | receivingResponse (fragments : List RasterizedFragment) (call : ReceiveCall Dword)
  | sendingFragments (fragments : List RasterizedFragment) (response : List Dword) (i : Nat)
      (call : SendCall)
  | aborted (error : FatalError)

/-- A request with the fragments that it was built for. -/
structure BuiltRequest where
  fragments : List RasterizedFragment
  header : ShaderFrontendRequest
  data : List Dword

structure PerFragmentThread where
  pc : PerFragmentPc
  previousBlock : ReceivePorts
  request : SendPorts Dword
  response : ReceivePorts
  nextBlock : SendPorts ShadedFragment
  clientToken : BitVec 16
  requests : List BuiltRequest

/-- What the thread reads at a clock, apart from its pins. -/
structure PerFragmentInputs where
  inpSending : Bool
  inpData : Nat → RasterizedFragment
  perTriangleAttribs : Nat → Dword
  requestReceiving : Bool
  responseSending : Bool
  responseData : Nat → Dword
  nextBlockReceiving : Bool

namespace PerFragmentThread

section
variable {F : Type} (f : Floats F)

def new : PerFragmentThread where
  pc := .start
  previousBlock := ⟨false, false⟩
  request := ⟨false, fun _ => 0⟩
  response := ⟨false, false⟩
  nextBlock := ⟨false, fun _ => default⟩
  clientToken := 0
  requests := []

def saturate (a : F) : F :=
  if f.lt a f.zero then f.zero else if f.lt f.one a then f.one else a

def packRgbaToUint (rgba : Nat → F) : Dword :=
  let channel := fun i => f.toUint (f.mul (saturate f (rgba i)) f.maxByte)
  channel 0 ||| channel 1 <<< 8 ||| channel 2 <<< 16 ||| channel 3 <<< 24

/-- The results of thread `i` in the data of a response, which are behind its header. -/
def shadedFragment (fragment : RasterizedFragment) (response : List Dword) (i : Nat) :
    ShadedFragment :=
  let componentsPerOutputFragment := 5
  let data := fun k => response.getD (responseHeaderDwords + i * componentsPerOutputFragment + k) 0
  { x := fragment.fragment.x
    y := fragment.fragment.y
    z := data 4
    color := packRgbaToUint f fun k => f.ofBits (data k) }

def requestArgs (request : List Dword) : SendArgs Dword where
  dataToSend := request
  dataPortsCount := 1
  performHandshake := true

def responseArgs : ReceiveArgs where
  dataPortsCount := 1
  dataToReceiveCount := fragmentResponseDwords
  outBusinessSignal := false
  timeout := none
  performHandshake := true

/-- `Transfer::receiveWithTimeout` for the next fragment of a batch. -/
def receiveFragment (fragments : List RasterizedFragment) (t : PerFragmentThread) :
    PerFragmentThread :=
  match receiveArrayImpl (Transfer.receiveWithTimeout fragmentTimeout) t.previousBlock with
  | .ok (call, ports) => { t with pc := .receiving fragments call, previousBlock := ports }
  | .error e => { t with pc := .aborted e }

/-- From the end of the batch to the first `wait()` of the request's transfer. -/
def buildRequest (pins : FragmentShaderPins) (perTriangleAttribs : Nat → Dword)
    (fragments : List RasterizedFragment) (t : PerFragmentThread) : PerFragmentThread :=
  match pins.request (fun x => f.bits (f.ofInt x)) t.clientToken
    (fragments.map RasterizedFragment.fragment) perTriangleAttribs with
  | .error e => { t with pc := .aborted e }
  | .ok (header, data) =>
    let built : BuiltRequest := ⟨fragments, header, data⟩
    let t := { t with clientToken := header.clientToken, requests := t.requests ++ [built] }
    match sendArrayImpl (requestArgs (header.raw ++ data)) t.request with
    | .ok (call, ports) =>
      { t with pc := .sendingRequest fragments (header.raw ++ data) call, request := ports }
    | .error e => { t with pc := .aborted e }

def receiveResponse (fragments : List RasterizedFragment) (t : PerFragmentThread) :
    PerFragmentThread :=
  match receiveArrayImpl responseArgs t.response with
  | .ok (call, ports) => { t with pc := .receivingResponse fragments call, response := ports }
  | .error e => { t with pc := .aborted e }

/-- The loop over the results, from the test for fragment `i`. -/
def sendFragments (fragments : List RasterizedFragment) (response : List Dword) (i : Nat)
    (t : PerFragmentThread) : PerFragmentThread :=
  match fragments[i]? with
  | none => { t with pc := .start }
  | some fragment =>
    match sendArrayImpl (Transfer.send (shadedFragment f fragment response i)) t.nextBlock with
    | .ok (call, ports) =>
      { t with pc := .sendingFragments fragments response i call, nextBlock := ports }
    | .error e => { t with pc := .aborted e }

/-- The call for a fragment after it ran to its next `wait()` or to its return. -/
def receivedFragment (pins : FragmentShaderPins) (perTriangleAttribs : Nat → Dword)
    (fragments : List RasterizedFragment) (t : PerFragmentThread) :
    ReceiveOutcome RasterizedFragment × ReceivePorts → PerFragmentThread
  | (.suspended call, ports) => { t with pc := .receiving fragments call, previousBlock := ports }
  | (.returned true received, ports) =>
    let t := { t with previousBlock := ports }
    let fragments := fragments ++ received
    if fragments.length < Isa.simdSize then t.receiveFragment fragments
    else buildRequest f pins perTriangleAttribs fragments t
  | (.returned false _, ports) =>
    let t := { t with previousBlock := ports }
    if fragments.length = 0 then { t with pc := .start }
    else buildRequest f pins perTriangleAttribs fragments t

def step (pins : FragmentShaderPins) (inputs : PerFragmentInputs) (t : PerFragmentThread) :
    PerFragmentThread :=
  match t.pc with
  | .start => t.receiveFragment []
  | .receiving fragments call =>
    receivedFragment f pins inputs.perTriangleAttribs fragments t
      (call.resume (Transfer.receiveWithTimeout fragmentTimeout) inputs.inpSending inputs.inpData
        t.previousBlock)
  | .sendingRequest fragments request call =>
    match call.resume (requestArgs request) inputs.requestReceiving t.request with
    | (some call, ports) => { t with pc := .sendingRequest fragments request call, request := ports }
    | (none, ports) => { t with request := ports }.receiveResponse fragments
  | .receivingResponse fragments call =>
    match call.resume responseArgs inputs.responseSending inputs.responseData t.response with
    | (.suspended call, ports) =>
      { t with pc := .receivingResponse fragments call, response := ports }
    | (.returned _ response, ports) =>
      sendFragments f fragments response 0 { t with response := ports }
  | .sendingFragments fragments response i call =>
    match call.resume (Transfer.send (shadedFragment f (fragments.getD i default) response i))
      inputs.nextBlockReceiving t.nextBlock with
    | (some call, ports) =>
      { t with pc := .sendingFragments fragments response i call, nextBlock := ports }
    | (none, ports) => sendFragments f fragments response (i + 1) { t with nextBlock := ports }
  | .aborted _ => t

/-! ### Between two clocks -/

/-- Not waiting for a fragment. -/
def Away (t : PerFragmentThread) : Prop :=
  (∀ fragments call, t.pc ≠ .receiving fragments call) ∧ t.previousBlock.outReceiving = false

/-- Waiting for one more fragment, since the clock before. -/
def Waits (fragments : List RasterizedFragment) (t : PerFragmentThread) : Prop :=
  t.pc = .receiving fragments (.acknowledge 1) ∧ t.previousBlock.outReceiving = true

/-- There was no fragment a clock ago, and the call is cancelled next. -/
def GivesUp (fragments : List RasterizedFragment) (t : PerFragmentThread) : Prop :=
  t.pc = .receiving fragments (.stalled 1) ∧ t.previousBlock.outReceiving = true

/-- The request for a batch: the coordinates of its fragments, the uniforms, and what the
    signals show of a triangle. -/
def BuiltFrom (f : Floats F) (pins : FragmentShaderPins) (attributes : List Dword)
    (fragments : List RasterizedFragment) (request : BuiltRequest) : Prop :=
  request.fragments = fragments ∧
    request.data = (fragments.flatMap fun fragment =>
        [f.bits (f.ofInt fragment.fragment.x), f.bits (f.ofInt fragment.fragment.y)]) ++
      uniformValues pins.inpUniforms.sizes pins.inpUniformsData ++ attributes

variable {f} {t : PerFragmentThread} {pins : FragmentShaderPins} {inputs : PerFragmentInputs}

theorem receiveFragment_waits (fragments : List RasterizedFragment) (t : PerFragmentThread) :
    (t.receiveFragment fragments).Waits fragments ∧
      (t.receiveFragment fragments).requests = t.requests :=
  ⟨⟨rfl, rfl⟩, rfl⟩

theorem receiveResponse_away (fragments : List RasterizedFragment)
    (hreceiving : t.previousBlock.outReceiving = false) :
    (t.receiveResponse fragments).Away ∧ (t.receiveResponse fragments).requests = t.requests := by
  refine ⟨⟨?_, hreceiving⟩, rfl⟩
  intro fragments' call hpc
  cases hpc

theorem sendFragments_away (fragments : List RasterizedFragment) (response : List Dword) (i : Nat)
    (hreceiving : t.previousBlock.outReceiving = false) :
    (sendFragments f fragments response i t).Away ∧
      (sendFragments f fragments response i t).requests = t.requests := by
  unfold sendFragments
  cases fragments[i]? with
  | none =>
    refine ⟨⟨?_, hreceiving⟩, rfl⟩
    intro fragments' call hpc
    cases hpc
  | some fragment =>
    refine ⟨⟨?_, hreceiving⟩, rfl⟩
    intro fragments' call hpc
    cases hpc

theorem buildRequest_away (perTriangleAttribs : Nat → Dword) (fragments : List RasterizedFragment)
    (hreceiving : t.previousBlock.outReceiving = false) :
    (buildRequest f pins perTriangleAttribs fragments t).Away ∧
    ∃ request, (buildRequest f pins perTriangleAttribs fragments t).requests =
        t.requests ++ [request] ∧
      BuiltFrom f pins ((List.range ((3 + pins.inpCustomInputComponents.sizes.sum) *
        verticesInPrimitive)).map perTriangleAttribs) fragments request := by
  obtain ⟨header, hrequest⟩ : ∃ header, pins.request (fun x => f.bits (f.ofInt x)) t.clientToken
      (fragments.map RasterizedFragment.fragment) perTriangleAttribs = .ok (header,
        (fragments.flatMap fun fragment =>
          [f.bits (f.ofInt fragment.fragment.x), f.bits (f.ofInt fragment.fragment.y)]) ++
        uniformValues pins.inpUniforms.sizes pins.inpUniformsData ++
        (List.range ((3 + pins.inpCustomInputComponents.sizes.sum) *
          verticesInPrimitive)).map perTriangleAttribs) := by
    unfold FragmentShaderPins.request
    rw [calculateTriangleAttributesCount_eq, ok_bind, writeUniforms_eq, ok_bind, List.flatMap_map]
    exact ⟨_, rfl⟩
  unfold buildRequest
  rw [hrequest]
  dsimp only
  refine ⟨⟨?_, ?_⟩, ?_⟩
  · intro fragments' call hpc
    split at hpc
    · cases hpc
    · cases hpc
  · split
    · exact hreceiving
    · exact hreceiving
  · split
    · exact ⟨_, rfl, rfl, rfl⟩
    · exact ⟨_, rfl, rfl, rfl⟩

/-! ### What a clock does -/

/-- Away from the rasterizer, the thread works on a request or begins a batch. -/
theorem Away.step (h : t.Away) (pins : FragmentShaderPins) (inputs : PerFragmentInputs) :
    ((t.step f pins inputs).Away ∨ (t.step f pins inputs).Waits []) ∧
      (t.step f pins inputs).requests = t.requests := by
  obtain ⟨hnot, hreceiving⟩ := h
  unfold PerFragmentThread.step
  cases hpc : t.pc with
  | start =>
    obtain ⟨hwaits, hrequests⟩ := receiveFragment_waits [] t
    exact ⟨Or.inr hwaits, hrequests⟩
  | receiving fragments call => exact absurd hpc (hnot fragments call)
  | sendingRequest fragments request call =>
    dsimp only
    split
    · refine ⟨Or.inl ⟨?_, hreceiving⟩, rfl⟩
      intro fragments' call' hpc'
      cases hpc'
    · next ports _ =>
      obtain ⟨haway, hrequests⟩ :=
        @receiveResponse_away { t with request := ports } fragments hreceiving
      exact ⟨Or.inl haway, hrequests⟩
  | receivingResponse fragments call =>
    dsimp only
    split
    · refine ⟨Or.inl ⟨?_, hreceiving⟩, rfl⟩
      intro fragments' call' hpc'
      cases hpc'
    · next response ports _ =>
      obtain ⟨haway, hrequests⟩ :=
        @sendFragments_away F f { t with response := ports } fragments response 0 hreceiving
      exact ⟨Or.inl haway, hrequests⟩
  | sendingFragments fragments response i call =>
    dsimp only
    split
    · refine ⟨Or.inl ⟨?_, hreceiving⟩, rfl⟩
      intro fragments' call' hpc'
      cases hpc'
    · next ports _ =>
      obtain ⟨haway, hrequests⟩ :=
        @sendFragments_away F f { t with nextBlock := ports } fragments response (i + 1) hreceiving
      exact ⟨Or.inl haway, hrequests⟩
  | aborted e =>
    refine ⟨Or.inl ⟨?_, hreceiving⟩, rfl⟩
    intro fragments' call' hpc'
    rw [hpc] at hpc'
    cases hpc'

theorem Waits.step_silent {fragments : List RasterizedFragment} (h : t.Waits fragments)
    (hsending : inputs.inpSending = false) :
    (t.step f pins inputs).GivesUp fragments ∧ (t.step f pins inputs).requests = t.requests := by
  have hstep : t.step f pins inputs = { t with pc := .receiving fragments (.stalled 1) } := by
    unfold PerFragmentThread.step
    rw [h.1, hsending]
    rfl
  rw [hstep]
  exact ⟨⟨rfl, h.2⟩, rfl⟩

/-- A batch with a further fragment is continued, or it is full. -/
theorem Waits.step_sending {fragments : List RasterizedFragment} (h : t.Waits fragments)
    (hsending : inputs.inpSending = true) :
    ((t.step f pins inputs).Waits (fragments ++ [inputs.inpData 0]) ∧
      (t.step f pins inputs).requests = t.requests) ∨
    ((t.step f pins inputs).Away ∧
      ∃ request, (t.step f pins inputs).requests = t.requests ++ [request] ∧
        BuiltFrom f pins ((List.range ((3 + pins.inpCustomInputComponents.sizes.sum) *
          verticesInPrimitive)).map inputs.perTriangleAttribs)
          (fragments ++ [inputs.inpData 0]) request) := by
  have hcall := resume_receive_offered fragmentTimeout inputs.inpData t.previousBlock
  have hstep : t.step f pins inputs =
      let t := { t with previousBlock := ⟨false, t.previousBlock.outBusinessSignal⟩ }
      if (fragments ++ [inputs.inpData 0]).length < Isa.simdSize then
        t.receiveFragment (fragments ++ [inputs.inpData 0])
      else buildRequest f pins inputs.perTriangleAttribs (fragments ++ [inputs.inpData 0]) t := by
    unfold PerFragmentThread.step
    rw [h.1, hsending]
    dsimp only
    rw [hcall]
    rfl
  rw [hstep]
  dsimp only
  split
  · exact Or.inl (receiveFragment_waits _ _)
  · exact Or.inr (buildRequest_away _ _ rfl)

/-- The wait inside the loop of the call ends the batch, whatever is offered. -/
theorem GivesUp.step {fragments : List RasterizedFragment} (h : t.GivesUp fragments) :
    (t.step f pins inputs).Away ∧
      ((t.step f pins inputs).requests = t.requests ∨
        fragments ≠ [] ∧ ∃ request, (t.step f pins inputs).requests = t.requests ++ [request] ∧
          BuiltFrom f pins ((List.range ((3 + pins.inpCustomInputComponents.sizes.sum) *
            verticesInPrimitive)).map inputs.perTriangleAttribs) fragments request) := by
  have hstep : t.step f pins inputs =
      let t := { t with previousBlock := ⟨false, t.previousBlock.outBusinessSignal⟩ }
      if fragments.length = 0 then { t with pc := .start }
      else buildRequest f pins inputs.perTriangleAttribs fragments t := by
    unfold PerFragmentThread.step
    rw [h.1]
    rfl
  rw [hstep]
  dsimp only
  split
  · refine ⟨⟨?_, rfl⟩, Or.inl rfl⟩
    intro fragments' call hpc
    cases hpc
  · next hne =>
    obtain ⟨haway, hbuilt⟩ := @buildRequest_away F f
      { t with previousBlock := ⟨false, t.previousBlock.outBusinessSignal⟩ } pins
      inputs.perTriangleAttribs fragments rfl
    exact ⟨haway, Or.inr ⟨fun hnil => hne (by rw [hnil]; rfl), hbuilt⟩⟩

/-! ### Fragments in the block -/

def Aborted (t : PerFragmentThread) : Prop := ∃ e, t.pc = .aborted e

instance (t : PerFragmentThread) : Decidable t.Aborted :=
  decidable_of_iff ((match t.pc with | .aborted _ => true | _ => false) = true) (by
    unfold Aborted
    cases t.pc <;> simp)

/-- Fragments were received and have not all been sent on. -/
def holdsFragments (t : PerFragmentThread) : Bool :=
  match t.pc with
  | .start | .aborted _ => false
  | .receiving fragments _ => !fragments.isEmpty
  | .sendingRequest _ _ _ | .receivingResponse _ _ | .sendingFragments _ _ _ _ => true

/-- Nothing is offered. -/
structure Low (t : PerFragmentThread) : Prop where
  request : t.request.outSending = false
  nextBlock : t.nextBlock.outSending = false

structure Idle (t : PerFragmentThread) : Prop where
  empty : t.holdsFragments = false
  low : t.Low

/-- Something is offered only in the calls that send. -/
def Tracked (t : PerFragmentThread) : Prop :=
  match t.pc with
  | .start | .receiving _ _ | .receivingResponse _ _ => t.Low
  | .sendingRequest _ _ call => call.Holds t.request ∧ t.nextBlock.outSending = false
  | .sendingFragments _ _ _ call => t.request.outSending = false ∧ call.Holds t.nextBlock
  | .aborted _ => True

theorem tracked_new : new.Tracked := ⟨rfl, rfl⟩

theorem Tracked.idle (h : t.Tracked) (hempty : t.holdsFragments = false)
    (hrunning : ¬ t.Aborted) : t.Idle := by
  refine ⟨hempty, ?_⟩
  unfold Tracked at h
  unfold holdsFragments at hempty
  cases hpc : t.pc with
  | start | receiving =>
    rw [hpc] at h
    exact h
  | aborted e => exact absurd ⟨e, hpc⟩ hrunning
  | sendingRequest | receivingResponse | sendingFragments =>
    rw [hpc] at hempty
    cases hempty

theorem buildRequest_tracked (hlow : t.Low) (perTriangleAttribs : Nat → Dword)
    (fragments : List RasterizedFragment) :
    (buildRequest f pins perTriangleAttribs fragments t).Tracked := by
  unfold buildRequest
  split
  · trivial
  · dsimp only
    split
    · next hsend => exact ⟨sendArrayImpl_holds hlow.request hsend, hlow.nextBlock⟩
    · trivial

theorem sendFragments_tracked (hlow : t.Low) (fragments : List RasterizedFragment)
    (response : List Dword) (i : Nat) : (sendFragments f fragments response i t).Tracked := by
  unfold sendFragments
  split
  · exact ⟨hlow.request, hlow.nextBlock⟩
  · split
    · next hsend => exact ⟨hlow.request, sendArrayImpl_holds hlow.nextBlock hsend⟩
    · trivial

theorem receivedFragment_tracked (hlow : t.Low) (perTriangleAttribs : Nat → Dword)
    (fragments : List RasterizedFragment)
    (outcome : ReceiveOutcome RasterizedFragment × ReceivePorts) :
    (receivedFragment f pins perTriangleAttribs fragments t outcome).Tracked := by
  unfold receivedFragment
  dsimp only
  split
  · exact ⟨hlow.request, hlow.nextBlock⟩
  · split
    · exact ⟨hlow.request, hlow.nextBlock⟩
    · apply buildRequest_tracked
      exact ⟨hlow.request, hlow.nextBlock⟩
  · split
    · exact ⟨hlow.request, hlow.nextBlock⟩
    · apply buildRequest_tracked
      exact ⟨hlow.request, hlow.nextBlock⟩

theorem tracked_step (h : t.Tracked) (pins : FragmentShaderPins) (inputs : PerFragmentInputs) :
    (t.step f pins inputs).Tracked := by
  have htracked := h
  unfold Tracked at h
  unfold PerFragmentThread.step
  cases hpc : t.pc with
  | start =>
    rw [hpc] at h
    exact ⟨h.request, h.nextBlock⟩
  | receiving fragments call =>
    rw [hpc] at h
    exact receivedFragment_tracked h _ _ _
  | sendingRequest fragments request call =>
    rw [hpc] at h
    obtain ⟨hholds, hlow⟩ := h
    dsimp only
    split
    · next hresume => exact ⟨SendCall.resume_some hholds hresume, hlow⟩
    · next hresume => exact ⟨SendCall.resume_none hholds hresume, hlow⟩
  | receivingResponse fragments call =>
    rw [hpc] at h
    dsimp only
    split
    · exact ⟨h.request, h.nextBlock⟩
    · apply sendFragments_tracked
      exact ⟨h.request, h.nextBlock⟩
  | sendingFragments fragments response i call =>
    rw [hpc] at h
    obtain ⟨hlow, hholds⟩ := h
    dsimp only
    split
    · next hresume => exact ⟨hlow, SendCall.resume_some hholds hresume⟩
    · next hresume =>
      apply sendFragments_tracked
      exact ⟨hlow, SendCall.resume_none hholds hresume⟩
  | aborted e => exact htracked

theorem Aborted.step (h : t.Aborted) (pins : FragmentShaderPins) (inputs : PerFragmentInputs) :
    (t.step f pins inputs).Aborted := by
  obtain ⟨e, hpc⟩ := h
  unfold PerFragmentThread.step
  rw [hpc]
  exact ⟨e, hpc⟩

/-- With no fragment offered, a thread that has none goes on waiting for one. -/
theorem Idle.step (h : t.Idle) (hrunning : ¬ t.Aborted)
    (hcall : t.Away ∨ (∃ fragments, t.Waits fragments) ∨ ∃ fragments, t.GivesUp fragments)
    (pins : FragmentShaderPins) (hsending : inputs.inpSending = false) :
    (t.step f pins inputs).Idle := by
  obtain ⟨hempty, hlow⟩ := h
  unfold holdsFragments at hempty
  cases hpc : t.pc with
  | start =>
    have hstep : t.step f pins inputs = t.receiveFragment [] := by
      unfold PerFragmentThread.step
      rw [hpc]
    rw [hstep]
    exact ⟨rfl, hlow.request, hlow.nextBlock⟩
  | aborted e => exact absurd ⟨e, hpc⟩ hrunning
  | receiving fragments call =>
    rw [hpc] at hempty
    have hnil : fragments = [] := by
      cases fragments with
      | nil => rfl
      | cons fragment fragments => cases hempty
    subst hnil
    rcases hcall with haway | ⟨fragments, hwaits⟩ | ⟨fragments, hgivesUp⟩
    · exact absurd hpc (haway.1 _ _)
    · have hfragments : fragments = [] := by
        rw [hwaits.1] at hpc
        cases hpc
        rfl
      subst hfragments
      have hstep : t.step f pins inputs = { t with pc := .receiving [] (.stalled 1) } := by
        unfold PerFragmentThread.step
        rw [hwaits.1, hsending]
        rfl
      rw [hstep]
      exact ⟨rfl, hlow.request, hlow.nextBlock⟩
    · have hfragments : fragments = [] := by
        rw [hgivesUp.1] at hpc
        cases hpc
        rfl
      subst hfragments
      have hstep : t.step f pins inputs = { t with
          pc := .start
          previousBlock := ⟨false, t.previousBlock.outBusinessSignal⟩ } := by
        unfold PerFragmentThread.step
        rw [hgivesUp.1]
        rfl
      rw [hstep]
      exact ⟨rfl, hlow.request, hlow.nextBlock⟩
  | sendingRequest | receivingResponse | sendingFragments =>
    rw [hpc] at hempty
    cases hempty

end

end PerFragmentThread

end PicoGpu
