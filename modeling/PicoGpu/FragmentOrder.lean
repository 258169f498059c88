import PicoGpu.Lib.Streams
import PicoGpu.MemoryWrites
import PicoGpu.RasterOrder

/- The stream of fragments through the `Gpu`, from the loops of the rasterizer over the batches
   of the fragment shader to the output merger. Each of the three is followed by what it
   holds: the pixels that are left to the loops, the fragments of the batch, the results that
   are still to be sent. At a clock a process gives an item exactly when its send call
   returns, and takes one when its receive call returns with it.

   What is proved:
     1. `Rasterizer.Scans.step`: the rasterizer gives the hit pixels of its triangles in the
        order of the triangles, and row by row.
     2. `PerFragmentThread.taken_given`: the fragment shader takes what the rasterizer gives at
        the same clock. The reverse is not true: a call that is cancelled loses the fragment.
     3. `Gpu.rasterization_order`, `Gpu.fragments_shaded_once`: what comes to the output merger. -/
namespace PicoGpu
open Clocked Streams

/-! ## What the rasterizer gives -/

namespace Rasterizer
variable {F : Type} {f : Floats F} {components : CustomShaderComponents} {width height : Dword}
  {r : Rasterizer F} {inputs : RasterizerInputs}

def coordinates (fragment : UnshadedFragment) : Nat × Nat :=
  (fragment.x.toNat, fragment.y.toNat)

/-- The pixels of the framebuffer that a triangle hits, row by row. -/
def hitPixels (f : Floats F) (width height : Dword) (triangle : Triangle F) : List (Nat × Nat) :=
  (pixels width.toNat height.toNat).filter (isCovered f triangle.vertices)

/-- The pixels that are left of the triangle that the block works on. -/
def left (f : Floats F) (width height : Dword) (r : Rasterizer F) : List (Nat × Nat) :=
  match r.pc with
  | .perTriangle triangle _ => hitPixels f width height triangle
  | .perFragment vertices _ _ fragment _ =>
    coordinates fragment.fragment :: remaining (isCovered f vertices) width.toNat height.toNat
      (fragment.fragment.x.toNat + 1) fragment.fragment.y.toNat
  | _ => []

/-- The loops are at a pixel of the framebuffer that is on offer. -/
def Scans (width height : Dword) (r : Rasterizer F) : Prop :=
  match r.pc with
  | .perFragment vertices width' height' fragment _ =>
    width' = width ∧ height' = height ∧
      r.OnOffer vertices width height fragment.fragment.x fragment.fragment.y ∧
      fragment.fragment.x.toNat < width.toNat ∧ fragment.fragment.y.toNat < height.toNat
  | .endless => False
  | _ => True

theorem rasterizeFrom_left {vertices : Vertices F} {scan : Scan} {rest : List (Nat × Nat)}
    (h : scan.Leads f vertices width height rest) (r : Rasterizer F) :
    (r.rasterizeFrom vertices width height scan).left f width height = rest ∧
      (r.rasterizeFrom vertices width height scan).Scans width height ∧
      (r.rasterizeFrom vertices width height scan).triangles = r.triangles := by
  cases scan with
  | hit x y =>
    obtain ⟨hx, hy, hrest⟩ := h
    exact ⟨hrest.symm, ⟨rfl, rfl, rasterizeFrom_onOffer r x y, hx, hy⟩, rfl⟩
  | finished => exact ⟨h.symm, trivial, rfl⟩
  | endless => exact h.elim

theorem hitPixels_empty (hheight : ¬ 0 < height.toNat) (triangle : Triangle F) :
    hitPixels f width height triangle = [] := by
  have hzero : height.toNat = 0 := Nat.eq_zero_of_not_pos hheight
  unfold hitPixels pixels
  rw [hzero]
  rfl

/-- The pixels of a new triangle are added to those that are left, and the ones that are given
    are taken from them. -/
structure Gives (f : Floats F) (width height : Dword) (inputs : RasterizerInputs)
    (r r' : Rasterizer F) : Prop where
  scans : r'.Scans width height
  conserved : ∃ new, r'.triangles.flatMap (hitPixels f width height) =
      r.triangles.flatMap (hitPixels f width height) ++ new ∧
    r.left f width height ++ new =
      (r.sends inputs).map coordinates ++ r'.left f width height

/-- A clock at which nothing is given and no triangle is set up. -/
theorem gives_nothing {r' : Rasterizer F} (hscans : r'.Scans width height)
    (htriangles : r'.triangles = r.triangles) (hsends : r.sends inputs = [])
    (hleft : r'.left f width height = r.left f width height) :
    Gives f width height inputs r r' where
  scans := hscans
  conserved := by
    refine ⟨[], ?_, ?_⟩
    · rw [htriangles, List.append_nil]
    · rw [hsends, hleft, List.append_nil]
      rfl

theorem left_between (hpc : r.pc = .start ∨ ∃ e, r.pc = .aborted e) :
    r.left f width height = [] := by
  unfold left
  rcases hpc with hpc | ⟨e, hpc⟩
  · rw [hpc]
  · rw [hpc]

theorem setup_gives (hsends : r.sends inputs = []) (hleft : r.left f width height = [])
    (vertices : Vertices F) (ports : ReceivePorts) :
    Gives f width height inputs r
      (setupPerTriangleFsState f vertices { r with previousBlock := ports }) := by
  unfold setupPerTriangleFsState
  dsimp only
  split
  · refine ⟨trivial, hitPixels f width height ⟨vertices, dataToSend f vertices⟩, ?_, ?_⟩
    · rw [List.flatMap_append, List.flatMap_cons, List.flatMap_nil, List.append_nil]
    · rw [hsends, hleft]
      rfl
  · exact gives_nothing trivial rfl hsends hleft.symm

/-- The transfer of the triangle is over. -/
theorem rasterize_gives (hwidth : width.toNat < 2 ^ 16) (hheight : height.toNat < 2 ^ 16)
    {triangle : Triangle F} {call : SendCall} (hpc : r.pc = .perTriangle triangle call)
    (ports : SendPorts Dword) :
    Gives f width height inputs r
      (rasterize f triangle.vertices width height { r with perTriangle := ports }) := by
  have hsends : r.sends inputs = [] := by
    unfold sends
    rw [hpc]
  have hleft : r.left f width height = hitPixels f width height triangle := by
    unfold left
    rw [hpc]
  unfold rasterize
  split
  · next hpos =>
    have hleads := @nextHit_leads F f triangle.vertices width height hwidth hheight maxIterations 0 0
      (Nat.zero_le _) hpos (iterations_suffice hwidth hheight _ _)
    obtain ⟨hrest, hscans, htriangles⟩ :=
      rasterizeFrom_left hleads { r with perTriangle := ports }
    apply gives_nothing
    · exact hscans
    · exact htriangles
    · exact hsends
    · rw [hrest, hleft]
      exact remaining_all hpos
  · next hpos =>
    apply gives_nothing
    · trivial
    · rfl
    · exact hsends
    · rw [hleft, hitPixels_empty hpos]
      rfl

theorem start_gives (hpc : r.pc = .start) :
    Gives f width height inputs r (r.step f components inputs) := by
  have hsends : r.sends inputs = [] := by
    unfold sends
    rw [hpc]
  have hleft : r.left f width height = [] := left_between (.inl hpc)
  unfold Rasterizer.step
  rw [hpc]
  dsimp only
  split
  · exact gives_nothing trivial rfl hsends hleft.symm
  · split
    · exact gives_nothing trivial rfl hsends hleft.symm
    · exact gives_nothing trivial rfl hsends hleft.symm

theorem receiveFromVs_gives {count : Nat} {call : ReceiveCall Dword}
    (hpc : r.pc = .receiveFromVs count call) :
    Gives f width height inputs r (r.step f components inputs) := by
  have hsends : r.sends inputs = [] := by
    unfold sends
    rw [hpc]
  have hleft : r.left f width height = [] := by
    unfold left
    rw [hpc]
  unfold Rasterizer.step
  rw [hpc]
  dsimp only
  split
  · exact gives_nothing trivial rfl hsends hleft.symm
  · split
    · exact setup_gives hsends hleft _ _
    · exact gives_nothing trivial rfl hsends hleft.symm

section
variable (hwidth : width.toNat < 2 ^ 16) (hheight : height.toNat < 2 ^ 16)
include hwidth hheight

theorem perTriangle_gives {triangle : Triangle F} {call : SendCall}
    (hpc : r.pc = .perTriangle triangle call) (hinpWidth : inputs.inpWidth = width)
    (hinpHeight : inputs.inpHeight = height) :
    Gives f width height inputs r (r.step f components inputs) := by
  have hsends : r.sends inputs = [] := by
    unfold sends
    rw [hpc]
  unfold Rasterizer.step
  rw [hpc]
  dsimp only
  split
  · apply gives_nothing
    · trivial
    · rfl
    · exact hsends
    · unfold left
      rw [hpc]
  · rw [hinpWidth, hinpHeight]
    exact rasterize_gives hwidth hheight hpc _

/-- The loops go on to the next pixel when the fragment on offer is taken. -/
theorem perFragment_gives {vertices : Vertices F} {width' height' : Dword}
    {fragment : RasterizedFragment} {call : SendCall} (h : r.Scans width height)
    (hpc : r.pc = .perFragment vertices width' height' fragment call) :
    Gives f width height inputs r (r.step f components inputs) := by
  have hscans := h
  unfold Scans at h
  rw [hpc] at h
  obtain ⟨rfl, rfl, hoffer, hx, hy⟩ := h
  cases hreceiving : inputs.perFragmentReceiving with
  | false =>
    obtain ⟨hstep, hsends⟩ := @OnOffer.waits F f components _ _ _ _ _ _ _ hoffer hreceiving
    rw [hstep]
    exact gives_nothing hscans rfl hsends rfl
  | true =>
    obtain ⟨-, hsends⟩ := @OnOffer.taken F f components _ _ _ _ _ _ _ hoffer hreceiving
    obtain ⟨⟨triangle, hcall⟩, -⟩ := hoffer
    obtain ⟨ports, -, hstep⟩ := @step_fragment_taken F f components r inputs _ _ _ _ hcall hreceiving
    have hnext := next_toNat hx hwidth
    have hleads := @nextHit_leads F f vertices width' height' hwidth hheight maxIterations
      (fragment.fragment.x + 1) fragment.fragment.y (by omega) hy (iterations_suffice hwidth hheight _ _)
    rw [hnext] at hleads
    obtain ⟨hrest, hscans, htriangles⟩ :=
      rasterizeFrom_left hleads { r with perFragment := ports }
    rw [hstep]
    refine ⟨hscans, [], ?_, ?_⟩
    · rw [htriangles, List.append_nil]
    · rw [hsends, hrest, List.append_nil]
      unfold left
      rw [hpc]
      rfl

theorem Scans.step (h : r.Scans width height) (hinpWidth : inputs.inpWidth = width)
    (hinpHeight : inputs.inpHeight = height) :
    Gives f width height inputs r (r.step f components inputs) := by
  cases hpc : r.pc with
  | start => exact start_gives hpc
  | receiveFromVs count call => exact receiveFromVs_gives hpc
  | perTriangle triangle call => exact perTriangle_gives hwidth hheight hpc hinpWidth hinpHeight
  | perFragment vertices width' height' fragment call =>
    exact perFragment_gives hwidth hheight h hpc
  | endless =>
    unfold Scans at h
    rw [hpc] at h
    exact h.elim
  | aborted e =>
    unfold Rasterizer.step
    rw [hpc]
    apply gives_nothing h rfl _ rfl
    unfold sends
    rw [hpc]

end

end Rasterizer

/-! ## What the fragment shader takes and gives -/

namespace PerFragmentThread
variable {F : Type} {f : Floats F} {pins : FragmentShaderPins} {inputs : PerFragmentInputs}
  {t : PerFragmentThread}

/-- The fragment that a receive call returns with at this clock. -/
def takes (inputs : PerFragmentInputs) (t : PerFragmentThread) : List RasterizedFragment :=
  match t.pc with
  | .receiving _ call =>
    match call.resume (Transfer.receiveWithTimeout fragmentTimeout) inputs.inpSending inputs.inpData
      t.previousBlock with
    | (.returned true received, _) => received
    | _ => []
  | _ => []

/-- The batch whose response comes at this clock, and the response. -/
def answers (inputs : PerFragmentInputs) (t : PerFragmentThread) :
    List (List RasterizedFragment × List Dword) :=
  match t.pc with
  | .receivingResponse fragments call =>
    match call.resume responseArgs inputs.responseSending inputs.responseData t.response with
    | (.returned _ response, _) => [(fragments, response)]
    | _ => []
  | _ => []

/-- The fragment whose send call returns at this clock, as the ports show it. -/
def gives (f : Floats F) (inputs : PerFragmentInputs) (t : PerFragmentThread) :
    List ShadedFragment :=
  match t.pc with
  | .sendingFragments fragments response i call =>
    match call.resume (Transfer.send (shadedFragment f (fragments.getD i default) response i))
      inputs.nextBlockReceiving t.nextBlock with
    | (none, _) => [t.nextBlock.outDataPorts 0]
    | (some _, _) => []
  | _ => []

/-- The fragments that a response makes of a batch. -/
def results (f : Floats F) (batch : List RasterizedFragment × List Dword) : List ShadedFragment :=
  batch.1.mapIdx fun i fragment => shadedFragment f fragment batch.2 i

/-- The fragments that were taken and wait for a response. -/
def waiting (t : PerFragmentThread) : List RasterizedFragment :=
  match t.pc with
  | .receiving fragments _ | .sendingRequest fragments _ _ | .receivingResponse fragments _ =>
    fragments
  | _ => []

/-- The results that are still to be sent. -/
def pending (f : Floats F) (t : PerFragmentThread) : List ShadedFragment :=
  match t.pc with
  | .sendingFragments fragments response i _ => (results f (fragments, response)).drop i
  | _ => []

/-- A result is on offer exactly in the calls that send one. -/
def Offers (f : Floats F) (t : PerFragmentThread) : Prop :=
  match t.pc with
  | .sendingFragments fragments response i call =>
    call = .acknowledge 1 1 ∧ t.nextBlock.outSending = true ∧
      ∃ fragment, fragments[i]? = some fragment ∧
        t.nextBlock.outDataPorts 0 = shadedFragment f fragment response i
  | .aborted _ => False
  | _ => t.nextBlock.outSending = false

/-- What a clock makes of the fragments that are held. -/
structure Passes (f : Floats F) (inputs : PerFragmentInputs) (t t' : PerFragmentThread) : Prop where
  offers : t'.Offers f
  waiting : t.waiting ++ t.takes inputs = (t.answers inputs).flatMap Prod.fst ++ t'.waiting
  pending : t.pending f ++ (t.answers inputs).flatMap (results f) =
    t.gives f inputs ++ t'.pending f

theorem pending_eq {fragments : List RasterizedFragment} {response : List Dword} {i : Nat}
    {fragment : RasterizedFragment} (h : fragments[i]? = some fragment) :
    (results f (fragments, response)).drop i =
      shadedFragment f fragment response i :: (results f (fragments, response)).drop (i + 1) := by
  have hlt : i < (results f (fragments, response)).length := by
    unfold results
    rw [List.length_mapIdx]
    exact (List.getElem?_eq_some_iff.mp h).1
  obtain ⟨_, rfl⟩ := List.getElem?_eq_some_iff.mp h
  rw [List.drop_eq_getElem_cons hlt]
  congr 1
  exact List.getElem_mapIdx

theorem sendFragments_passes (hlow : t.nextBlock.outSending = false)
    (fragments : List RasterizedFragment) (response : List Dword) (i : Nat) :
    (sendFragments f fragments response i t).Offers f ∧
      (sendFragments f fragments response i t).waiting = [] ∧
      (sendFragments f fragments response i t).pending f =
        (results f (fragments, response)).drop i := by
  unfold sendFragments
  cases hfragment : fragments[i]? with
  | none =>
    refine ⟨hlow, rfl, ?_⟩
    have hlength : (results f (fragments, response)).length ≤ i := by
      unfold results
      rw [List.length_mapIdx]
      exact List.getElem?_eq_none_iff.mp hfragment
    rw [List.drop_of_length_le hlength]
    rfl
  | some fragment => exact ⟨⟨rfl, rfl, fragment, hfragment, rfl⟩, rfl, rfl⟩

/-- The request is never empty, so its send call is not refused. -/
theorem buildRequest_passes (hlow : t.nextBlock.outSending = false)
    (perTriangleAttribs : Nat → Dword) (fragments : List RasterizedFragment) :
    (buildRequest f pins perTriangleAttribs fragments t).Offers f ∧
      (buildRequest f pins perTriangleAttribs fragments t).waiting = fragments ∧
      (buildRequest f pins perTriangleAttribs fragments t).pending f = [] := by
  obtain ⟨header, data, hrequest⟩ : ∃ header data, pins.request (fun x => f.bits (f.ofInt x))
      t.clientToken (fragments.map RasterizedFragment.fragment) perTriangleAttribs =
        .ok (header, data) := by
    unfold FragmentShaderPins.request
    rw [calculateTriangleAttributesCount_eq, ok_bind, writeUniforms_eq, ok_bind]
    exact ⟨_, _, rfl⟩
  unfold buildRequest
  rw [hrequest]
  exact ⟨hlow, rfl, rfl⟩

theorem receivedFragment_passes (hlow : t.nextBlock.outSending = false)
    (perTriangleAttribs : Nat → Dword) (fragments : List RasterizedFragment)
    (outcome : ReceiveOutcome RasterizedFragment) (ports : ReceivePorts) :
    (receivedFragment f pins perTriangleAttribs fragments t (outcome, ports)).Offers f ∧
      (receivedFragment f pins perTriangleAttribs fragments t (outcome, ports)).waiting =
        fragments ++ (match outcome with | .returned true received => received | _ => []) ∧
      (receivedFragment f pins perTriangleAttribs fragments t (outcome, ports)).pending f = [] := by
  cases outcome with
  | suspended call => exact ⟨hlow, (List.append_nil _).symm, rfl⟩
  | returned result received =>
    cases result with
    | true =>
      unfold receivedFragment
      dsimp only
      split
      · exact ⟨hlow, rfl, rfl⟩
      · apply buildRequest_passes
        exact hlow
    | false =>
      unfold receivedFragment
      dsimp only
      rw [List.append_nil]
      split
      · next hempty => exact ⟨hlow, (List.length_eq_zero_iff.mp hempty).symm, rfl⟩
      · apply buildRequest_passes
        exact hlow

theorem start_passes (hlow : t.nextBlock.outSending = false) (hpc : t.pc = .start) :
    Passes f inputs t (t.step f pins inputs) := by
  unfold PerFragmentThread.step
  rw [hpc]
  constructor
  · exact hlow
  · unfold waiting takes answers
    rw [hpc]
    rfl
  · unfold pending answers gives
    rw [hpc]
    rfl

theorem receiving_passes {fragments : List RasterizedFragment}
    {call : ReceiveCall RasterizedFragment} (hlow : t.nextBlock.outSending = false)
    (hpc : t.pc = .receiving fragments call) : Passes f inputs t (t.step f pins inputs) := by
  unfold PerFragmentThread.step
  rw [hpc]
  dsimp only
  cases hresume : call.resume (Transfer.receiveWithTimeout fragmentTimeout) inputs.inpSending
    inputs.inpData t.previousBlock with
  | mk outcome ports =>
    obtain ⟨hoffers, hwaiting, hpending⟩ := @receivedFragment_passes F f pins t hlow
      inputs.perTriangleAttribs fragments outcome ports
    constructor
    · exact hoffers
    · rw [hwaiting]
      unfold waiting takes answers
      rw [hpc]
      dsimp only
      rw [hresume]
      cases outcome with
      | suspended call' => rfl
      | returned result received =>
        cases result with
        | true => rfl
        | false => rfl
    · rw [hpending]
      unfold pending answers gives
      rw [hpc]
      rfl

theorem sendingRequest_passes {fragments : List RasterizedFragment} {request : List Dword}
    {call : SendCall} (hlow : t.nextBlock.outSending = false)
    (hpc : t.pc = .sendingRequest fragments request call) :
    Passes f inputs t (t.step f pins inputs) := by
  have hwaiting : t.waiting ++ t.takes inputs =
      (t.answers inputs).flatMap Prod.fst ++ fragments := by
    unfold waiting takes answers
    rw [hpc]
    exact List.append_nil _
  have hpending : t.pending f ++ (t.answers inputs).flatMap (results f) =
      t.gives f inputs ++ [] := by
    unfold pending answers gives
    rw [hpc]
    rfl
  unfold PerFragmentThread.step
  rw [hpc]
  dsimp only
  split
  · exact ⟨hlow, hwaiting, hpending⟩
  · exact ⟨hlow, hwaiting, hpending⟩

theorem receivingResponse_passes {fragments : List RasterizedFragment} {call : ReceiveCall Dword}
    (hlow : t.nextBlock.outSending = false) (hpc : t.pc = .receivingResponse fragments call) :
    Passes f inputs t (t.step f pins inputs) := by
  unfold PerFragmentThread.step
  rw [hpc]
  dsimp only
  cases hresume : call.resume responseArgs inputs.responseSending inputs.responseData
    t.response with
  | mk outcome ports =>
    have hwaiting : t.waiting ++ t.takes inputs = fragments := by
      unfold waiting takes
      rw [hpc]
      exact List.append_nil _
    have hpending : t.pending f = [] := by
      unfold pending
      rw [hpc]
    have hgives : t.gives f inputs = [] := by
      unfold gives
      rw [hpc]
    cases outcome with
    | suspended call' =>
      have hnone : t.answers inputs = [] := by
        unfold answers
        rw [hpc]
        dsimp only
        rw [hresume]
      refine ⟨hlow, ?_, ?_⟩
      · rw [hwaiting, hnone]
        rfl
      · rw [hpending, hgives, hnone]
        rfl
    | returned result response =>
      have hanswer : t.answers inputs = [(fragments, response)] := by
        unfold answers
        rw [hpc]
        dsimp only
        rw [hresume]
      obtain ⟨hoffers, hwaiting', hpending'⟩ := @sendFragments_passes F f
        { t with pc := .receivingResponse fragments call, response := ports } hlow fragments
        response 0
      refine ⟨hoffers, ?_, ?_⟩
      · rw [hwaiting', hwaiting, hanswer, List.flatMap_singleton, List.append_nil]
      · rw [hpending', hpending, hgives, hanswer, List.flatMap_singleton]
        rfl

theorem sendingFragments_passes {fragments : List RasterizedFragment} {response : List Dword}
    {i : Nat} {call : SendCall} (h : t.Offers f)
    (hpc : t.pc = .sendingFragments fragments response i call) :
    Passes f inputs t (t.step f pins inputs) := by
  unfold Offers at h
  rw [hpc] at h
  obtain ⟨rfl, hsending, fragment, hfragment, hport⟩ := h
  have hheld := @pending_eq F f fragments response i fragment hfragment
  unfold PerFragmentThread.step
  rw [hpc]
  dsimp only
  cases hreceiving : inputs.nextBlockReceiving with
  | false =>
    rw [resume_send_waits]
    constructor
    · exact ⟨rfl, hsending, fragment, hfragment, hport⟩
    · unfold waiting takes answers
      rw [hpc]
      rfl
    · unfold pending answers gives
      rw [hpc, hreceiving]
      dsimp only
      rw [resume_send_waits]
      exact List.append_nil _
  | true =>
    obtain ⟨ports', hresume, hlow⟩ := resume_send_returns
      (shadedFragment f (fragments.getD i default) response i) t.nextBlock
    rw [hresume]
    dsimp only
    obtain ⟨hoffers, hwaiting, hpending⟩ := @sendFragments_passes F f
      { t with pc := .sendingFragments fragments response i (.acknowledge 1 1),
               nextBlock := ports' } hlow fragments response (i + 1)
    constructor
    · exact hoffers
    · rw [hwaiting]
      unfold waiting takes answers
      rw [hpc]
      rfl
    · rw [hpending]
      unfold pending answers gives
      rw [hpc, hreceiving]
      dsimp only
      rw [hresume, hheld, hport]
      exact List.append_nil _

theorem Offers.step (h : t.Offers f) : Passes f inputs t (t.step f pins inputs) := by
  have hoffers := h
  unfold Offers at h
  cases hpc : t.pc with
  | start =>
    rw [hpc] at h
    exact start_passes h hpc
  | receiving =>
    rw [hpc] at h
    exact receiving_passes h hpc
  | sendingRequest =>
    rw [hpc] at h
    exact sendingRequest_passes h hpc
  | receivingResponse =>
    rw [hpc] at h
    exact receivingResponse_passes h hpc
  | sendingFragments => exact sendingFragments_passes hoffers hpc
  | aborted =>
    rw [hpc] at h
    exact h.elim

/-! ### What is left in the block -/

/-- No request is made for nothing. -/
def Asks (t : PerFragmentThread) : Prop :=
  match t.pc with
  | .sendingRequest fragments _ _ | .receivingResponse fragments _ => fragments ≠ []
  | _ => True

theorem buildRequest_asks {fragments : List RasterizedFragment} (hne : fragments ≠ [])
    (perTriangleAttribs : Nat → Dword) : (buildRequest f pins perTriangleAttribs fragments t).Asks := by
  unfold buildRequest
  split
  · trivial
  · exact hne

theorem sendFragments_asks (fragments : List RasterizedFragment) (response : List Dword) (i : Nat) :
    (sendFragments f fragments response i t).Asks := by
  unfold sendFragments
  split
  · trivial
  · trivial

/-- A batch that is full has fragments, and so has one that is cut off and not given up. -/
theorem receivedFragment_asks (perTriangleAttribs : Nat → Dword)
    (fragments : List RasterizedFragment)
    (outcome : ReceiveOutcome RasterizedFragment × ReceivePorts) :
    (receivedFragment f pins perTriangleAttribs fragments t outcome).Asks := by
  unfold receivedFragment
  split
  · trivial
  · dsimp only
    split
    · trivial
    · next hfull =>
      apply buildRequest_asks
      intro hnil
      rw [hnil] at hfull
      exact hfull (by decide)
  · dsimp only
    split
    · trivial
    · next hne =>
      apply buildRequest_asks
      intro hnil
      rw [hnil] at hne
      exact hne rfl

theorem Asks.step (h : t.Asks) : (t.step f pins inputs).Asks := by
  unfold Asks at h
  unfold PerFragmentThread.step
  cases hpc : t.pc with
  | start => trivial
  | receiving fragments call => exact receivedFragment_asks _ _ _
  | sendingRequest fragments request call =>
    rw [hpc] at h
    dsimp only
    split
    · exact h
    · exact h
  | receivingResponse fragments call =>
    rw [hpc] at h
    dsimp only
    split
    · exact h
    · exact sendFragments_asks _ _ _
  | sendingFragments fragments response i call =>
    dsimp only
    split
    · trivial
    · exact sendFragments_asks _ _ _
  | aborted e =>
    dsimp only
    unfold Asks
    rw [hpc]
    trivial

/-- The block holds the fragments that wait for a response and the results that are not sent. -/
theorem holdsFragments_eq_false (hoffers : t.Offers f) (hasks : t.Asks) :
    t.holdsFragments = false ↔ t.waiting = [] ∧ t.pending f = [] := by
  unfold Offers at hoffers
  unfold Asks at hasks
  unfold holdsFragments waiting pending
  cases hpc : t.pc with
  | start => exact ⟨fun _ => ⟨rfl, rfl⟩, fun _ => rfl⟩
  | receiving fragments call =>
    dsimp only
    rw [Bool.not_eq_false', List.isEmpty_iff]
    exact ⟨fun hnil => ⟨hnil, rfl⟩, And.left⟩
  | sendingRequest | receivingResponse =>
    rw [hpc] at hasks
    constructor
    · intro hholds
      cases hholds
    · intro hnone
      exact absurd hnone.1 hasks
  | sendingFragments fragments response i call =>
    rw [hpc] at hoffers
    obtain ⟨-, -, fragment, hfragment, -⟩ := hoffers
    dsimp only
    rw [pending_eq hfragment]
    constructor
    · intro hholds
      cases hholds
    · intro hnone
      cases hnone.2
  | aborted e =>
    rw [hpc] at hoffers
    exact hoffers.elim

/-- A fragment is taken in the test of the call, and only there. -/
theorem takes_eq (hcalls : t.Away ∨ (∃ fragments, t.Waits fragments) ∨ ∃ fragments, t.GivesUp fragments) :
    t.takes inputs = [] ∨
      t.previousBlock.outReceiving = true ∧ inputs.inpSending = true ∧
        t.takes inputs = [inputs.inpData 0] := by
  unfold takes
  rcases hcalls with haway | ⟨fragments, hwaits⟩ | ⟨fragments, hgivesUp⟩
  · left
    split
    · next fragments call hpc => exact absurd hpc (haway.1 fragments call)
    · rfl
  · rw [hwaits.1]
    cases hsending : inputs.inpSending with
    | false => exact .inl rfl
    | true =>
      right
      refine ⟨hwaits.2, rfl, ?_⟩
      dsimp only
      rw [resume_receive_offered]
  · left
    rw [hgivesUp.1]
    rfl

end PerFragmentThread

/-! ## What the output merger takes -/

namespace OutputMerger
variable {F : Type} {f : Floats F} {pins : OutputMergerPins} {m : OutputMerger}

/-- The fragment that its receive call returns with at this clock. -/
def takes (inpSending : Bool) (inpFragment : Nat → ShadedFragment) (m : OutputMerger) :
    List ShadedFragment :=
  match m.pc with
  | .receiving call =>
    match call.resume (Transfer.receive true) inpSending inpFragment m.previousBlock with
    | (.returned _ received, _) => received
    | _ => []
  | _ => []

/-- The block shows that it receives exactly in the calls that do. -/
def Listens (m : OutputMerger) : Prop :=
  match m.pc with
  | .receiving call => call.AtHandshake ∧ m.previousBlock.outReceiving = true
  | .aborted _ => False
  | _ => m.previousBlock.outReceiving = false

theorem listens_new : new.Listens := ⟨trivial, rfl⟩

theorem receive_listens (m : OutputMerger) : m.receive.Listens := ⟨trivial, rfl⟩

theorem merge_listens (h : m.previousBlock.outReceiving = false) (fragment : ShadedFragment) :
    (m.merge pins fragment).Listens := by
  unfold merge
  split
  · exact h
  · exact h

theorem testDepth_listens (h : m.previousBlock.outReceiving = false) (fragment : ShadedFragment)
    (depthAddress : MemoryAddressType) (inpData : MemoryDataType) :
    (testDepth f pins fragment depthAddress inpData m).Listens := by
  unfold testDepth
  dsimp only
  split
  · exact receive_listens m
  · split
    · exact h
    · exact h

theorem Listens.step (h : m.Listens) (pins : OutputMergerPins) (inpSending : Bool)
    (inpFragment : Nat → ShadedFragment) (inpCompleted : Bool) (inpData : MemoryDataType) :
    (m.step f pins inpSending inpFragment inpCompleted inpData).Listens := by
  unfold Listens at h
  unfold OutputMerger.step
  cases hpc : m.pc with
  | receiving call =>
    rw [hpc] at h
    obtain ⟨hcall, hreceiving⟩ := h
    dsimp only
    cases inpSending with
    | true =>
      rw [resume_offered hcall]
      exact merge_listens rfl _
    | false =>
      obtain ⟨clocks, hresume⟩ := @ReceiveCall.resume_silent _ (Transfer.receive true) rfl
        inpFragment m.previousBlock call hcall
      rw [hresume]
      exact ⟨trivial, hreceiving⟩
  | readingDepth fragment depthAddress =>
    rw [hpc] at h
    dsimp only
    split
    · apply testDepth_listens
      exact h
    · exact h
  | writingDepth fragment =>
    rw [hpc] at h
    dsimp only
    split
    · exact h
    · exact h
  | writingColor =>
    rw [hpc] at h
    dsimp only
    split
    · exact receive_listens _
    · exact h
  | aborted e =>
    rw [hpc] at h
    exact h.elim

theorem Listens.receiving (h : m.Listens) (hreceiving : m.previousBlock.outReceiving = true) :
    ∃ call, m.pc = .receiving call := by
  unfold Listens at h
  cases hpc : m.pc with
  | receiving call => exact ⟨call, rfl⟩
  | aborted e =>
    rw [hpc] at h
    exact h.elim
  | readingDepth | writingDepth | writingColor =>
    rw [hpc] at h
    exact absurd (h.symm.trans hreceiving) (by decide)

/-- A fragment is taken where both sides of the link are ready. -/
theorem takes_eq (h : m.Listens) (inpSending : Bool) (inpFragment : Nat → ShadedFragment) :
    m.takes inpSending inpFragment =
      if m.previousBlock.outReceiving && inpSending then [inpFragment 0] else [] := by
  unfold Listens at h
  unfold takes
  cases hpc : m.pc with
  | receiving call =>
    rw [hpc] at h
    obtain ⟨hcall, hlistening⟩ := h
    rw [hlistening]
    dsimp only
    cases inpSending with
    | true =>
      rw [resume_offered hcall]
      rfl
    | false =>
      obtain ⟨clocks, hresume⟩ := @ReceiveCall.resume_silent _ (Transfer.receive true) rfl
        inpFragment m.previousBlock call hcall
      rw [hresume]
      rfl
  | aborted e =>
    rw [hpc] at h
    exact h.elim
  | readingDepth | writingDepth | writingColor =>
    rw [hpc] at h
    dsimp only at h ⊢
    rw [h]
    rfl

theorem merge_pc (fragment : ShadedFragment) (call : ReceiveCall ShadedFragment) :
    (m.merge pins fragment).pc ≠ .receiving call := by
  unfold merge
  split
  · intro hpc
    cases hpc
  · intro hpc
    cases hpc

/-- A block that goes on receiving has taken nothing. -/
theorem takes_eq_nil (h : m.Listens) {inpSending : Bool} {inpFragment : Nat → ShadedFragment}
    {inpCompleted : Bool} {inpData : MemoryDataType} {call' : ReceiveCall ShadedFragment}
    (hpc' : (m.step f pins inpSending inpFragment inpCompleted inpData).pc = .receiving call') :
    m.takes inpSending inpFragment = [] := by
  rw [takes_eq h]
  unfold Listens at h
  cases hpc : m.pc with
  | receiving call =>
    rw [hpc] at h
    cases inpSending with
    | false =>
      rw [Bool.and_false]
      rfl
    | true =>
      unfold OutputMerger.step at hpc'
      rw [hpc] at hpc'
      dsimp only at hpc'
      rw [resume_offered h.1] at hpc'
      exact absurd hpc' (merge_pc _ _)
  | aborted e =>
    rw [hpc] at h
    exact h.elim
  | readingDepth | writingDepth | writingColor =>
    rw [hpc] at h
    dsimp only at h
    rw [h]
    rfl

/-- Both ends of the link see the other's signal at the same clock. -/
theorem takes_gives (h : m.Listens) {t : PerFragmentThread} (hoffers : t.Offers f)
    {inputs : PerFragmentInputs}
    (hreceiving : inputs.nextBlockReceiving = m.previousBlock.outReceiving) :
    m.takes t.nextBlock.outSending t.nextBlock.outDataPorts = t.gives f inputs := by
  rw [takes_eq h]
  unfold PerFragmentThread.Offers at hoffers
  unfold PerFragmentThread.gives
  cases hpc : t.pc with
  | sendingFragments fragments response i call =>
    rw [hpc] at hoffers
    obtain ⟨rfl, hsending, -⟩ := hoffers
    rw [hreceiving, hsending, Bool.and_true]
    dsimp only
    cases m.previousBlock.outReceiving with
    | false =>
      rw [resume_send_waits]
      rfl
    | true =>
      obtain ⟨ports, hcall, -⟩ := resume_send_returns
        (PerFragmentThread.shadedFragment f (fragments.getD i default) response i) t.nextBlock
      rw [hcall]
      rfl
  | aborted e =>
    rw [hpc] at hoffers
    exact hoffers.elim
  | start | receiving | sendingRequest | receivingResponse =>
    rw [hpc] at hoffers
    dsimp only at hoffers ⊢
    rw [hoffers, Bool.and_false]
    rfl

end OutputMerger

/-! ## Whole runs -/

namespace FragmentPipeline
variable {F : Type}

/-- What the rasterizer reads at a clock. -/
def rasterizerInputs (outside : Surroundings) (s : FragmentPipeline F) : RasterizerInputs where
  inpWidth := outside.inpWidth
  inpHeight := outside.inpHeight
  inpSending := outside.verticesSending
  inpData := outside.verticesData
  perTriangleReceiving := s.perTriangle.previousBlock.outReceiving
  perFragmentReceiving := s.perFragment.previousBlock.outReceiving

/-- What `perFragmentThread` reads at a clock. -/
def perFragmentInputs (outside : Surroundings) (s : FragmentPipeline F) : PerFragmentInputs where
  inpSending := s.rasterizer.perFragment.outSending
  inpData := s.rasterizer.perFragment.outDataPorts
  perTriangleAttribs := s.perTriangle.perTriangleAttribs
  requestReceiving := outside.requestReceiving
  responseSending := outside.responseSending
  responseData := outside.responseData
  nextBlockReceiving := outside.nextBlockReceiving

/-- A fragment that is taken is given at the same clock. -/
theorem taken_given {f : Floats F} {components : CustomShaderComponents} {s : FragmentPipeline F}
    (h : PipelineInv f components s) (outside : Surroundings) :
    ((s.perFragment.takes (s.perFragmentInputs outside)).map RasterizedFragment.fragment).Sublist
      (s.rasterizer.sends (s.rasterizerInputs outside)) := by
  rcases @PerFragmentThread.takes_eq (s.perFragmentInputs outside) s.perFragment h.batch.calls with
    hnone | ⟨hreceiving, hsending, htakes⟩
  · rw [hnone]
    exact List.nil_sublist _
  · obtain ⟨triangle, hoffers⟩ := h.triangles.offersFragment hsending
    obtain ⟨⟨width, height, fragment, hpc, hport, -⟩, -⟩ := hoffers
    have hgives : s.rasterizer.sends (s.rasterizerInputs outside) = [fragment.fragment] := by
      obtain ⟨ports, hcall, -⟩ := resume_send_returns fragment s.rasterizer.perFragment
      unfold Rasterizer.sends
      rw [hpc]
      dsimp only
      rw [show (s.rasterizerInputs outside).perFragmentReceiving = true from hreceiving, hcall]
      dsimp only
      rw [hport]
    rw [htakes, hgives, List.map_singleton]
    rw [show (s.perFragmentInputs outside).inpData 0 = fragment from hport]

end FragmentPipeline

namespace Gpu
variable {F : Type} {f : Floats F} {config : GpuConfig} {s : Gpu F}

/-- The fragments that the rasterizer gives, that the fragment shader takes, the batches that
    it has a response for, and the fragments that the output merger takes, at a clock. -/
def rasterized (config : GpuConfig) (s : Gpu F) : List UnshadedFragment :=
  s.fragments.rasterizer.sends (s.fragments.rasterizerInputs (s.surroundings config))

def shading (config : GpuConfig) (s : Gpu F) : List RasterizedFragment :=
  s.fragments.perFragment.takes (s.fragments.perFragmentInputs (s.surroundings config))

def shaded (config : GpuConfig) (s : Gpu F) : List (List RasterizedFragment × List Dword) :=
  s.fragments.perFragment.answers (s.fragments.perFragmentInputs (s.surroundings config))

def merging (s : Gpu F) : List ShadedFragment :=
  s.outputMerger.takes s.fragments.perFragment.nextBlock.outSending
    s.fragments.perFragment.nextBlock.outDataPorts

/-- Both ends of the link to the output merger are in step. -/
structure Linked (f : Floats F) (s : Gpu F) : Prop where
  perFragment : s.fragments.perFragment.Offers f
  asks : s.fragments.perFragment.Asks
  outputMerger : s.outputMerger.Listens

/-- What the fragment shader holds, in a clock. -/
theorem Linked.passes (h : s.Linked f) (alu : Alu Dword) (env : GpuEnvironment) (clock : Nat) :
    PerFragmentThread.Passes f (s.fragments.perFragmentInputs (s.surroundings config))
      s.fragments.perFragment (s.step f alu config env clock).fragments.perFragment :=
  h.perFragment.step

theorem Linked.step (h : s.Linked f) (alu : Alu Dword) (env : GpuEnvironment) (clock : Nat) :
    (s.step f alu config env clock).Linked f where
  perFragment := (h.passes alu env clock).offers
  asks := h.asks.step
  outputMerger := h.outputMerger.step _ _ _ _ _

theorem Linked.merging (h : s.Linked f) : s.merging =
    s.fragments.perFragment.gives f (s.fragments.perFragmentInputs (s.surroundings config)) :=
  OutputMerger.takes_gives h.outputMerger h.perFragment rfl

/-! ### The fragments of a run before clock `n` -/

/-- Given by the rasterizer. -/
def Run.rasterized (r : Run F) (n : Nat) : List UnshadedFragment :=
  upTo (fun k => (r.state k).rasterized r.config) n

/-- Taken by the fragment shader. -/
def Run.shading (r : Run F) (n : Nat) : List RasterizedFragment :=
  upTo (fun k => (r.state k).shading r.config) n

/-- Responses that came, with their batches. -/
def Run.shaded (r : Run F) (n : Nat) : List (List RasterizedFragment × List Dword) :=
  upTo (fun k => (r.state k).shaded r.config) n

/-- Taken by the output merger. -/
def Run.merging (r : Run F) (n : Nat) : List ShadedFragment :=
  upTo (fun k => (r.state k).merging) n

section
variable (r : Run F)

theorem linked_after (n : Nat) : (r.state n).Linked r.floats :=
  run_always ⟨rfl, trivial, OutputMerger.listens_new⟩ (fun clock _ h => h.step r.alu r.env clock) n

section
variable (hwidth : r.config.framebufferWidth.toNat < 2 ^ 16)
  (hheight : r.config.framebufferHeight.toNat < 2 ^ 16)
include hwidth hheight

theorem gives_after {n : Nat}
    (h : (r.state n).fragments.rasterizer.Scans r.config.framebufferWidth r.config.framebufferHeight) :
    Rasterizer.Gives r.floats r.config.framebufferWidth r.config.framebufferHeight
      ((r.state n).fragments.rasterizerInputs ((r.state n).surroundings r.config))
      (r.state n).fragments.rasterizer (r.state (n + 1)).fragments.rasterizer :=
  @Rasterizer.Scans.step F r.floats r.config.vsPsCustomComponents _ _ _
    ((r.state n).fragments.rasterizerInputs ((r.state n).surroundings r.config)) hwidth hheight h
    rfl rfl

theorem scans_after (n : Nat) : (r.state n).fragments.rasterizer.Scans r.config.framebufferWidth
    r.config.framebufferHeight := by
  induction n with
  | zero => trivial
  | succ n ih => exact (gives_after r hwidth hheight ih).scans

/-- The pixels of all triangles are given, in their order, or left. -/
theorem rasterized_upTo (n : Nat) :
    (r.state n).fragments.rasterizer.triangles.flatMap (Rasterizer.hitPixels r.floats
        r.config.framebufferWidth r.config.framebufferHeight) =
      (r.rasterized n).map Rasterizer.coordinates ++
        (r.state n).fragments.rasterizer.left r.floats r.config.framebufferWidth
          r.config.framebufferHeight := by
  unfold Run.rasterized
  rw [← upTo_map]
  refine @conserved _
    (fun k => (r.state k).fragments.rasterizer.triangles.flatMap (Rasterizer.hitPixels r.floats
      r.config.framebufferWidth r.config.framebufferHeight))
    (fun k => (r.state k).fragments.rasterizer.left r.floats r.config.framebufferWidth
      r.config.framebufferHeight) _ rfl ?_ n
  intro k
  exact (gives_after r hwidth hheight (scans_after r hwidth hheight k)).conserved

end

/-- The fragments that were taken have a response, or wait for it. -/
theorem shading_upTo (n : Nat) : r.shading n =
    (r.shaded n).flatMap Prod.fst ++ (r.state n).fragments.perFragment.waiting := by
  unfold Run.shaded
  rw [← upTo_flatMap]
  refine @conserved _ r.shading (fun k => (r.state k).fragments.perFragment.waiting) _ rfl ?_ n
  intro k
  have hpasses := @Linked.passes F r.floats r.config _ (linked_after r k) r.alu r.env k
  exact ⟨_, upTo_succ _ k, hpasses.waiting⟩

/-- The results of the responses were sent, or are still to be sent. -/
theorem shaded_upTo (n : Nat) :
    (r.shaded n).flatMap (PerFragmentThread.results r.floats) =
      r.merging n ++ (r.state n).fragments.perFragment.pending r.floats := by
  refine @conserved _
    (fun k => (r.shaded k).flatMap (PerFragmentThread.results r.floats))
    (fun k => (r.state k).fragments.perFragment.pending r.floats) _ rfl ?_ n
  intro k
  have hlinked := linked_after r k
  have hpasses := @Linked.passes F r.floats r.config _ hlinked r.alu r.env k
  refine ⟨((r.state k).shaded r.config).flatMap (PerFragmentThread.results r.floats), ?_, ?_⟩
  · unfold Run.shaded
    rw [upTo_succ, List.flatMap_append]
  · rw [@Linked.merging F r.floats r.config _ hlinked]
    exact hpasses.pending

end

/-- The coordinates of results are those of the fragments. -/
theorem results_coordinates (batch : List RasterizedFragment × List Dword) :
    (PerFragmentThread.results f batch).map (fun fragment => (fragment.x.toNat, fragment.y.toNat)) =
      batch.1.map fun fragment => Rasterizer.coordinates fragment.fragment := by
  unfold PerFragmentThread.results
  apply List.ext_getElem?
  intro i
  rw [List.getElem?_map, List.getElem?_mapIdx, List.getElem?_map, Option.map_map]
  rfl

theorem flatMap_results_coordinates (batches : List (List RasterizedFragment × List Dword)) :
    (batches.flatMap (PerFragmentThread.results f)).map
        (fun fragment => (fragment.x.toNat, fragment.y.toNat)) =
      (batches.flatMap Prod.fst).map fun fragment => Rasterizer.coordinates fragment.fragment := by
  rw [List.map_flatMap, List.map_flatMap]
  apply List.flatMap_congr
  intro batch _
  exact results_coordinates batch

/-- **What comes to the output merger is in rasterization order**: pixels that the triangles hit,
    in the order of the triangles and row by row, none of them twice. -/
theorem rasterization_order (r : Run F) (hwidth : r.config.framebufferWidth.toNat < 2 ^ 16)
    (hheight : r.config.framebufferHeight.toNat < 2 ^ 16) (n : Nat) :
    ((r.merging n).map fun fragment => (fragment.x.toNat, fragment.y.toNat)).Sublist
      ((r.state n).fragments.rasterizer.triangles.flatMap (Rasterizer.hitPixels r.floats
        r.config.framebufferWidth r.config.framebufferHeight)) := by
  have hmerged : r.merging n <+: (r.shaded n).flatMap (PerFragmentThread.results r.floats) :=
    ⟨_, (shaded_upTo r n).symm⟩
  have hshaded : (r.shaded n).flatMap Prod.fst <+: r.shading n := ⟨_, (shading_upTo r n).symm⟩
  have htaken : ((r.shading n).map RasterizedFragment.fragment).Sublist (r.rasterized n) := by
    unfold Run.shading
    rw [← upTo_map]
    apply upTo_sublist
    intro k
    exact FragmentPipeline.taken_given (r.tracked k).pipeline _
  have hgiven : (r.rasterized n).map Rasterizer.coordinates <+:
      (r.state n).fragments.rasterizer.triangles.flatMap (Rasterizer.hitPixels r.floats
        r.config.framebufferWidth r.config.framebufferHeight) :=
    ⟨_, (rasterized_upTo r hwidth hheight n).symm⟩
  have hresults := (hmerged.map fun fragment => (fragment.x.toNat, fragment.y.toNat)).sublist
  rw [flatMap_results_coordinates] at hresults
  have hbatches := (hshaded.map fun fragment => Rasterizer.coordinates fragment.fragment).sublist
  have hfragments := htaken.map Rasterizer.coordinates
  rw [List.map_map] at hfragments
  exact hresults.trans (hbatches.trans (hfragments.trans hgiven.sublist))

/-- A vertex shader that stops at once, and a fragment shader that puts 1 into `r1.w`. -/
def shadedPrograms : List Dword :=
  [204472324, 1635828508, 48, 31, 204523528, 1635827741, 48, 1116, 1]

/-- Both shaders, a draw of one pixel, and a blit of the pixel when it has been written. -/
def shadedRun : Run Dword where
  floats := dwordFloats
  alu := integerAlu
  config := { pixelConfig with fsShaderAddress := 16 }
  env := {
    pushed := fun clock =>
      if clock = 1 then
        [CommandStreamer.blit .copyToMem 0 0 shadedPrograms.length none,
          CommandStreamer.draw none]
      else if clock = 374 then [CommandStreamer.blit .copyFromMem 1024 8192 1 none]
      else []
    userWrites := fun clock userMemory =>
      if clock = 1 then fun ptr => shadedPrograms.getD (ptr.toNat / 4) 0 else userMemory
    listenLast := fun _ => true
    responseFirst := fun _ => true }
  unit0 := pixelUnit
  unit1 := pixelUnit

/-- The pixel comes to the output merger, and the fragment shader is empty at the second blit. -/
theorem shadedRun_merging : shadedRun.merging 374 = [⟨0, 0, 0, 0xFF000000⟩] ∧
    (shadedRun.state 373).fragments.perFragment.holdsFragments = false ∧
    (shadedRun.state 374).Running ∧ (shadedRun.launched 374).isSome = true := by
  unfold Run.merging Run.launched Run.state
  rw [← evaluated_eq]
  decide +kernel

theorem rasterization_order_pixel : shadedRun.merging 374 = [⟨0, 0, 0, 0xFF000000⟩] ∧
    ((shadedRun.merging 374).map fun fragment => (fragment.x.toNat, fragment.y.toNat)).Sublist
      ((shadedRun.state 374).fragments.rasterizer.triangles.flatMap
        (Rasterizer.hitPixels dwordFloats 1 1)) :=
  ⟨shadedRun_merging.1, rasterization_order shadedRun (by decide) (by decide) 374⟩

/-- **Each fragment that the fragment shader takes is sent to the output merger once**, with its
    own coordinates and the results of its own thread, unless it is still in the block: it waits
    for a response, or its result waits to be sent. -/
theorem fragments_shaded_once (r : Run F) (n : Nat) :
    let perFragment := (r.state n).fragments.perFragment
    r.shading n = (r.shaded n).flatMap Prod.fst ++ perFragment.waiting ∧
      (r.shaded n).flatMap (PerFragmentThread.results r.floats) =
        r.merging n ++ perFragment.pending r.floats ∧
      (perFragment.holdsFragments = false ↔
        perFragment.waiting = [] ∧ perFragment.pending r.floats = []) :=
  ⟨shading_upTo r n, shaded_upTo r n,
    PerFragmentThread.holdsFragments_eq_false (linked_after r n).perFragment (linked_after r n).asks⟩

/-- A block that is empty behind a clock had no fragment before it: the output merger shows one
    that has come. -/
theorem Linked.emptied (h : s.Linked f) {alu : Alu Dword} {env : GpuEnvironment} {clock : Nat}
    (hidle : (s.step f alu config env clock).Idle config) :
    s.fragments.perFragment.holdsFragments = false := by
  obtain ⟨hoffers, hwaiting, hpending⟩ := @Linked.passes F f config s h alu env clock
  have hnext := @Linked.step F f config s h alu env clock
  obtain ⟨hwaiting', hpending'⟩ :=
    (PerFragmentThread.holdsFragments_eq_false hnext.perFragment hnext.asks).mp
      hidle.perFragment.empty
  obtain ⟨call, hpc, -⟩ := hidle.outputMerger.pc
  have hnone : s.merging = [] := OutputMerger.takes_eq_nil h.outputMerger hpc
  rw [← @Linked.merging F f config s h, hnone, hpending', List.append_nil,
    List.append_eq_nil_iff] at hpending
  obtain ⟨hpending, hresults⟩ := hpending
  have hanswers := @flatMap_results_coordinates F f (s.fragments.perFragment.answers
    (s.fragments.perFragmentInputs (s.surroundings config)))
  rw [hresults, List.map_nil, eq_comm, List.map_eq_nil_iff] at hanswers
  rw [hanswers, hwaiting', List.append_nil, List.append_eq_nil_iff] at hwaiting
  exact (PerFragmentThread.holdsFragments_eq_false h.perFragment h.asks).mpr
    ⟨hwaiting.1, hpending⟩

end Gpu

end PicoGpu
