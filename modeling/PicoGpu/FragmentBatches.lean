import PicoGpu.FragmentShader
import PicoGpu.Lib.Clocked

/- The rasterizer and the fragment shader, clock by clock. The attributes of a triangle
   come to `perFragmentThread` in signals that `perTriangleThread` writes whenever it has
   received a triangle, and nothing keeps it from writing them while a batch is open.
   A batch ends two clocks behind its last fragment at the latest, though, because the
   timeout of its receive call runs out after one test. The rasterizer is back at the
   head of its loop by then, and the next triangle has still to be received.
   The arrays that collect a triangle and a request are lists here. -/
namespace PicoGpu
open Clocked Rasterizer

section
variable {F : Type}

structure FragmentPipeline (F : Type) where
  rasterizer : Rasterizer F
  perTriangle : PerTriangleThread
  perFragment : PerFragmentThread

/-- The pins of both blocks and the signals of their neighbours at a clock: the vertex
    shader, the shader frontend and the output merger. -/
structure Surroundings where
  inpWidth : Dword
  inpHeight : Dword
  inpShaderAddress : MemoryAddressType
  inpUniforms : CustomShaderComponents
  inpUniformsData : Nat → Nat → Dword
  verticesSending : Bool
  verticesData : Nat → Dword
  requestReceiving : Bool
  responseSending : Bool
  responseData : Nat → Dword
  nextBlockReceiving : Bool

namespace FragmentPipeline

def new : FragmentPipeline F where
  rasterizer := .new
  perTriangle := .new
  perFragment := .new

/-- One clock: each thread reads the signals of the old state. Both blocks have the same
    components on their pins. -/
def step (f : Floats F) (components : CustomShaderComponents) (surroundings : Nat → Surroundings)
    (clock : Nat) (s : FragmentPipeline F) : FragmentPipeline F :=
  let outside := surroundings clock
  { rasterizer := s.rasterizer.step f components {
      inpWidth := outside.inpWidth
      inpHeight := outside.inpHeight
      inpSending := outside.verticesSending
      inpData := outside.verticesData
      perTriangleReceiving := s.perTriangle.previousBlock.outReceiving
      perFragmentReceiving := s.perFragment.previousBlock.outReceiving }
    perTriangle := s.perTriangle.step components s.rasterizer.perTriangle.outSending
      s.rasterizer.perTriangle.outDataPorts
    perFragment := s.perFragment.step f {
        inpShaderAddress := outside.inpShaderAddress
        inpCustomInputComponents := components
        inpUniforms := outside.inpUniforms
        inpUniformsData := outside.inpUniformsData } {
      inpSending := s.rasterizer.perFragment.outSending
      inpData := s.rasterizer.perFragment.outDataPorts
      perTriangleAttribs := s.perTriangle.perTriangleAttribs
      requestReceiving := outside.requestReceiving
      responseSending := outside.responseSending
      responseData := outside.responseData
      nextBlockReceiving := outside.nextBlockReceiving } }

/-- The blocks after `n` clocks. -/
def after (f : Floats F) (components : CustomShaderComponents)
    (surroundings : Nat → Surroundings) : Nat → FragmentPipeline F :=
  run (step f components surroundings) new

end FragmentPipeline

/-! ## Requests -/

/-- The fragments of the request are all of one triangle, and its data ends with the
    attributes that the rasterizer sent for this triangle. -/
def OneTriangle (f : Floats F) (triangles : List (Triangle F)) (request : BuiltRequest) : Prop :=
  ∃ k triangle, triangles[k]? = some triangle ∧
    triangle.attributes = dataToSend f triangle.vertices ∧
    (∀ fragment ∈ request.fragments, fragment.triangle = k ∧
      hits f triangle.vertices fragment.fragment.x fragment.fragment.y = true) ∧
    ∃ uniforms, request.data = (request.fragments.flatMap fun fragment =>
      [f.bits (f.ofInt fragment.fragment.x), f.bits (f.ofInt fragment.fragment.y)]) ++
        uniforms ++ triangle.attributes

theorem OneTriangle.append {f : Floats F} {triangles : List (Triangle F)} {request : BuiltRequest}
    (h : OneTriangle f triangles request) (rest : List (Triangle F)) :
    OneTriangle f (triangles ++ rest) request := by
  obtain ⟨k, triangle, hk, h⟩ := h
  obtain ⟨hlt, -⟩ := List.getElem?_eq_some_iff.mp hk
  exact ⟨k, triangle, (List.getElem?_append_left hlt).trans hk, h⟩

/-! ## The invariant -/

variable {f : Floats F} {components : CustomShaderComponents}

/-- The rasterizer is not sending a triangle. -/
def Free (f : Floats F) (components : CustomShaderComponents) (r : Rasterizer F) : Prop :=
  r.Rests ∨ r.Receives components ∨ ∃ triangle, r.OffersFragment f triangle

/-- The dwords of a triangle. -/
def attributesCount (components : CustomShaderComponents) : Nat :=
  (3 + components.sizes.sum) * verticesInPrimitive

/-- Where the two sides of the transfer of a triangle stand. -/
inductive TriangleLink (f : Floats F) (components : CustomShaderComponents) (r : Rasterizer F)
    (t : PerTriangleThread) : Prop
  | between (hr : Free f components r) (ht : t.Away ∨ t.Waits (attributesCount components))
      (hshown : ∀ triangle, r.triangles.getLast? = some triangle →
        SetUp f components triangle ∧ t.Shows triangle.attributes)
  | offering {triangle : Triangle F} (htriangle : SetUp f components triangle)
      (hr : r.OffersTriangle htriangle) (ht : t.Away ∨ t.Waits (attributesCount components))
  | moving {triangle : Triangle F} (htriangle : SetUp f components triangle) (p : Nat)
      (hr : r.SendsTriangle htriangle p) (ht : t.Takes htriangle.transfer p)

/-- Where the batch stands. One that has fragments is of the triangle that was set up last,
    and the rasterizer does not get further than to receiving before it ends. -/
inductive BatchLink (f : Floats F) (components : CustomShaderComponents) (r : Rasterizer F)
    (t : PerFragmentThread) : Prop
  | away (ht : t.Away)
  | waiting {fragments : List RasterizedFragment} (ht : t.Waits fragments)
      (hr : fragments ≠ [] → r.Rests ∨ ∃ triangle, r.OffersFragment f triangle)
      (hfragments : ∀ fragment ∈ fragments, OfLast f r.triangles fragment)
  | ending {fragments : List RasterizedFragment} (ht : t.GivesUp fragments)
      (hr : fragments ≠ [] → r.Rests ∨ r.Receives components)
      (hfragments : ∀ fragment ∈ fragments, OfLast f r.triangles fragment)

structure PipelineInv (f : Floats F) (components : CustomShaderComponents)
    (s : FragmentPipeline F) : Prop where
  triangles : TriangleLink f components s.rasterizer s.perTriangle
  batch : BatchLink f components s.rasterizer s.perFragment
  requests : ∀ request ∈ s.perFragment.requests, OneTriangle f s.rasterizer.triangles request

/-! ## The transfer of triangles -/

theorem TriangleLink.waits {t : PerTriangleThread}
    (ht : t.Away ∨ t.Waits (attributesCount components)) (inpData : Nat → Dword) :
    (t.step components false inpData).Waits (attributesCount components) ∧
      (t.step components false inpData).perTriangleAttribs = t.perTriangleAttribs := by
  rcases ht with ht | ht
  · exact ht.step components false inpData
  · exact ht.step_silent components inpData

/-- Both sides are behind package `p`. -/
theorem TriangleLink.afterPackage {r : Rasterizer F} {t : PerTriangleThread}
    {triangle : Triangle F} {htriangle : SetUp f components triangle} {p : Nat}
    (hr : r.AfterPackage htriangle p) (ht : t.AfterPackage htriangle.transfer p)
    (hlast : r.triangles.getLast? = some triangle) : TriangleLink f components r t := by
  rcases hr with ⟨hmore, hr⟩ | ⟨hdone, hr⟩
  · obtain ⟨-, ht⟩ := ht.resolve_right fun h => h.1 hmore
    exact .moving htriangle (p + 1) hr ht
  · obtain ⟨-, haway, hshows⟩ := ht.resolve_left fun h => hdone h.1
    refine .between ?_ (Or.inl haway) ?_
    · rcases hr with hr | hr
      · exact Or.inr (Or.inr ⟨triangle, hr⟩)
      · exact Or.inl hr
    · intro last hsome
      rw [hlast] at hsome
      cases hsome
      exact ⟨htriangle, hshows⟩

theorem Free.low {r : Rasterizer F} (h : Free f components r) :
    r.perTriangle.outSending = false := by
  rcases h with h | h | ⟨triangle, h⟩
  · exact h.1.perTriangle
  · exact h.1.perTriangle
  · exact h.perTriangle

/-- A rasterizer that is not sending a triangle goes on so, or offers the next one. -/
theorem Free.step {r : Rasterizer F} (h : Free f components r) (inputs : RasterizerInputs) :
    (Free f components (r.step f components inputs) ∧
      (r.step f components inputs).triangles = r.triangles) ∨
    ∃ triangle, ∃ htriangle : SetUp f components triangle,
      (r.step f components inputs).OffersTriangle htriangle ∧
      (r.step f components inputs).triangles = r.triangles ++ [triangle] := by
  rcases h with h | h | ⟨triangle, h⟩
  · obtain ⟨hr, htriangles⟩ := h.step components inputs
    exact Or.inl ⟨hr.imp_right Or.inl, htriangles⟩
  · rcases h.step inputs with ⟨hr, htriangles⟩ | hoffers
    · exact Or.inl ⟨hr.imp_right Or.inl, htriangles⟩
    · exact Or.inr hoffers
  · left
    cases hreceiving : inputs.perFragmentReceiving with
    | false =>
      rw [h.step_waits hreceiving]
      exact ⟨Or.inr (Or.inr ⟨triangle, h⟩), rfl⟩
    | true =>
      obtain ⟨hr, htriangles⟩ := h.step_answered hreceiving
      refine ⟨?_, htriangles⟩
      rcases hr with hr | hr
      · exact Or.inr (Or.inr ⟨triangle, hr⟩)
      · exact Or.inl hr

theorem TriangleLink.step {r : Rasterizer F} {t : PerTriangleThread}
    (h : TriangleLink f components r t) {inputs : RasterizerInputs}
    (hreceiving : inputs.perTriangleReceiving = t.previousBlock.outReceiving) :
    TriangleLink f components (r.step f components inputs)
      (t.step components r.perTriangle.outSending r.perTriangle.outDataPorts) := by
  cases h with
  | between hr ht hshown =>
    rw [hr.low]
    obtain ⟨hwaits, hattribs⟩ := TriangleLink.waits ht r.perTriangle.outDataPorts
    rcases hr.step inputs with ⟨hfree, htriangles⟩ | ⟨triangle, htriangle, hoffers, -⟩
    · refine .between hfree (Or.inr hwaits) ?_
      intro triangle hsome
      rw [htriangles] at hsome
      obtain ⟨htriangle, hshows⟩ := hshown triangle hsome
      refine ⟨htriangle, ?_⟩
      unfold PerTriangleThread.Shows at hshows ⊢
      rw [hattribs]
      exact hshows
    · exact .offering htriangle hoffers (Or.inr hwaits)
  | offering htriangle hr ht =>
    rcases ht with haway | hwaits
    · -- the handshake is still to come
      rw [haway.2] at hreceiving
      rw [hr.step_waits hreceiving]
      exact .offering htriangle hr (Or.inr (haway.step components _ _).1)
    · rw [hwaits.2] at hreceiving
      obtain ⟨hr', htriangles⟩ := hr.step_answered hreceiving
      have hlength : htriangle.transfer.data.length = attributesCount components := htriangle.length
      rw [← hlength] at hwaits
      obtain ⟨ht', -⟩ := hwaits.step_sending rfl rfl hr.shown components
      rw [hr.perTriangle]
      exact TriangleLink.afterPackage hr' ht' (htriangles ▸ hr.last)
  | moving htriangle p hr ht =>
    obtain ⟨hr', htriangles⟩ := hr.step inputs
    obtain ⟨ht', -⟩ := ht.step rfl rfl hr.shown components r.perTriangle.outSending
    exact TriangleLink.afterPackage hr' ht' (htriangles ▸ hr.last)

/-- While no triangle is being sent, the signals show the last one. -/
theorem TriangleLink.shows {r : Rasterizer F} {t : PerTriangleThread}
    (h : TriangleLink f components r t) (hfree : Free f components r) {triangle : Triangle F}
    (hlast : r.triangles.getLast? = some triangle) :
    SetUp f components triangle ∧ t.Shows triangle.attributes := by
  have hpc : ∀ triangle call, r.pc ≠ .perTriangle triangle call := by
    intro triangle call hpc
    rcases hfree with ⟨-, h | h | ⟨e, h⟩⟩ | ⟨-, call', h⟩ | ⟨triangle', ⟨_, _, _, h, -⟩, -⟩ <;>
    · rw [hpc] at h
      cases h
  cases h with
  | between hr ht hshown => exact hshown triangle hlast
  | offering htriangle hr ht => exact absurd hr.pc (hpc _ _)
  | moving htriangle p hr ht => exact absurd hr.pc (hpc _ _)

/-- A fragment is on offer only between two triangles. -/
theorem TriangleLink.offersFragment {r : Rasterizer F} {t : PerTriangleThread}
    (h : TriangleLink f components r t) (hsending : r.perFragment.outSending = true) :
    ∃ triangle, r.OffersFragment f triangle := by
  cases h with
  | between hr ht hshown =>
    rcases hr with hr | hr | hr
    · rw [hr.1.perFragment] at hsending
      cases hsending
    · rw [hr.1.perFragment] at hsending
      cases hsending
    · exact hr
  | offering htriangle hr ht =>
    rw [hr.perFragment] at hsending
    cases hsending
  | moving htriangle p hr ht =>
    rw [hr.low.perFragment] at hsending
    cases hsending

/-- The triangles that were set up stay recorded. -/
theorem TriangleLink.triangles {r : Rasterizer F} {t : PerTriangleThread}
    (h : TriangleLink f components r t) (inputs : RasterizerInputs) :
    ∃ rest, (r.step f components inputs).triangles = r.triangles ++ rest := by
  cases h with
  | between hr ht hshown =>
    rcases hr.step inputs with ⟨-, htriangles⟩ | ⟨triangle, -, -, htriangles⟩
    · exact ⟨[], by rw [htriangles, List.append_nil]⟩
    · exact ⟨[triangle], htriangles⟩
  | offering htriangle hr ht =>
    refine ⟨[], ?_⟩
    rw [List.append_nil]
    cases hreceiving : inputs.perTriangleReceiving with
    | false => rw [hr.step_waits hreceiving]
    | true => exact (hr.step_answered hreceiving).2
  | moving htriangle p hr ht => exact ⟨[], by rw [(hr.step inputs).2, List.append_nil]⟩

/-! ## Batches -/

/-- A request for fragments of the last triangle, built while the rasterizer is not sending
    another one. -/
theorem oneTriangle_built {r : Rasterizer F} {t : PerTriangleThread}
    (h : TriangleLink f components r t) (hfree : Free f components r)
    {fragments : List RasterizedFragment} (hne : fragments ≠ [])
    (hfragments : ∀ fragment ∈ fragments, OfLast f r.triangles fragment)
    {pins : FragmentShaderPins} {request : BuiltRequest}
    (hbuilt : PerFragmentThread.BuiltFrom f pins
      ((List.range (attributesCount components)).map t.perTriangleAttribs) fragments request) :
    OneTriangle f r.triangles request := by
  obtain ⟨hrequest, hdata⟩ := hbuilt
  obtain ⟨first, hfirst⟩ := List.exists_mem_of_ne_nil fragments hne
  have hpos : 0 < r.triangles.length := by
    have hindex := (hfragments first hfirst).index
    omega
  have hlast : r.triangles.getLast? = some r.triangles[r.triangles.length - 1] := by
    rw [List.getLast?_eq_getElem?, List.getElem?_eq_getElem]
  obtain ⟨htriangle, hshows⟩ := h.shows hfree hlast
  refine ⟨r.triangles.length - 1, _, List.getElem?_eq_getElem _, htriangle.attributes, ?_, ?_⟩
  · rw [hrequest]
    intro fragment hfragment
    have hof := hfragments fragment hfragment
    have hindex := hof.index
    exact ⟨by omega, hof.hit _ hlast⟩
  · refine ⟨uniformValues pins.inpUniforms.sizes pins.inpUniformsData, ?_⟩
    have hlength : attributesCount components =
        r.triangles[r.triangles.length - 1].attributes.length := htriangle.length.symm
    have hattributes : (List.range (attributesCount components)).map t.perTriangleAttribs =
        r.triangles[r.triangles.length - 1].attributes := by
      rw [hlength]
      exact hshows
    rw [hdata, hrequest, hattributes]

/-- The fragment on offer is of the last triangle. -/
theorem offered_ofLast {r : Rasterizer F} {triangle : Triangle F}
    (h : r.OffersFragment f triangle) : OfLast f r.triangles (r.perFragment.outDataPorts 0) := by
  obtain ⟨⟨width, height, fragment, -, hport, hof⟩, -⟩ := h
  rw [hport]
  exact hof

section
variable {r : Rasterizer F} {tt : PerTriangleThread} {t : PerFragmentThread}
  {rasterizerInputs : RasterizerInputs} {pins : FragmentShaderPins} {inputs : PerFragmentInputs}

theorem BatchLink.empty (ht : t.Waits [] ∨ t.GivesUp []) : BatchLink f components r t := by
  rcases ht with ht | ht
  · exact .waiting ht (fun hne => absurd rfl hne) fun fragment hfragment => by cases hfragment
  · exact .ending ht (fun hne => absurd rfl hne) fun fragment hfragment => by cases hfragment

/-- A request is added to those that were built before. -/
theorem requests_concat {triangles : List (Triangle F)} {requests requests' : List BuiltRequest}
    {request : BuiltRequest} (hrequests : requests' = requests ++ [request])
    (hone : OneTriangle f triangles request) :
    ∀ request' ∈ requests', request' ∈ requests ∨ OneTriangle f triangles request' := by
  intro request' hrequest'
  rw [hrequests] at hrequest'
  rcases List.mem_append.mp hrequest' with hold | hnew
  · exact Or.inl hold
  · rw [List.mem_singleton.mp hnew]
    exact Or.inr hone

/-- Nothing is offered, and the rasterizer of an open batch is at the head of its loop. -/
theorem BatchLink.step_silent {fragments : List RasterizedFragment} (ht : t.Waits fragments)
    (hr : fragments ≠ [] → r.Rests ∨ ∃ triangle, r.OffersFragment f triangle)
    (hfragments : ∀ fragment ∈ fragments, OfLast f r.triangles fragment)
    (hoffer : r.perFragment.outSending = false) (hsending : inputs.inpSending = false) :
    BatchLink f components (r.step f components rasterizerInputs) (t.step f pins inputs) ∧
      (t.step f pins inputs).requests = t.requests := by
  obtain ⟨hgivesUp, hrequests⟩ :=
    @PerFragmentThread.Waits.step_silent F f t pins inputs _ ht hsending
  refine ⟨?_, hrequests⟩
  by_cases hnil : fragments = []
  · subst hnil
    exact .empty (Or.inr hgivesUp)
  · have hrests : r.Rests := by
      rcases hr hnil with hr | ⟨triangle, hr⟩
      · exact hr
      · rw [hr.perFragment] at hoffer
        cases hoffer
    obtain ⟨hnext, hsame⟩ := hrests.step components rasterizerInputs
    refine .ending hgivesUp (fun _ => hnext) ?_
    rw [hsame]
    exact hfragments

/-- The fragment on offer is taken. Then the batch is still open, or it is full and the
    request is built while the signals show its triangle. -/
theorem BatchLink.step_offered (htriangles : TriangleLink f components r tt)
    {fragments : List RasterizedFragment} (ht : t.Waits fragments)
    (hfragments : ∀ fragment ∈ fragments, OfLast f r.triangles fragment)
    {triangle : Triangle F} (hoffers : r.OffersFragment f triangle)
    (hreceiving : rasterizerInputs.perFragmentReceiving = true)
    (hpins : pins.inpCustomInputComponents = components) (hsending : inputs.inpSending = true)
    (hdata : inputs.inpData = r.perFragment.outDataPorts)
    (hattribs : inputs.perTriangleAttribs = tt.perTriangleAttribs) :
    BatchLink f components (r.step f components rasterizerInputs) (t.step f pins inputs) ∧
      ∀ request ∈ (t.step f pins inputs).requests,
        request ∈ t.requests ∨ OneTriangle f r.triangles request := by
  subst hpins
  obtain ⟨hnext, hsame⟩ := @OffersFragment.step_answered F f pins.inpCustomInputComponents
    triangle r rasterizerInputs hoffers hreceiving
  have hall : ∀ fragment ∈ fragments ++ [inputs.inpData 0], OfLast f r.triangles fragment := by
    intro fragment hfragment
    rcases List.mem_append.mp hfragment with hfragment | hfragment
    · exact hfragments fragment hfragment
    · rw [List.mem_singleton.mp hfragment, hdata]
      exact offered_ofLast hoffers
  rcases @PerFragmentThread.Waits.step_sending F f t pins inputs _ ht hsending with
    ⟨hwaits, hrequests⟩ | ⟨haway, request, hrequests, hbuilt⟩
  · refine ⟨.waiting hwaits (fun _ => ?_) ?_, ?_⟩
    · rcases hnext with hnext | hnext
      · exact Or.inr ⟨triangle, hnext⟩
      · exact Or.inl hnext
    · rw [hsame]
      exact hall
    · rw [hrequests]
      exact fun request hrequest => Or.inl hrequest
  · refine ⟨.away haway, requests_concat hrequests ?_⟩
    have hfree : Free f pins.inpCustomInputComponents r := Or.inr (Or.inr ⟨triangle, hoffers⟩)
    rw [hattribs] at hbuilt
    exact oneTriangle_built htriangles hfree
      (List.append_ne_nil_of_right_ne_nil _ (List.cons_ne_nil _ _)) hall hbuilt

/-- The batch ends. The next triangle has not been received yet. -/
theorem BatchLink.step_ending (htriangles : TriangleLink f components r tt)
    {fragments : List RasterizedFragment} (ht : t.GivesUp fragments)
    (hr : fragments ≠ [] → r.Rests ∨ r.Receives components)
    (hfragments : ∀ fragment ∈ fragments, OfLast f r.triangles fragment)
    (hpins : pins.inpCustomInputComponents = components)
    (hattribs : inputs.perTriangleAttribs = tt.perTriangleAttribs) :
    BatchLink f components (r.step f components rasterizerInputs) (t.step f pins inputs) ∧
      ∀ request ∈ (t.step f pins inputs).requests,
        request ∈ t.requests ∨ OneTriangle f r.triangles request := by
  subst hpins
  obtain ⟨haway, hrequests⟩ := @PerFragmentThread.GivesUp.step F f t pins inputs _ ht
  refine ⟨.away haway, ?_⟩
  rcases hrequests with hrequests | ⟨hne, request, hrequests, hbuilt⟩
  · rw [hrequests]
    exact fun request hrequest => Or.inl hrequest
  · apply requests_concat hrequests
    rw [hattribs] at hbuilt
    exact oneTriangle_built htriangles ((hr hne).imp_right Or.inl) hne hfragments hbuilt

/-- A batch that is open goes on with fragments of its triangle, or ends before the rasterizer
    has the next triangle to send. -/
theorem BatchLink.step (h : BatchLink f components r t) (htriangles : TriangleLink f components r tt)
    (hreceiving : rasterizerInputs.perFragmentReceiving = t.previousBlock.outReceiving)
    (hpins : pins.inpCustomInputComponents = components)
    (hsending : inputs.inpSending = r.perFragment.outSending)
    (hdata : inputs.inpData = r.perFragment.outDataPorts)
    (hattribs : inputs.perTriangleAttribs = tt.perTriangleAttribs) :
    BatchLink f components (r.step f components rasterizerInputs) (t.step f pins inputs) ∧
      ∀ request ∈ (t.step f pins inputs).requests,
        request ∈ t.requests ∨ OneTriangle f r.triangles request := by
  cases h with
  | away ht =>
    obtain ⟨hnext, hrequests⟩ := @PerFragmentThread.Away.step F f t ht pins inputs
    rw [hrequests]
    refine ⟨?_, fun request hrequest => Or.inl hrequest⟩
    rcases hnext with haway | hwaits
    · exact .away haway
    · exact .empty (Or.inl hwaits)
  | waiting ht hr hfragments =>
    cases hoffer : r.perFragment.outSending with
    | false =>
      obtain ⟨hlink, hrequests⟩ :=
        BatchLink.step_silent ht hr hfragments hoffer (hsending.trans hoffer)
      rw [hrequests]
      exact ⟨hlink, fun request hrequest => Or.inl hrequest⟩
    | true =>
      obtain ⟨triangle, hoffers⟩ := htriangles.offersFragment hoffer
      exact BatchLink.step_offered htriangles ht hfragments hoffers (hreceiving.trans ht.2) hpins
        (hsending.trans hoffer) hdata hattribs
  | ending ht hr hfragments =>
    exact BatchLink.step_ending htriangles ht hr hfragments hpins hattribs

end

/-- Where the call for the next fragment stands, if there is one. -/
theorem BatchLink.calls {r : Rasterizer F} {t : PerFragmentThread}
    (h : BatchLink f components r t) :
    t.Away ∨ (∃ fragments, t.Waits fragments) ∨ ∃ fragments, t.GivesUp fragments := by
  cases h with
  | away ht => exact Or.inl ht
  | waiting ht hr hfragments => exact Or.inr (Or.inl ⟨_, ht⟩)
  | ending ht hr hfragments => exact Or.inr (Or.inr ⟨_, ht⟩)

/-! ## Whole runs -/

theorem pipelineInv_new : PipelineInv f components (FragmentPipeline.new : FragmentPipeline F) where
  triangles := by
    refine .between (Or.inl ⟨⟨rfl, rfl⟩, Or.inl rfl⟩) (Or.inl ⟨rfl, rfl⟩) ?_
    intro triangle hlast
    cases hlast
  batch := by
    refine .away ⟨?_, rfl⟩
    intro fragments call hpc
    cases hpc
  requests := by
    intro request hrequest
    cases hrequest

theorem pipelineInv_step (surroundings : Nat → Surroundings) (clock : Nat) (s : FragmentPipeline F)
    (h : PipelineInv f components s) :
    PipelineInv f components (s.step f components surroundings clock) := by
  obtain ⟨htriangles, hbatch, hrequests⟩ := h
  have hstep : BatchLink f components (s.step f components surroundings clock).rasterizer
        (s.step f components surroundings clock).perFragment ∧
      ∀ request ∈ (s.step f components surroundings clock).perFragment.requests,
        request ∈ s.perFragment.requests ∨ OneTriangle f s.rasterizer.triangles request :=
    hbatch.step htriangles rfl rfl rfl rfl rfl
  obtain ⟨rest, hrest⟩ : ∃ rest, (s.step f components surroundings clock).rasterizer.triangles =
      s.rasterizer.triangles ++ rest := htriangles.triangles _
  refine ⟨htriangles.step rfl, hstep.1, ?_⟩
  intro request hrequest
  rw [hrest]
  -- what was true of an older request stays true with the triangles set up since
  apply OneTriangle.append
  rcases hstep.2 request hrequest with hold | hone
  · exact hrequests request hold
  · exact hone

/-- **In every run, a request for fragments is for fragments of one triangle, and it has the
    attributes of that triangle.** -/
theorem batch_of_one_triangle (f : Floats F) (components : CustomShaderComponents)
    (surroundings : Nat → Surroundings) (n : Nat) :
    ∀ request ∈ (FragmentPipeline.after f components surroundings n).perFragment.requests,
      OneTriangle f (FragmentPipeline.after f components surroundings n).rasterizer.triangles request :=
  (run_always pipelineInv_new (pipelineInv_step surroundings) n).requests

/-- Neighbours that are always ready, and a framebuffer of two pixels. -/
def readySurroundings : Surroundings where
  inpWidth := 2
  inpHeight := 1
  inpShaderAddress := 0
  inpUniforms := ⟨0, 0, 0, 0⟩
  inpUniformsData := fun _ _ => 0
  verticesSending := true
  verticesData := BitVec.ofNat 32
  requestReceiving := true
  responseSending := true
  responseData := fun _ => 0
  nextBlockReceiving := true

/-- Dwords in the place of floats. No value is negative: every pixel is in a triangle. -/
def dwordFloats : Floats Dword where
  ofBits := id
  bits := id
  ofInt := BitVec.setWidth 32
  zero := 0
  one := 1
  maxByte := 255
  sub := (· - ·)
  mul := (· * ·)
  div := fun a _ => a
  lt := fun _ _ => false
  eq := fun _ _ => false
  toUint := id

/-- The first batch is complete ten clocks into the run. -/
theorem first_batch_of_one_triangle :
    let s := FragmentPipeline.after dwordFloats ⟨0, 0, 0, 0⟩ (fun _ => readySurroundings) 10
    ∃ request ∈ s.perFragment.requests, request.data = [1, 0, 0, 1, 2, 4, 5, 6, 8, 9, 10] ∧
      OneTriangle dwordFloats s.rasterizer.triangles request := by
  intro s
  have hdata : s.perFragment.requests.map BuiltRequest.data =
      [[1, 0, 0, 1, 2, 4, 5, 6, 8, 9, 10]] := by decide +kernel
  obtain ⟨request, hrequest, hrequestData⟩ := List.mem_map.mp (hdata ▸ List.mem_singleton_self _)
  exact ⟨request, hrequest, hrequestData, batch_of_one_triangle _ _ _ _ request hrequest⟩

end

end PicoGpu
