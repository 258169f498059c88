import PicoGpu.Lib.Plane
import PicoGpu.Rasterizer

/- Which pixels a triangle covers. `rasterize` comes to every pixel of the framebuffer
   and sends a fragment for those that `isPointInTriangle` accepts (`emits_iff`). With
   exact floats that are the pixels in the triangle, if it has an area; if it has none,
   all pixels of the line of its vertices, also those beyond them. -/
namespace PicoGpu
namespace Rasterizer
open Plane

/-! ## The loops of `rasterize` -/

section
variable {F : Type} {f : Floats F} {components : CustomShaderComponents} {vertices : Vertices F}
  {width height : Dword} {x y x' y' : BitVec 16} {r : Rasterizer F}

/-- The states of the block within a call of `rasterize`, whatever its surroundings do. -/
inductive Rasterizes (f : Floats F) (components : CustomShaderComponents) (vertices : Vertices F)
    (width height : Dword) : Rasterizer F → Prop
  | call (r : Rasterizer F) (hlow : r.perFragment.outSending = false) :
      Rasterizes f components vertices width height (rasterize f vertices width height r)
  | step {r : Rasterizer F} (inputs : RasterizerInputs)
      (h : Rasterizes f components vertices width height r)
      (hsending : r.perFragment.outSending = true) :
      Rasterizes f components vertices width height (r.step f components inputs)

/-- A fragment of the pixel is offered. -/
def Offers (x y : BitVec 16) (r : Rasterizer F) : Prop :=
  r.perFragment.outSending = true ∧ (r.perFragment.outDataPorts 0).fragment = ⟨x, y⟩

/-- `rasterize` sends a fragment for the pixel. -/
def Emits (f : Floats F) (components : CustomShaderComponents) (vertices : Vertices F)
    (width height : Dword) (x y : BitVec 16) : Prop :=
  ∃ r, Rasterizes f components vertices width height r ∧ r.Offers x y

/-- The pixels that the loops come to. A row of `2 ^ 16` pixels or more has no end, since
    the coordinate has 16 bits. -/
structure Reached (width height : Dword) (x y : BitVec 16) : Prop where
  column : x.toNat < width.toNat
  row : y.toNat < height.toNat
  rowEnds : width.toNat < 2 ^ 16 ∨ y = 0

/-- Between two `wait()`s of the call, with a fragment of the pixel on the ports. -/
structure Sends (f : Floats F) (vertices : Vertices F) (width height : Dword) (x y : BitVec 16)
    (r : Rasterizer F) : Prop where
  pc : ∃ triangle, r.pc = .perFragment vertices width height ⟨⟨x, y⟩, triangle⟩ (.acknowledge 1 1)
  offers : r.Offers x y
  hit : hits f vertices x y = true
  reached : Reached width height x y

theorem nextHit_reached {iterations : Nat} (hy : y.toNat < height.toNat)
    (hrow : width.toNat < 2 ^ 16 ∨ y = 0)
    (h : nextHit f vertices width height iterations x y = .hit x' y') :
    Reached width height x' y' := by
  induction iterations generalizing x y with
  | zero => cases h
  | succ iterations ih =>
    rw [nextHit] at h
    split at h
    next hx =>
      split at h
      · cases h
        exact ⟨hx, hy, hrow⟩
      · exact ih hy hrow h
    next hx =>
      split at h
      next hy' =>
        -- the row has ended, so it has fewer pixels than there are coordinates
        apply ih hy' _ h
        have hlt := x.isLt
        exact .inl (by omega)
      next => cases h

theorem rasterizeFrom_sends {iterations : Nat} (hlow : r.perFragment.outSending = false)
    (hy : y.toNat < height.toNat) (hrow : width.toNat < 2 ^ 16 ∨ y = 0) :
    let scan := nextHit f vertices width height iterations x y
    ((r.rasterizeFrom vertices width height scan).perFragment.outSending = false ∧
        ∀ x y, scan ≠ .hit x y) ∨
      ∃ x' y', scan = .hit x' y' ∧
        Sends f vertices width height x' y' (r.rasterizeFrom vertices width height scan) := by
  intro scan
  cases hscan : scan with
  | hit x' y' =>
    exact .inr ⟨x', y', rfl, ⟨_, rfl⟩, ⟨rfl, rfl⟩, nextHit_hit hscan, nextHit_reached hy hrow hscan⟩
  | finished =>
    refine .inl ⟨hlow, ?_⟩
    intro x y h
    cases h
  | endless =>
    refine .inl ⟨hlow, ?_⟩
    intro x y h
    cases h

theorem Sends.step_waits (h : Sends f vertices width height x y r) {inputs : RasterizerInputs}
    (hreceiving : inputs.perFragmentReceiving = false) : r.step f components inputs = r := by
  obtain ⟨⟨triangle, hpc⟩, -⟩ := h
  exact step_fragment_waits hpc hreceiving

theorem Sends.step_answered (h : Sends f vertices width height x y r) {inputs : RasterizerInputs}
    (hreceiving : inputs.perFragmentReceiving = true) :
    ∃ r₀ : Rasterizer F, r₀.perFragment.outSending = false ∧ r.step f components inputs =
      r₀.rasterizeFrom vertices width height
        (nextHit f vertices width height maxIterations (x + 1) y) := by
  obtain ⟨⟨triangle, hpc⟩, -⟩ := h
  obtain ⟨ports, hlow, hstep⟩ := @step_fragment_taken F f components r inputs _ _ _ _ hpc hreceiving
  exact ⟨{ r with perFragment := ports }, hlow, hstep⟩

theorem rasterizes_cases (h : Rasterizes f components vertices width height r) :
    r.perFragment.outSending = false ∨ ∃ x y, Sends f vertices width height x y r := by
  induction h with
  | call r hlow =>
    unfold rasterize
    split
    next hpos =>
      obtain ⟨hlow', -⟩ | ⟨x, y, -, hsends⟩ := @rasterizeFrom_sends F f vertices width height 0 0 r
        maxIterations hlow hpos (.inr rfl)
      · exact .inl hlow'
      · exact .inr ⟨x, y, hsends⟩
    next => exact .inl hlow
  | step inputs h hsending ih =>
    obtain hlow | ⟨x, y, hsends⟩ := ih
    · rw [hlow] at hsending
      cases hsending
    · cases hreceiving : inputs.perFragmentReceiving with
      | false =>
        rw [hsends.step_waits hreceiving]
        exact .inr ⟨x, y, hsends⟩
      | true =>
        obtain ⟨r₀, hlow, hstep⟩ := @Sends.step_answered F f components _ _ _ _ _ _ hsends _ hreceiving
        rw [hstep]
        obtain ⟨hlow', -⟩ | ⟨x', y', -, hsends'⟩ := @rasterizeFrom_sends F f vertices width height
          (x + 1) y r₀ maxIterations hlow hsends.reached.row hsends.reached.rowEnds
        · exact .inl hlow'
        · exact .inr ⟨x', y', hsends'⟩

/-! ## Every pixel has its turn -/

/-- The iterations up to a pixel, with the one that ends each row. -/
def iterationsTo (width : Dword) (x y : BitVec 16) : Nat := y.toNat * (width.toNat + 1) + x.toNat

/-- The loops have not passed the pixel `(x', y')` when they are at `(x, y)`. -/
def Before (width : Dword) (x' y' x y : BitVec 16) : Prop :=
  (y = y' ∧ x.toNat ≤ x'.toNat) ∨ (y.toNat < y'.toNat ∧ x.toNat ≤ width.toNat)

theorem iterationsTo_lt (h : Reached width height x y) : iterationsTo width x y < maxIterations := by
  have hx := x.isLt
  have hy := y.isLt
  unfold iterationsTo maxIterations
  obtain hrow | rfl := h.rowEnds
  · -- the last row and the last column give the bound of the model's iterations
    have hmul : y.toNat * (width.toNat + 1) ≤ (2 ^ 16 - 1) * 2 ^ 16 := by
      apply Nat.mul_le_mul
      · omega
      · omega
    omega
  · have hzero : (0 : BitVec 16).toNat = 0 := rfl
    rw [hzero, Nat.zero_mul]
    omega

theorem iterationsTo_le (h : Reached width height x' y') (hbefore : Before width x' y' x y) :
    iterationsTo width x y ≤ iterationsTo width x' y' := by
  unfold iterationsTo
  obtain ⟨rfl, hx⟩ | ⟨hy, hx⟩ := hbefore
  · omega
  · have hrows := Nat.mul_le_mul_right (width.toNat + 1) hy
    rw [Nat.succ_mul] at hrows
    omega

/-- The iteration of a pixel of a row. -/
theorem before_next (h : Reached width height x' y') (hbefore : Before width x' y' x y)
    (hx : x.toNat < width.toNat) (hother : ¬ (x = x' ∧ y = y')) :
    Before width x' y' (x + 1) y ∧ iterationsTo width (x + 1) y = iterationsTo width x y + 1 := by
  have hxx' : x.toNat = x'.toNat → x = x' := BitVec.eq_of_toNat_eq
  have hx' := x'.isLt
  have hxlt := x.isLt
  have hnext : (x + 1).toNat = x.toNat + 1 := by
    rw [BitVec.toNat_add, show (1 : BitVec 16).toNat = 1 from rfl]
    apply Nat.mod_eq_of_lt
    -- the coordinate does not wrap: there is a pixel behind it in its row or below
    obtain ⟨rfl, hle⟩ | ⟨hlt, -⟩ := hbefore
    · by_contra hge
      exact hother ⟨hxx' (by omega), rfl⟩
    · obtain hrow | rfl := h.rowEnds
      · omega
      · cases hlt
  constructor
  · unfold Before
    rw [hnext]
    obtain ⟨rfl, hle⟩ | ⟨hlt, -⟩ := hbefore
    · refine .inl ⟨rfl, ?_⟩
      by_contra hge
      exact hother ⟨hxx' (by omega), rfl⟩
    · exact .inr ⟨hlt, hx⟩
  · unfold iterationsTo
    rw [hnext, Nat.add_assoc]

/-- The iteration that ends a row. -/
theorem before_row (h : Reached width height x' y') (hbefore : Before width x' y' x y)
    (hx : ¬ x.toNat < width.toNat) : (y + 1).toNat < height.toNat ∧ Before width x' y' 0 (y + 1) ∧
      iterationsTo width 0 (y + 1) = iterationsTo width x y + 1 := by
  have hx' := h.column
  have hy' := h.row
  have hylt := y'.isLt
  obtain ⟨rfl, hle⟩ | ⟨hlt, hle⟩ := hbefore
  · omega
  · have hnext : (y + 1).toNat = y.toNat + 1 := by
      rw [BitVec.toNat_add, show (1 : BitVec 16).toNat = 1 from rfl]
      omega
    have hzero : (0 : BitVec 16).toNat = 0 := rfl
    refine ⟨by omega, ?_, ?_⟩
    · unfold Before
      rw [hnext, hzero]
      by_cases hlast : y.toNat + 1 = y'.toNat
      · exact .inl ⟨BitVec.eq_of_toNat_eq (by rw [hnext, hlast]), Nat.zero_le _⟩
      · exact .inr ⟨by omega, Nat.zero_le _⟩
    · unfold iterationsTo
      rw [hnext, hzero, Nat.succ_mul]
      omega

/-- The next hit is not behind a pixel that is hit. -/
theorem nextHit_before (hhit : hits f vertices x' y' = true) (h : Reached width height x' y')
    {iterations : Nat} (hbefore : Before width x' y' x y)
    (hlt : iterationsTo width x' y' < iterationsTo width x y + iterations) :
    ∃ x₁ y₁, nextHit f vertices width height iterations x y = .hit x₁ y₁ ∧
      Before width x' y' x₁ y₁ ∧ iterationsTo width x y ≤ iterationsTo width x₁ y₁ := by
  induction iterations generalizing x y with
  | zero =>
    have hle := iterationsTo_le h hbefore
    omega
  | succ iterations ih =>
    rw [nextHit]
    split
    next hx =>
      split
      next => exact ⟨x, y, rfl, hbefore, Nat.le_refl _⟩
      next hmiss =>
        -- a pixel that is missed is not the one that is hit, so that one is still to come
        obtain ⟨hbefore', hnext⟩ := before_next h hbefore hx (by
          rintro ⟨rfl, rfl⟩
          exact hmiss hhit)
        obtain ⟨x₁, y₁, hscan, hbefore₁, hle⟩ := ih hbefore' (by omega)
        exact ⟨x₁, y₁, hscan, hbefore₁, by omega⟩
    next hx =>
      obtain ⟨hy, hbefore', hnext⟩ := before_row h hbefore hx
      rw [if_pos hy]
      obtain ⟨x₁, y₁, hscan, hbefore₁, hle⟩ := ih hbefore' (by omega)
      exact ⟨x₁, y₁, hscan, hbefore₁, by omega⟩

/-- Surroundings that take every fragment. -/
def takingInputs : RasterizerInputs where
  inpWidth := 0
  inpHeight := 0
  inpSending := false
  inpData := fun _ => 0
  perTriangleReceiving := true
  perFragmentReceiving := true

/-- What the loops come to from a pixel that is not behind a hit. -/
theorem rasterizeFrom_before {r₀ : Rasterizer F} {iterations : Nat}
    (hlow : r₀.perFragment.outSending = false) (hy : y.toNat < height.toNat)
    (hrow : width.toNat < 2 ^ 16 ∨ y = 0) (hhit : hits f vertices x' y' = true)
    (h : Reached width height x' y') (hbefore : Before width x' y' x y)
    (hlt : iterationsTo width x' y' < iterationsTo width x y + iterations) :
    ∃ x₁ y₁, Sends f vertices width height x₁ y₁
        (r₀.rasterizeFrom vertices width height (nextHit f vertices width height iterations x y)) ∧
      Before width x' y' x₁ y₁ ∧ iterationsTo width x y ≤ iterationsTo width x₁ y₁ := by
  obtain ⟨x₁, y₁, hscan, hbefore₁, hle⟩ := nextHit_before hhit h hbefore hlt
  obtain ⟨-, hnone⟩ | ⟨x₂, y₂, hscan₂, hsends⟩ := @rasterizeFrom_sends F f vertices width height x y
    r₀ iterations hlow hy hrow
  · exact absurd hscan (hnone x₁ y₁)
  · rw [hscan] at hscan₂
    cases hscan₂
    exact ⟨x₁, y₁, hsends, hbefore₁, hle⟩

/-- From a pixel that is not behind a hit the loops come to the hit, when every fragment
    is taken. -/
theorem emits_of_before (hhit : hits f vertices x' y' = true) (h : Reached width height x' y') :
    ∀ left x y (r : Rasterizer F), Rasterizes f components vertices width height r →
      Sends f vertices width height x y r → Before width x' y' x y →
      iterationsTo width x' y' ≤ iterationsTo width x y + left →
      Emits f components vertices width height x' y' := by
  intro left
  induction left with
  | zero =>
    intro x y r hr hsends hbefore hle
    by_cases hhere : x = x' ∧ y = y'
    · obtain ⟨rfl, rfl⟩ := hhere
      exact ⟨r, hr, hsends.offers⟩
    · -- the pixel would be behind, with no iteration left
      obtain ⟨hbefore', hnext⟩ := before_next h hbefore hsends.reached.column hhere
      have hle' := iterationsTo_le h hbefore'
      omega
  | succ left ih =>
    intro x y r hr hsends hbefore hle
    by_cases hhere : x = x' ∧ y = y'
    · obtain ⟨rfl, rfl⟩ := hhere
      exact ⟨r, hr, hsends.offers⟩
    · -- the fragment on the ports is taken, and the loops come to the next hit
      obtain ⟨hbefore', hnext⟩ := before_next h hbefore hsends.reached.column hhere
      obtain ⟨r₀, hlow, hstep⟩ := @Sends.step_answered F f components _ _ _ _ _ _ hsends takingInputs rfl
      have hlt := iterationsTo_lt h
      obtain ⟨x₁, y₁, hsends₁, hbefore₁, hle₁⟩ := @rasterizeFrom_before F f vertices width height
        (x + 1) y x' y' r₀ maxIterations hlow hsends.reached.row hsends.reached.rowEnds hhit h hbefore'
        (by omega)
      rw [← hstep] at hsends₁
      apply ih x₁ y₁ _ (.step takingInputs hr hsends.offers.1) hsends₁ hbefore₁
      omega

/-- **`rasterize` sends a fragment for each pixel of the framebuffer that is hit**, and for
    no other. -/
theorem emits_iff (f : Floats F) (components : CustomShaderComponents) (vertices : Vertices F)
    (width height : Dword) (x y : BitVec 16) : Emits f components vertices width height x y ↔
      hits f vertices x y = true ∧ Reached width height x y := by
  constructor
  · rintro ⟨r, hr, hsending, hdata⟩
    obtain hlow | ⟨x', y', hsends⟩ := rasterizes_cases hr
    · rw [hlow] at hsending
      cases hsending
    · rw [hsends.offers.2] at hdata
      cases hdata
      exact ⟨hsends.hit, hsends.reached⟩
  · rintro ⟨hhit, h⟩
    have hpos : 0 < height.toNat := Nat.zero_lt_of_lt h.row
    have hzero : (0 : BitVec 16).toNat = 0 := rfl
    have hbefore : Before width x y 0 0 := by
      unfold Before
      rw [hzero]
      by_cases hfirst : y = 0
      · exact .inl ⟨hfirst.symm, Nat.zero_le _⟩
      · refine .inr ⟨Nat.pos_of_ne_zero fun hy => hfirst (BitVec.eq_of_toNat_eq hy), Nat.zero_le _⟩
    have hlt := iterationsTo_lt h
    obtain ⟨x₁, y₁, hsends, hbefore₁, -⟩ := @rasterizeFrom_before F f vertices width height 0 0 x y
      (new : Rasterizer F) maxIterations rfl hpos (.inr rfl) hhit h hbefore (by omega)
    have hcall : Rasterizes f components vertices width height
        (new.rasterizeFrom vertices width height (nextHit f vertices width height maxIterations 0 0)) := by
      have hcall := @Rasterizes.call F f components vertices width height (new : Rasterizer F) rfl
      unfold rasterize at hcall
      rwa [if_pos hpos] at hcall
    exact emits_of_before hhit h (iterationsTo width x y) x₁ y₁ _ hcall hsends hbefore₁ (by omega)

end

/-! ## Positions -/

section
variable {K : Type}

def Point.position (point : Point K) : K × K := (point.x, point.y)

/-- The positions of the vertices. -/
def Vertices.corners (vertices : Vertices K) : Set (K × K) :=
  {vertices.v0.position, vertices.v1.position, vertices.v2.position}

/-- All vertices are at one point. -/
def Vertices.Coincident (vertices : Vertices K) : Prop :=
  vertices.v0.position = vertices.v1.position ∧ vertices.v1.position = vertices.v2.position

theorem Vertices.Coincident.corners_eq {vertices : Vertices K} (h : vertices.Coincident) :
    vertices.corners = {vertices.v0.position} := by
  unfold corners
  rw [← h.2, ← h.1]
  simp

variable [Field K]

def pixelPosition (x y : BitVec 16) : K × K := ((x.toNat : K), (y.toNat : K))

/-- The vertices are on a line. -/
def Vertices.OnLine (vertices : Vertices K) : Prop := Collinear K vertices.corners

theorem Vertices.OnLine.area_eq {vertices : Vertices K} (hline : vertices.OnLine) :
    area vertices.v0.position vertices.v1.position vertices.v2.position = 0 := by
  unfold Vertices.OnLine corners at hline
  apply Plane.area_of_collinear hline <;> simp

/-- A framebuffer whose pixels are all at one point is empty, or has only the first pixel. -/
theorem framebuffer_of_one_point [CharZero K] {width height : Dword} {point : K × K}
    (h : ∀ x y, Reached width height x y → pixelPosition x y = point) :
    width = 0 ∨ height = 0 ∨ (width = 1 ∧ height = 1 ∧ point = 0) := by
  have hfirst : ∀ {w : Dword}, w ≠ 0 → 0 < w.toNat := by
    intro w hw
    apply Nat.pos_of_ne_zero
    intro hzero
    exact hw (BitVec.eq_of_toNat_eq hzero)
  have hsecond : ∀ {w : Dword}, w ≠ 0 → w ≠ 1 → 1 < w.toNat := by
    intro w hzero hone
    have hpos := hfirst hzero
    have hne : w.toNat ≠ 1 := fun heq => hone (BitVec.eq_of_toNat_eq heq)
    omega
  by_cases hwidth : width = 0
  · exact .inl hwidth
  by_cases hheight : height = 0
  · exact .inr (.inl hheight)
  have horigin : pixelPosition 0 0 = point := h 0 0 ⟨hfirst hwidth, hfirst hheight, .inr rfl⟩
  -- a second pixel, beside the first one or below it, would be at another point
  have hcolumn : width = 1 := by
    by_contra hwide
    have hnext : pixelPosition 1 0 = point := h 1 0 ⟨hsecond hwidth hwide, hfirst hheight, .inr rfl⟩
    rw [← horigin] at hnext
    simp [pixelPosition] at hnext
  have hrow : height = 1 := by
    by_contra hhigh
    have hnarrow : width.toNat < 2 ^ 16 := by
      rw [hcolumn]
      decide
    have hnext : pixelPosition 0 1 = point :=
      h 0 1 ⟨hfirst hwidth, hsecond hheight hhigh, .inl hnarrow⟩
    rw [← horigin] at hnext
    simp [pixelPosition] at hnext
  refine .inr (.inr ⟨hcolumn, hrow, ?_⟩)
  rw [← horigin]
  simp [pixelPosition]

/-! ## Exact floats -/

variable [LinearOrder K]

/-- The float operations are those of an ordered field. -/
structure Exact (f : Floats K) : Prop where
  ofInt : ∀ n, f.ofInt n = (n.toNat : K)
  zero : f.zero = 0
  sub : ∀ a b, f.sub a b = a - b
  mul : ∀ a b, f.mul a b = a * b
  lt : ∀ a b, f.lt a b = decide (a < b)

variable {f : Floats K}

theorem Exact.sign_eq (hexact : Exact f) (p1 p2 p3 : Point K) :
    sign f p1 p2 p3 = area p1.position p2.position p3.position := by
  simp only [sign, hexact.sub, hexact.mul]
  rfl

/-- The test of the signs. -/
theorem Exact.isPointInTriangle_iff (hexact : Exact f) (pt v1 v2 v3 : Point K) :
    isPointInTriangle f pt v1 v2 v3 = true ↔ SameSign (area pt.position v1.position v2.position)
      (area pt.position v2.position v3.position) (area pt.position v3.position v1.position) := by
  simp only [isPointInTriangle, hexact.sign_eq, hexact.lt, hexact.zero, SameSign, Bool.not_eq_true',
    Bool.and_eq_false_iff, Bool.or_eq_false_iff, decide_eq_false_iff_not, not_lt, and_assoc]

theorem Exact.hits_iff (hexact : Exact f) (vertices : Vertices K) (x y : BitVec 16) :
    hits f vertices x y = true ↔
      SameSign (area (pixelPosition x y) vertices.v0.position vertices.v1.position)
        (area (pixelPosition x y) vertices.v1.position vertices.v2.position)
        (area (pixelPosition x y) vertices.v2.position vertices.v0.position) := by
  have hpixel : (⟨f.ofInt x, f.ofInt y, f.zero, f.zero, []⟩ : Point K).position =
      pixelPosition x y := by
    unfold Point.position pixelPosition
    rw [hexact.ofInt, hexact.ofInt]
  unfold hits
  rw [hexact.isPointInTriangle_iff, hpixel]

variable [IsStrictOrderedRing K]

/-- **The coverage test is exact.** With vertices that have an area, in either order, a point
    passes the test if and only if it is a convex combination of them. -/
theorem isPointInTriangle_iff_mem_hull (hexact : Exact f) (pt v1 v2 v3 : Point K)
    (harea : area v1.position v2.position v3.position ≠ 0) :
    isPointInTriangle f pt v1 v2 v3 = true ↔
      pt.position ∈ convexHull K {v1.position, v2.position, v3.position} := by
  rw [hexact.isPointInTriangle_iff, mem_hull_iff_sameSign harea]

/-- Exact rational numbers. Their bits are those of integers. -/
def rationalFloats : Floats ℚ where
  ofBits := fun bits => bits.toNat
  bits := fun q => BitVec.ofInt 32 q.floor
  ofInt := fun n => n.toNat
  zero := 0
  one := 1
  maxByte := 255
  sub := (· - ·)
  mul := (· * ·)
  div := (· / ·)
  lt := fun a b => decide (a < b)
  eq := fun a b => decide (a = b)
  toUint := fun q => BitVec.ofInt 32 q.floor

theorem rationalFloats_exact : Exact rationalFloats :=
  ⟨fun _ => rfl, rfl, fun _ _ => rfl, fun _ _ => rfl, fun _ _ => rfl⟩

/-- A corner of a triangle, and a point beyond its longest edge. -/
theorem isPointInTriangle_iff_mem_hull_corner :
    let v1 : Point ℚ := ⟨0, 0, 0, 1, []⟩
    let v2 : Point ℚ := ⟨0, 4, 0, 1, []⟩
    let v3 : Point ℚ := ⟨4, 0, 0, 1, []⟩
    (0, 4) ∈ convexHull ℚ {v1.position, v2.position, v3.position} ∧
      (3, 3) ∉ convexHull ℚ {v1.position, v2.position, v3.position} := by
  intro v1 v2 v3
  have harea : area v1.position v2.position v3.position ≠ 0 := by
    norm_num [area, Point.position, v1, v2, v3]
  have hiff := fun pt => @isPointInTriangle_iff_mem_hull ℚ _ _ rationalFloats _ rationalFloats_exact
    pt v1 v2 v3 harea
  constructor
  · exact (hiff ⟨0, 4, 0, 0, []⟩).mp (by decide +kernel)
  · intro hmem
    exact absurd ((hiff ⟨3, 3, 0, 0, []⟩).mpr hmem) (by decide +kernel)

/-- A triangle with an area is drawn as its pixels in the framebuffer. -/
theorem Exact.emits_iff_mem_hull (hexact : Exact f) (components : CustomShaderComponents)
    (vertices : Vertices K) (width height : Dword)
    (harea : area vertices.v0.position vertices.v1.position vertices.v2.position ≠ 0)
    (x y : BitVec 16) : Emits f components vertices width height x y ↔
      pixelPosition x y ∈ convexHull K vertices.corners ∧ Reached width height x y := by
  rw [emits_iff, hexact.hits_iff, Vertices.corners, mem_hull_iff_sameSign harea]

/-! ## Vertices without an area -/

/-- Vertices on a line hit every pixel of the line. -/
theorem Exact.hits_of_onLine (hexact : Exact f) {vertices : Vertices K}
    (hline : vertices.OnLine) (x y : BitVec 16) : hits f vertices x y = true ↔
      Collinear K (insert (pixelPosition x y) vertices.corners) := by
  rw [hexact.hits_iff, sameSign_iff_of_sum]
  · exact (collinear_insert_iff hline).symm
  · rw [area_sum]
    exact hline.area_eq

/-- The framebuffer has no pixel that vertices without an area hit beyond them. The line of
    coincident vertices is every line: then there is no pixel at all, or the only one is
    where they are. -/
structure NothingBeyond (vertices : Vertices K) (width height : Dword) : Prop where
  coincident : vertices.Coincident →
    width = 0 ∨ height = 0 ∨ (width = 1 ∧ height = 1 ∧ vertices.v0.position = 0)
  line : ¬ vertices.Coincident → ∀ x y, Reached width height x y →
    Collinear K (insert (pixelPosition x y) vertices.corners) →
    InBox vertices.corners (pixelPosition x y)

/-- **Vertices without an area.** Every pixel that a fragment is sent for is on the segment of
    the vertices if and only if no other pixel of the framebuffer is on their line. -/
theorem emits_on_segment_iff (hexact : Exact f) (components : CustomShaderComponents)
    (vertices : Vertices K) (hline : vertices.OnLine) (width height : Dword) :
    (∀ x y, Emits f components vertices width height x y →
      pixelPosition x y ∈ convexHull K vertices.corners) ↔ NothingBeyond vertices width height := by
  have hemits : ∀ x y, Emits f components vertices width height x y ↔
      Collinear K (insert (pixelPosition x y) vertices.corners) ∧ Reached width height x y := by
    intro x y
    rw [emits_iff, hexact.hits_of_onLine hline]
  constructor
  · intro h
    constructor
    · intro hcoincident
      apply framebuffer_of_one_point
      intro x y hreached
      have hpixel := h x y ((hemits x y).mpr ⟨?_, hreached⟩)
      · rwa [hcoincident.corners_eq, convexHull_singleton] at hpixel
      · rw [hcoincident.corners_eq]
        exact collinear_pair K _ _
    · intro _ x y hreached honline
      exact inBox_of_mem_hull (h x y ((hemits x y).mpr ⟨honline, hreached⟩))
  · intro h x y hemit
    obtain ⟨honline, hreached⟩ := (hemits x y).mp hemit
    by_cases hcoincident : vertices.Coincident
    · -- the only pixel there can be is the one of the vertices
      obtain rfl | rfl | ⟨rfl, rfl, hzero⟩ := h.coincident hcoincident
      · exact absurd hreached.column (Nat.not_lt_zero _)
      · exact absurd hreached.row (Nat.not_lt_zero _)
      · have hx : x.toNat = 0 := Nat.lt_one_iff.mp hreached.column
        have hy : y.toNat = 0 := Nat.lt_one_iff.mp hreached.row
        have hpixel : pixelPosition x y = vertices.v0.position := by
          rw [hzero, pixelPosition, hx, hy]
          simp
        rw [hpixel, hcoincident.corners_eq, convexHull_singleton]
        exact rfl
    · exact (mem_hull_iff_inBox honline).mpr (h.line hcoincident x y hreached honline)

end

/-- A row of four pixels, and vertices from its first to its last one. -/
theorem emits_on_segment_of_row :
    let vertices : Vertices ℚ := ⟨⟨0, 0, 0, 1, []⟩, ⟨3, 0, 0, 1, []⟩, ⟨1, 0, 0, 1, []⟩⟩
    ∀ x y, Emits rationalFloats ⟨0, 0, 0, 0⟩ vertices 4 1 x y →
      pixelPosition x y ∈ convexHull ℚ vertices.corners := by
  intro vertices
  have hline : vertices.OnLine := by
    refine (collinear_iff_of_mem (Set.mem_insert _ _)).mpr ⟨(1, 0), fun q hq => ⟨q.1, ?_⟩⟩
    obtain rfl | rfl | rfl := hq <;> simp [vertices, Point.position]
  apply (emits_on_segment_iff rationalFloats_exact ⟨0, 0, 0, 0⟩ vertices hline 4 1).mpr
  constructor
  · rintro ⟨hsame, -⟩
    norm_num [vertices, Point.position] at hsame
  · intro _ x y hreached _
    have hx : (x.toNat : ℚ) ≤ 3 := by exact_mod_cast Nat.lt_succ_iff.mp hreached.column
    have hy : (y.toNat : ℚ) ≤ 0 := by exact_mod_cast Nat.lt_succ_iff.mp hreached.row
    have hv0 : vertices.v0.position ∈ vertices.corners := Set.mem_insert _ _
    have hv1 : vertices.v1.position ∈ vertices.corners := Set.mem_insert_of_mem _ (Set.mem_insert _ _)
    exact ⟨⟨_, hv0, Nat.cast_nonneg _⟩, ⟨_, hv1, hx⟩, ⟨_, hv0, Nat.cast_nonneg _⟩, ⟨_, hv0, hy⟩⟩

/-- Three vertices at one point outside the framebuffer flood it. -/
theorem coincident_vertices_flood :
    let vertex : Point ℚ := ⟨9, 9, 0, 1, []⟩
    let vertices : Vertices ℚ := ⟨vertex, vertex, vertex⟩
    vertices.OnLine ∧
      (∀ x y, x.toNat < 4 → y.toNat < 4 → Emits rationalFloats ⟨0, 0, 0, 0⟩ vertices 4 4 x y) ∧
      ¬ ∀ x y, Emits rationalFloats ⟨0, 0, 0, 0⟩ vertices 4 4 x y →
        pixelPosition x y ∈ convexHull ℚ vertices.corners := by
  intro vertex vertices
  have hcorners : vertices.corners = {vertex.position} :=
    @Vertices.Coincident.corners_eq ℚ vertices ⟨rfl, rfl⟩
  have hline : vertices.OnLine := by
    rw [Vertices.OnLine, hcorners]
    exact collinear_singleton ℚ _
  have hflood : ∀ x y, x.toNat < 4 → y.toNat < 4 →
      Emits rationalFloats ⟨0, 0, 0, 0⟩ vertices 4 4 x y := by
    intro x y hx hy
    rw [emits_iff, rationalFloats_exact.hits_of_onLine hline, hcorners]
    exact ⟨collinear_pair ℚ _ _, hx, hy, .inl (by decide)⟩
  refine ⟨hline, hflood, fun h => ?_⟩
  have hpixel := h 0 0 (hflood 0 0 (by decide) (by decide))
  rw [hcorners, convexHull_singleton] at hpixel
  norm_num [pixelPosition, vertex, Point.position] at hpixel

end Rasterizer
end PicoGpu
