import PicoGpu.Coverage
import PicoGpu.Lib.Clocked

/- The order in which `rasterize` sends its fragments. The loops count pixels in the
   16-bit fields of a fragment and compare them with 32-bit bounds. As long as both
   bounds fit into 16 bits the call returns and has sent the pixels that are hit row by
   row; otherwise a counter comes back to zero before it reaches its bound, and the
   call never returns. -/
namespace PicoGpu
namespace Rasterizer

/-! ## The pixels that are left -/

/-- The pixels of a framebuffer, row by row. -/
def pixels (width height : Nat) : List (Nat × Nat) :=
  (List.range height).flatMap fun y => (List.range width).map fun x => (x, y)

/-- The pixels of the row from `x` on, and those of the rows behind it, that are covered. -/
def remaining (covered : Nat × Nat → Bool) (width height x y : Nat) : List (Nat × Nat) :=
  (((List.range' x (width - x)).map fun x => (x, y)) ++
    (List.range' (y + 1) (height - (y + 1))).flatMap fun y =>
      (List.range width).map fun x => (x, y)).filter covered

section
variable {covered : Nat × Nat → Bool} {width height x y : Nat}

theorem remaining_column (hx : x < width) : remaining covered width height x y =
    if covered (x, y) then (x, y) :: remaining covered width height (x + 1) y
    else remaining covered width height (x + 1) y := by
  have hlength : width - x = width - (x + 1) + 1 := by omega
  unfold remaining
  rw [hlength, List.range'_succ, List.map_cons, List.cons_append, List.filter_cons]

theorem remaining_row (hx : width ≤ x) : remaining covered width height x y =
    if y + 1 < height then remaining covered width height 0 (y + 1) else [] := by
  have hnone : width - x = 0 := by omega
  unfold remaining
  rw [hnone, List.range'_zero, List.map_nil, List.nil_append]
  split
  · have hlength : height - (y + 1) = height - (y + 1 + 1) + 1 := by omega
    rw [hlength, List.range'_succ, List.flatMap_cons, List.range_eq_range', Nat.sub_zero]
  · have hlast : height - (y + 1) = 0 := by omega
    rw [hlast]
    rfl

theorem remaining_all (hheight : 0 < height) :
    remaining covered width height 0 0 = (pixels width height).filter covered := by
  have hlength : height = height - (0 + 1) + 1 := by omega
  unfold remaining pixels
  rw [List.range_eq_range' (n := height), hlength, List.range'_succ, List.flatMap_cons,
    ← hlength, List.range_eq_range', Nat.sub_zero]

end

section
variable {F : Type} {f : Floats F} {components : CustomShaderComponents} {vertices : Vertices F}
  {width height : Dword}

/-- A pixel with the coordinates of a fragment is hit. -/
def isCovered (f : Floats F) (vertices : Vertices F) (pixel : Nat × Nat) : Bool :=
  hits f vertices (BitVec.ofNat 16 pixel.1) (BitVec.ofNat 16 pixel.2)

/-- What the loops come to, compared with the pixels that are left. -/
def Scan.Leads (f : Floats F) (vertices : Vertices F) (width height : Dword)
    (rest : List (Nat × Nat)) : Scan → Prop
  | .hit x y => x.toNat < width.toNat ∧ y.toNat < height.toNat ∧
    rest = (x.toNat, y.toNat) ::
      remaining (isCovered f vertices) width.toNat height.toNat (x.toNat + 1) y.toNat
  | .finished => rest = []
  | .endless => False

theorem next_toNat {x : BitVec 16} {bound : Nat} (hx : x.toNat < bound) (hbound : bound < 2 ^ 16) :
    (x + 1).toNat = x.toNat + 1 := by
  rw [BitVec.toNat_add, show (1 : BitVec 16).toNat = 1 from rfl]
  apply Nat.mod_eq_of_lt
  omega

theorem nextHit_leads (hwidth : width.toNat < 2 ^ 16) (hheight : height.toNat < 2 ^ 16)
    (iterations : Nat) {x y : BitVec 16} (hx : x.toNat ≤ width.toNat) (hy : y.toNat < height.toNat)
    (hleft : (height.toNat - 1 - y.toNat) * (width.toNat + 1) + (width.toNat - x.toNat) <
      iterations) :
    (nextHit f vertices width height iterations x y).Leads f vertices width height
      (remaining (isCovered f vertices) width.toNat height.toNat x.toNat y.toNat) := by
  induction iterations generalizing x y with
  | zero => exact absurd hleft (Nat.not_lt_zero _)
  | succ iterations ih =>
    rw [nextHit]
    by_cases hcolumn : x.toNat < width.toNat
    · have hhere : isCovered f vertices (x.toNat, y.toNat) = hits f vertices x y := by
        unfold isCovered
        rw [BitVec.ofNat_toNat, BitVec.ofNat_toNat, BitVec.setWidth_eq, BitVec.setWidth_eq]
      have hnext := next_toNat hcolumn hwidth
      rw [if_pos hcolumn, remaining_column hcolumn, hhere]
      split
      · exact ⟨hcolumn, hy, rfl⟩
      · rw [← hnext]
        apply ih
        · omega
        · exact hy
        · omega
    · rw [if_neg hcolumn, remaining_row (by omega)]
      have hnext := next_toNat hy hheight
      rw [hnext]
      split
      next hrow =>
        have hrows : (height.toNat - 1 - y.toNat) * (width.toNat + 1) =
            (height.toNat - 1 - (y.toNat + 1)) * (width.toNat + 1) + (width.toNat + 1) := by
          rw [show height.toNat - 1 - y.toNat = height.toNat - 1 - (y.toNat + 1) + 1 by omega,
            Nat.succ_mul]
        have hzero : (0 : BitVec 16).toNat = 0 := rfl
        have hih := @ih 0 (y + 1) (Nat.zero_le _) (by rw [hnext]; exact hrow)
          (by rw [hnext, hzero]; omega)
        rw [hnext, hzero] at hih
        exact hih
      next => rfl

/-- The model's iterations are enough for every framebuffer that fits. -/
theorem iterations_suffice (hwidth : width.toNat < 2 ^ 16) (hheight : height.toNat < 2 ^ 16)
    (x y : Nat) : (height.toNat - 1 - y) * (width.toNat + 1) + (width.toNat - x) <
      maxIterations := by
  have hmul : (height.toNat - 1 - y) * (width.toNat + 1) ≤ (2 ^ 16 - 1) * 2 ^ 16 := by
    apply Nat.mul_le_mul
    · omega
    · omega
  unfold maxIterations
  omega

/-- With a bound that the counters do not reach, the loops do not end. -/
theorem nextHit_unfinished (hlarge : 2 ^ 16 ≤ width.toNat ∨ 2 ^ 16 ≤ height.toNat)
    (iterations : Nat) (x y : BitVec 16) :
    nextHit f vertices width height iterations x y ≠ .finished := by
  induction iterations generalizing x y with
  | zero =>
    intro h
    cases h
  | succ iterations ih =>
    have hx := x.isLt
    have hy := (y + 1).isLt
    rw [nextHit]
    split
    · split
      · intro h
        cases h
      · exact ih _ _
    next hcolumn =>
      rw [if_pos (by omega)]
      exact ih _ _

/-! ## One clock -/

/-- A fragment of the pixel is on the ports, and its send call waits. -/
structure OnOffer (vertices : Vertices F) (width height : Dword) (x y : BitVec 16)
    (r : Rasterizer F) : Prop where
  pc : ∃ triangle, r.pc = .perFragment vertices width height ⟨⟨x, y⟩, triangle⟩ (.acknowledge 1 1)
  data : (r.perFragment.outDataPorts 0).fragment = ⟨x, y⟩

/-- The fragment whose send call returns at this clock, as the ports show it. -/
def sends (inputs : RasterizerInputs) (r : Rasterizer F) : List UnshadedFragment :=
  match r.pc with
  | .perFragment _ _ _ fragment call =>
    match call.resume (Transfer.send fragment) inputs.perFragmentReceiving r.perFragment with
    | (none, _) => [(r.perFragment.outDataPorts 0).fragment]
    | (some _, _) => []
  | _ => []

theorem rasterizeFrom_onOffer (r : Rasterizer F) (x y : BitVec 16) :
    (r.rasterizeFrom vertices width height (.hit x y)).OnOffer vertices width height x y :=
  ⟨⟨_, rfl⟩, rfl⟩

section
variable {x y : BitVec 16} {r : Rasterizer F} {inputs : RasterizerInputs}

theorem OnOffer.waits (h : r.OnOffer vertices width height x y)
    (hreceiving : inputs.perFragmentReceiving = false) :
    r.step f components inputs = r ∧ r.sends inputs = [] := by
  obtain ⟨⟨triangle, hpc⟩, -⟩ := h
  refine ⟨step_fragment_waits hpc hreceiving, ?_⟩
  unfold sends
  rw [hpc, hreceiving]
  rfl

theorem OnOffer.taken (h : r.OnOffer vertices width height x y)
    (hreceiving : inputs.perFragmentReceiving = true) :
    (∃ r₀ : Rasterizer F, r.step f components inputs = r₀.rasterizeFrom vertices width height
      (nextHit f vertices width height maxIterations (x + 1) y)) ∧
    r.sends inputs = [⟨x, y⟩] := by
  obtain ⟨⟨triangle, hpc⟩, hdata⟩ := h
  obtain ⟨ports, -, hstep⟩ := @step_fragment_taken F f components r inputs _ _ _ _ hpc hreceiving
  refine ⟨⟨{ r with perFragment := ports }, hstep⟩, ?_⟩
  obtain ⟨ports', hcall, -⟩ :=
    resume_send_returns (⟨⟨x, y⟩, triangle⟩ : RasterizedFragment) r.perFragment
  unfold sends
  rw [hpc, hreceiving]
  dsimp only
  rw [hcall]
  dsimp only
  rw [hdata]

end

/-! ## A call -/

/-- The block `n` clocks after it has called `rasterize`. -/
def after (f : Floats F) (components : CustomShaderComponents) (vertices : Vertices F)
    (width height : Dword) (inputs : Nat → RasterizerInputs) (r : Rasterizer F) :
    Nat → Rasterizer F :=
  Clocked.run (fun n r => r.step f components (inputs n)) (rasterize f vertices width height r)

/-- The pixels of the fragments that were sent before clock `n` of the call. -/
def sent (f : Floats F) (components : CustomShaderComponents) (vertices : Vertices F)
    (width height : Dword) (inputs : Nat → RasterizerInputs) (r : Rasterizer F) (n : Nat) :
    List (Nat × Nat) :=
  (List.range n).flatMap fun k =>
    ((after f components vertices width height inputs r k).sends (inputs k)).map fun fragment =>
      (fragment.x.toNat, fragment.y.toNat)

/-- Where the fragment shader always comes to take a fragment again, the call returns after
    it has sent the pixels that are hit, row by row. -/
def SendsRowByRow (f : Floats F) (components : CustomShaderComponents) (vertices : Vertices F)
    (width height : Dword) : Prop :=
  ∀ (r : Rasterizer F) (inputs : Nat → RasterizerInputs),
    (∀ n, ∃ m, n ≤ m ∧ (inputs m).perFragmentReceiving = true) →
    ∃ n, (after f components vertices width height inputs r n).pc = .start ∧
      (∀ m < n, (after f components vertices width height inputs r m).pc ≠ .start) ∧
      sent f components vertices width height inputs r n =
        (pixels width.toNat height.toNat).filter (isCovered f vertices)

section
variable {inputs : Nat → RasterizerInputs} {r : Rasterizer F}

theorem after_succ (n : Nat) : after f components vertices width height inputs r (n + 1) =
    (after f components vertices width height inputs r n).step f components (inputs n) := rfl

theorem sent_succ (n : Nat) : sent f components vertices width height inputs r (n + 1) =
    sent f components vertices width height inputs r n ++
      ((after f components vertices width height inputs r n).sends (inputs n)).map fun fragment =>
        (fragment.x.toNat, fragment.y.toNat) := by
  unfold sent
  rw [List.range_succ, List.flatMap_append, List.flatMap_cons, List.flatMap_nil, List.append_nil]

/-- The call waits until its fragment is taken. -/
theorem onOffer_waits {x y : BitVec 16} {n : Nat}
    (h : (after f components vertices width height inputs r n).OnOffer vertices width height x y)
    (clocks : Nat) (hwaits : ∀ k < clocks, (inputs (n + k)).perFragmentReceiving = false) :
    after f components vertices width height inputs r (n + clocks) =
        after f components vertices width height inputs r n ∧
      sent f components vertices width height inputs r (n + clocks) =
        sent f components vertices width height inputs r n := by
  induction clocks with
  | zero => exact ⟨rfl, rfl⟩
  | succ clocks ih =>
    obtain ⟨hsame, hsent⟩ := ih fun k hk => hwaits k (Nat.lt_succ_of_lt hk)
    obtain ⟨hstep, hnone⟩ :=
      @OnOffer.waits F f components _ _ _ _ _ _ _ h (hwaits clocks (Nat.lt_succ_self _))
    rw [← Nat.add_assoc, after_succ, sent_succ, hsame, hsent, hstep, hnone]
    exact ⟨rfl, List.append_nil _⟩

/-- The call has returned, or a fragment is on offer with the pixels that are left behind it. -/
def Left (f : Floats F) (vertices : Vertices F) (width height : Dword) (rest : List (Nat × Nat))
    (r : Rasterizer F) : Prop :=
  (r.pc = .start ∧ rest = []) ∨
    ∃ x y, r.OnOffer vertices width height x y ∧ x.toNat < width.toNat ∧ y.toNat < height.toNat ∧
      rest = (x.toNat, y.toNat) ::
        remaining (isCovered f vertices) width.toNat height.toNat (x.toNat + 1) y.toNat

theorem left_of_leads {r₀ : Rasterizer F} {scan : Scan} {rest : List (Nat × Nat)}
    (h : scan.Leads f vertices width height rest) :
    Left f vertices width height rest (r₀.rasterizeFrom vertices width height scan) := by
  cases scan with
  | hit x y =>
    obtain ⟨hx, hy, hrest⟩ := h
    exact .inr ⟨x, y, rasterizeFrom_onOffer r₀ x y, hx, hy, hrest⟩
  | finished => exact .inl ⟨rfl, h⟩
  | endless => exact h.elim

theorem not_start_of_onOffer {x y : BitVec 16}
    (h : r.OnOffer vertices width height x y) : r.pc ≠ .start := by
  obtain ⟨⟨triangle, hpc⟩, -⟩ := h
  rw [hpc]
  intro heq
  cases heq

/-- What is left is sent, pixel by pixel, and then the call returns. -/
theorem left_sent (hwidth : width.toNat < 2 ^ 16) (hheight : height.toNat < 2 ^ 16)
    (hfair : ∀ n, ∃ m, n ≤ m ∧ (inputs m).perFragmentReceiving = true)
    (rest : List (Nat × Nat)) : ∀ n,
      Left f vertices width height rest (after f components vertices width height inputs r n) →
      ∃ m, n ≤ m ∧ (after f components vertices width height inputs r m).pc = .start ∧
        (∀ k, n ≤ k → k < m → (after f components vertices width height inputs r k).pc ≠ .start) ∧
        sent f components vertices width height inputs r m =
          sent f components vertices width height inputs r n ++ rest := by
  induction rest with
  | nil =>
    intro n h
    obtain ⟨hpc, -⟩ | ⟨x, y, -, -, -, hrest⟩ := h
    · exact ⟨n, Nat.le_refl n, hpc, fun k hle hlt => absurd hlt (Nat.not_lt.mpr hle),
        (List.append_nil _).symm⟩
    · cases hrest
  | cons pixel rest ih =>
    intro n h
    obtain ⟨-, hrest⟩ | ⟨x, y, hoffer, hx, hy, hrest⟩ := h
    · cases hrest
    obtain ⟨hpixel, hrest⟩ := List.cons.inj hrest
    -- the first clock at which the fragment shader takes the fragment
    have hclock : ∃ clocks, (inputs (n + clocks)).perFragmentReceiving = true := by
      obtain ⟨m, hle, hm⟩ := hfair n
      exact ⟨m - n, by rwa [Nat.add_sub_cancel' hle]⟩
    let clocks := Nat.find hclock
    have htaken : (inputs (n + clocks)).perFragmentReceiving = true := Nat.find_spec hclock
    have hwaits : ∀ k < clocks, (inputs (n + k)).perFragmentReceiving = false :=
      fun k hk => Bool.eq_false_iff.mpr (Nat.find_min hclock hk)
    obtain ⟨hsame, hsent⟩ := onOffer_waits hoffer clocks hwaits
    obtain ⟨⟨r₀, hstep⟩, hsends⟩ := @OnOffer.taken F f components _ _ _ _ _ _ _ hoffer htaken
    have hnext := next_toNat hx hwidth
    have hleads := @nextHit_leads F f vertices width height hwidth hheight maxIterations (x + 1) y
      (by omega) hy (iterations_suffice hwidth hheight _ _)
    rw [hnext, ← hrest] at hleads
    have hleft : Left f vertices width height rest
        (after f components vertices width height inputs r (n + clocks + 1)) := by
      rw [after_succ, hsame, hstep]
      exact left_of_leads hleads
    obtain ⟨m, hle, hpc, hbefore, hrestSent⟩ := ih (n + clocks + 1) hleft
    refine ⟨m, by omega, hpc, fun k hk hkm => ?_, ?_⟩
    · by_cases hwaiting : k ≤ n + clocks
      · obtain ⟨hk', -⟩ := onOffer_waits hoffer (k - n) fun j hj => hwaits j (by omega)
        rw [Nat.add_sub_cancel' hk] at hk'
        rw [hk']
        exact not_start_of_onOffer hoffer
      · exact hbefore k (by omega) hkm
    · rw [hrestSent, sent_succ, hsame, hsends, hsent, hpixel, List.append_assoc]
      rfl

theorem sendsRowByRow_of_fits (hwidth : width.toNat < 2 ^ 16) (hheight : height.toNat < 2 ^ 16) :
    SendsRowByRow f components vertices width height := by
  intro r inputs hfair
  by_cases hpos : 0 < height.toNat
  · have hleads := @nextHit_leads F f vertices width height hwidth hheight maxIterations 0 0
      (Nat.zero_le _) hpos (iterations_suffice hwidth hheight _ _)
    have hstart : Left f vertices width height
        (remaining (isCovered f vertices) width.toNat height.toNat 0 0)
        (after f components vertices width height inputs r 0) := by
      show Left f vertices width height _ (rasterize f vertices width height r)
      unfold rasterize
      rw [if_pos hpos]
      exact left_of_leads hleads
    obtain ⟨n, -, hpc, hbefore, hsent⟩ := left_sent hwidth hheight hfair _ 0 hstart
    refine ⟨n, hpc, fun m hm => hbefore m (Nat.zero_le m) hm, ?_⟩
    rw [hsent]
    exact remaining_all hpos
  · refine ⟨0, ?_, fun m hm => absurd hm (Nat.not_lt_zero m), ?_⟩
    · show (rasterize f vertices width height r).pc = .start
      unfold rasterize
      rw [if_neg hpos]
    · rw [Nat.eq_zero_of_not_pos hpos]
      rfl

/-- A call that does not return: at work on a fragment, or in the loops for ever. -/
def Stuck (vertices : Vertices F) (width height : Dword) (r : Rasterizer F) : Prop :=
  r.pc = .endless ∨ ∃ x y, r.OnOffer vertices width height x y

theorem stuck_of_unfinished (r₀ : Rasterizer F) {scan : Scan} (h : scan ≠ .finished) :
    Stuck vertices width height (r₀.rasterizeFrom vertices width height scan) := by
  cases scan with
  | hit x y => exact .inr ⟨x, y, rasterizeFrom_onOffer r₀ x y⟩
  | finished => exact absurd rfl h
  | endless => exact .inl rfl

theorem stuck_step (hlarge : 2 ^ 16 ≤ width.toNat ∨ 2 ^ 16 ≤ height.toNat)
    (h : Stuck vertices width height r) (inputs : RasterizerInputs) :
    Stuck vertices width height (r.step f components inputs) := by
  obtain hpc | ⟨x, y, hoffer⟩ := h
  · unfold Rasterizer.step
    rw [hpc]
    exact .inl hpc
  · cases hreceiving : inputs.perFragmentReceiving with
    | false =>
      rw [(@OnOffer.waits F f components _ _ _ _ _ _ _ hoffer hreceiving).1]
      exact .inr ⟨x, y, hoffer⟩
    | true =>
      obtain ⟨⟨r₀, hstep⟩, -⟩ := @OnOffer.taken F f components _ _ _ _ _ _ _ hoffer hreceiving
      rw [hstep]
      exact stuck_of_unfinished r₀ (nextHit_unfinished hlarge _ _ _)

/-- With a bound that the counters do not reach, no call that has begun its loops returns. -/
theorem not_sendsRowByRow (hpos : 0 < height.toNat)
    (hlarge : 2 ^ 16 ≤ width.toNat ∨ 2 ^ 16 ≤ height.toNat) :
    ¬ SendsRowByRow f components vertices width height := by
  intro hsends
  obtain ⟨n, hpc, -⟩ := hsends new (fun _ => takingInputs) fun n => ⟨n, Nat.le_refl n, rfl⟩
  have hfirst : Stuck vertices width height (rasterize f vertices width height new) := by
    unfold rasterize
    rw [if_pos hpos]
    exact stuck_of_unfinished new (nextHit_unfinished hlarge _ _ _)
  have hstuck : Stuck vertices width height
      (after f components vertices width height (fun _ => takingInputs) new n) :=
    Clocked.run_always hfirst (fun n r h => stuck_step hlarge h takingInputs) n
  obtain hendless | ⟨x, y, hoffer⟩ := hstuck
  · rw [hpc] at hendless
    cases hendless
  · exact not_start_of_onOffer hoffer hpc

end

/-- **A call of `rasterize` returns and has sent the covered pixels row by row, each once,
    exactly when the framebuffer has no rows or fits into the 16-bit counters.** -/
theorem sendsRowByRow_iff (f : Floats F) (components : CustomShaderComponents)
    (vertices : Vertices F) (width height : Dword) :
    SendsRowByRow f components vertices width height ↔
      height = 0 ∨ (width.toNat < 2 ^ 16 ∧ height.toNat < 2 ^ 16) := by
  constructor
  · intro hsends
    by_cases hpos : 0 < height.toNat
    · refine .inr ?_
      by_contra hfits
      exact not_sendsRowByRow hpos (by omega) hsends
    · exact .inl (BitVec.eq_of_toNat_eq (Nat.eq_zero_of_not_pos hpos))
  · rintro (rfl | ⟨hwidth, hheight⟩)
    · intro r inputs hfair
      exact ⟨0, rfl, fun m hm => absurd hm (Nat.not_lt_zero m), rfl⟩
    · exact sendsRowByRow_of_fits hwidth hheight

/-- A framebuffer of one row with a pixel more than the counter has values. -/
theorem rasterize_wraps : ¬ SendsRowByRow rationalFloats ⟨0, 0, 0, 0⟩
    ⟨⟨0, 0, 0, 1, []⟩, ⟨4, 0, 0, 1, []⟩, ⟨0, 4, 0, 1, []⟩⟩ 65536 1 :=
  not_sendsRowByRow (by decide) (.inl (by decide))

end

end Rasterizer
end PicoGpu
