import PicoGpu.MemoryClients
import PicoGpu.Lib.Clocked

/- Commands without work. `RaiiBooleanSetter` reads its port when it is constructed and
   when it is destructed, and a port that is read shows the value from before the clock.
   So the destructor finds the port raised only if a `wait()` came after the constructor.
   The loops of `Blitter::main` and `PrimitiveAssembler::assemble` wait in every turn, and
   a command without turns goes from the constructor to the destructor in one clock. -/
namespace PicoGpu
open Clocked

/-- The fatal checks of the class. -/
def RaiiBooleanSetter.Fails (e : FatalError) : Prop :=
  construct true = .error e ∨ destruct false = .error e

namespace Blitter

/-- What the ports of the block show at a clock. -/
structure Surroundings where
  command : BlitterSignals
  inpCompleted : Bool
  inpData : MemoryDataType

def clock (env : Surroundings) (b : Blitter) : Blitter :=
  b.step env.command env.inpCompleted env.inpData

/-- The block after `n` clocks. -/
def after (surroundings : Nat → Surroundings) (userMemory : PointerType → Dword) : Nat → Blitter :=
  run (fun n => clock (surroundings n)) (new userMemory)

/-- Every access completes. -/
def Answered (surroundings : Nat → Surroundings) (userMemory : PointerType → Dword) : Prop :=
  ∀ n, (after surroundings userMemory n).awaiting = true →
    ∃ m ≥ n, (surroundings m).inpCompleted = true

/-- The guard never fails, and the block waits for a command again and again. -/
structure Harmless (surroundings : Nat → Surroundings) (userMemory : PointerType → Dword) :
    Prop where
  guarded : ∀ n e, (after surroundings userMemory n).pc = .aborted e →
    ¬ RaiiBooleanSetter.Fails e
  returns : ∀ n, ∃ m ≥ n, (after surroundings userMemory m).pc = .start ∧
    (after surroundings userMemory m).outBusy = false

def Nonempty (command : BlitterSignals) : Prop :=
  command.commandType ≠ .none → command.sizeInDwords ≠ 0

/-- The block takes no command without dwords. -/
def TakesWork (surroundings : Nat → Surroundings) (userMemory : PointerType → Dword) : Prop :=
  ∀ n, (after surroundings userMemory n).pc = .start → Nonempty (surroundings n).command

/-- The port is raised exactly during a command, and an access is one of the command. -/
def Sound (b : Blitter) : Prop :=
  match b.pc with
  | .start => b.outBusy = false
  | .accessing blit dwordIndex => b.outBusy = true ∧ dwordIndex < blit.sizeInDwords
  | .aborted _ => False

def dwordsLeft (b : Blitter) : Nat :=
  match b.pc with
  | .accessing blit dwordIndex => blit.sizeInDwords - dwordIndex
  | _ => 0

variable {b : Blitter} {surroundings : Nat → Surroundings} {userMemory : PointerType → Dword}

/-- The loop with a turn left, or behind a `wait()`. -/
theorem copy_sound {outBusy : Bool} {blit : Blit} {dwordIndex : Nat} (hbusy : b.outBusy = true)
    (hwork : dwordIndex < blit.sizeInDwords ∨ outBusy = true) :
    (b.copy outBusy blit dwordIndex).Sound ∧
      (b.copy outBusy blit dwordIndex).dwordsLeft ≤ blit.sizeInDwords - dwordIndex := by
  unfold copy
  split
  · next hlt => exact ⟨⟨hbusy, hlt⟩, Nat.le_refl _⟩
  · next hge =>
    have hraised : outBusy = true := hwork.resolve_left hge
    subst hraised
    exact ⟨rfl, Nat.zero_le _⟩

theorem step_completed {blit : Blit} {dwordIndex : Nat} (hpc : b.pc = .accessing blit dwordIndex)
    (hbusy : b.outBusy = true) (command : BlitterSignals) (inpData : MemoryDataType) :
    (b.step command true inpData).Sound ∧
      (b.step command true inpData).dwordsLeft ≤ blit.sizeInDwords - (dwordIndex + 1) := by
  unfold step
  rw [hpc]
  dsimp only
  rw [if_pos rfl]
  split
  · exact copy_sound hbusy (.inr hbusy)
  · exact copy_sound hbusy (.inr hbusy)

/-- The block stays at a dword until the access completes. -/
theorem step_pending {blit : Blit} {dwordIndex : Nat}
    (h : b.pc = .accessing blit dwordIndex ∧ b.outBusy = true) (command : BlitterSignals)
    (inpData : MemoryDataType) : (b.step command false inpData).pc = .accessing blit dwordIndex ∧
      (b.step command false inpData).outBusy = true := by
  unfold step
  rw [h.1]
  exact ⟨rfl, h.2⟩

theorem sound_step (h : b.Sound) {command : BlitterSignals}
    (hwork : b.pc = .start → Nonempty command) (inpCompleted : Bool) (inpData : MemoryDataType) :
    (b.step command inpCompleted inpData).Sound := by
  have hsound := h
  unfold Sound at h
  cases hpc : b.pc with
  | start =>
    rw [hpc] at h
    unfold step
    rw [hpc]
    dsimp only
    split
    · exact hsound
    · next hcommand =>
      have hturn : command.sizeInDwords ≠ 0 := hwork hpc hcommand
      have hlt : 0 < command.sizeInDwords.toNat := by
        rw [Nat.pos_iff_ne_zero]
        intro hzero
        exact hturn (BitVec.eq_of_toNat_eq hzero)
      rw [h]
      exact (copy_sound rfl (.inl hlt)).1
  | accessing blit dwordIndex =>
    rw [hpc] at h
    cases inpCompleted with
    | true => exact (step_completed hpc h.1 command inpData).1
    | false =>
      have hstay := step_pending ⟨hpc, h.1⟩ command inpData
      unfold Sound
      rw [hstay.1]
      exact ⟨hstay.2, h.2⟩
  | aborted e =>
    rw [hpc] at h
    exact h.elim

theorem after_sound (hwork : TakesWork surroundings userMemory) (n : Nat) :
    (after surroundings userMemory n).Sound := by
  have hinit : (new userMemory).Sound := rfl
  have hstep : ∀ n (b : Blitter), b.Sound →
      (b.pc = .start → Nonempty (surroundings n).command) → (clock (surroundings n) b).Sound := by
    intro n b hb hok
    exact sound_step hb hok _ _
  exact run_inv hinit hstep n fun m _ => hwork m

theorem after_tracked (n : Nat) : (after surroundings userMemory n).Tracked :=
  run_always (tracked_new userMemory) (fun _ _ hb => (step_spec hb _ _ _).1) n

/-- A command without dwords is over in the clock in which it starts. -/
theorem step_empty (h : b.Tracked) (hpc : b.pc = .start) {command : BlitterSignals}
    (hcommand : command.commandType ≠ .none) (hsize : command.sizeInDwords = 0)
    (inpCompleted : Bool) (inpData : MemoryDataType) :
    (b.step command inpCompleted inpData).pc = .aborted "Output port should be true" := by
  unfold Tracked at h
  rw [hpc] at h
  unfold step
  rw [hpc]
  dsimp only
  rw [if_neg hcommand, h.1, hsize]
  rfl

theorem harmless_of_work (hanswered : Answered surroundings userMemory)
    (hwork : TakesWork surroundings userMemory) : Harmless surroundings userMemory where
  guarded := by
    intro n e hpc
    have hsound := after_sound hwork n
    rw [Sound, hpc] at hsound
    exact hsound.elim
  returns := by
    refine @run_descends _ (fun n => clock (surroundings n)) (new userMemory)
      (fun b => b.pc = .start ∧ b.outBusy = false) dwordsLeft ?_
    intro n hgoal
    have hsound := after_sound hwork n
    unfold Sound at hsound
    cases hpc : (after surroundings userMemory n).pc with
    | start =>
      rw [hpc] at hsound
      exact absurd ⟨hpc, hsound⟩ hgoal
    | aborted e =>
      rw [hpc] at hsound
      exact hsound.elim
    | accessing blit dwordIndex =>
      rw [hpc] at hsound
      obtain ⟨hbusy, hlt⟩ := hsound
      obtain ⟨m, hm, hcompleted⟩ := hanswered n (by rw [awaiting, hpc])
      obtain ⟨d, rfl⟩ := Nat.exists_eq_add_of_le hm
      have hstay : ∀ n (b : Blitter), (b.pc = .accessing blit dwordIndex ∧ b.outBusy = true) →
          ¬ (surroundings n).inpCompleted = true →
          (clock (surroundings n) b).pc = .accessing blit dwordIndex ∧
            (clock (surroundings n) b).outBusy = true := by
        intro n b hb hpending
        rw [clock, Bool.eq_false_of_not_eq_true hpending]
        exact step_pending hb _ _
      obtain ⟨k, hk, hwaits, hserved⟩ := run_waits hstay d n ⟨hpc, hbusy⟩ hcompleted
      have hwaits' : (after surroundings userMemory k).pc = .accessing blit dwordIndex ∧
          (after surroundings userMemory k).outBusy = true := hwaits
      have hstep := (step_completed hwaits'.1 hwaits'.2 (surroundings k).command
        (surroundings k).inpData).2
      refine ⟨k + 1, by omega, ?_⟩
      have hrank : dwordsLeft (after surroundings userMemory n) =
          blit.sizeInDwords - dwordIndex := by
        rw [dwordsLeft, hpc]
      rw [← hserved] at hstep
      show dwordsLeft (clock (surroundings k) (after surroundings userMemory k)) <
        dwordsLeft (after surroundings userMemory n)
      rw [hrank, clock]
      omega

theorem harmless_iff (hanswered : Answered surroundings userMemory) :
    Harmless surroundings userMemory ↔ TakesWork surroundings userMemory := by
  refine ⟨?_, harmless_of_work hanswered⟩
  intro h n hpc hcommand hsize
  exact h.guarded (n + 1) _ (step_empty (after_tracked n) hpc hcommand hsize _ _) (.inr rfl)

end Blitter

namespace PrimitiveAssembler

/-- What the ports of the block show at a clock. -/
structure Surroundings where
  pins : PrimitiveAssemblerPins
  inpEnable : Bool
  inpCompleted : Bool
  inpData : MemoryDataType
  inpReceiving : Bool

def clock (env : Surroundings) (p : PrimitiveAssembler) : PrimitiveAssembler :=
  p.step env.pins env.inpEnable env.inpCompleted env.inpData env.inpReceiving

/-- The block after `n` clocks. -/
def after (surroundings : Nat → Surroundings) : Nat → PrimitiveAssembler :=
  run (fun n => clock (surroundings n)) new

/-- Every access completes, and every triangle is taken. -/
structure Answered (surroundings : Nat → Surroundings) : Prop where
  completed : ∀ n, (after surroundings n).awaiting = true →
    ∃ m ≥ n, (surroundings m).inpCompleted = true
  received : ∀ n, (after surroundings n).nextBlock.outSending = true →
    ∃ m ≥ n, (surroundings m).inpReceiving = true

/-- The guard never fails, and the block waits for a draw again and again. -/
structure Harmless (surroundings : Nat → Surroundings) : Prop where
  guarded : ∀ n e, (after surroundings n).pc = .aborted e → ¬ RaiiBooleanSetter.Fails e
  returns : ∀ n, ∃ m ≥ n, (after surroundings m).pc = .start ∧
    (after surroundings m).outBusy = false

/-- A draw of a triangle, of vertices that have components. -/
structure Nonempty (pins : PrimitiveAssemblerPins) : Prop where
  vertices : verticesInPrimitive ≤ pins.inpVerticesCount.toNat
  components : pins.inpCustomInputComponents.registersCount ≠ 0

/-- The block takes no draw without a triangle or without components. -/
def TakesWork (surroundings : Nat → Surroundings) : Prop :=
  ∀ n, (after surroundings n).pc = .start → (surroundings n).inpEnable = true →
    Nonempty (surroundings n).pins

/-- A call that sends a triangle has not sent all its packages. -/
def Sends (readVertices : List Dword) : SendCall → Prop
  | .acknowledge _ _ => True
  | .package _ packagesSent => packagesSent < (sendArgs readVertices).packagesCount

/-- The port is raised exactly during a draw, and everything between is about a triangle
    of the draw. -/
def Sound (p : PrimitiveAssembler) : Prop :=
  match p.pc with
  | .start => p.outBusy = false
  | .betweenTriangles draw triangleIndex =>
    p.outBusy = true ∧ 0 < draw.componentsToTransfer ∧ triangleIndex < draw.primitiveCount
  | .fetching draw triangleIndex readVertices =>
    p.outBusy = true ∧ triangleIndex < draw.primitiveCount ∧
      readVertices.length < draw.componentsToTransfer
  | .sending draw triangleIndex readVertices call =>
    p.outBusy = true ∧ triangleIndex < draw.primitiveCount ∧
      readVertices.length = draw.componentsToTransfer ∧ 0 < draw.componentsToTransfer ∧
      Sends readVertices call
  | .aborted _ => False

/-- The block is on a draw and is not kept waiting by the memory or the next block. -/
def Served (env : Surroundings) : PrimitiveAssemblerPc → Prop
  | .start | .aborted _ => False
  | .fetching _ _ _ => env.inpCompleted = true
  | .sending _ _ _ (.acknowledge _ _) => env.inpReceiving = true
  | .betweenTriangles _ _ | .sending _ _ _ (.package _ _) => True

/-! ### The work left -/

def packagesLeft (readVertices : List Dword) : SendCall → Nat
  | .acknowledge _ _ => (sendArgs readVertices).packagesCount + 1
  | .package _ packagesSent => (sendArgs readVertices).packagesCount - packagesSent

def Draw.packages (draw : Draw) : Nat := packagesCount draw.componentsToTransfer 9

def Draw.triangleWork (draw : Draw) : Nat := draw.componentsToTransfer + draw.packages + 3

/-- The work on triangle `triangleIndex` and those behind it. -/
def Draw.workFrom (draw : Draw) (triangleIndex : Nat) : Nat :=
  (draw.primitiveCount - triangleIndex) * draw.triangleWork

def workLeft (p : PrimitiveAssembler) : Nat :=
  match p.pc with
  | .betweenTriangles draw triangleIndex => draw.workFrom triangleIndex
  | .fetching draw triangleIndex readVertices =>
    draw.workFrom (triangleIndex + 1) + (draw.componentsToTransfer - readVertices.length) +
      draw.packages + 2
  | .sending draw triangleIndex readVertices call =>
    draw.workFrom (triangleIndex + 1) + packagesLeft readVertices call
  | .start | .aborted _ => 0

theorem Draw.workFrom_succ {draw : Draw} {triangleIndex : Nat}
    (h : triangleIndex < draw.primitiveCount) : draw.workFrom triangleIndex =
      draw.workFrom (triangleIndex + 1) + draw.componentsToTransfer + draw.packages + 3 := by
  have hleft : draw.primitiveCount - triangleIndex =
      draw.primitiveCount - (triangleIndex + 1) + 1 := by omega
  rw [workFrom, workFrom, hleft, Nat.succ_mul, triangleWork]
  omega

variable {p : PrimitiveAssembler} {surroundings : Nat → Surroundings}

/-- The loop over the components sends only what it has filled. -/
theorem fetchComponents_sound {draw : Draw} {triangleIndex : Nat} {readVertices : List Dword}
    (hbusy : p.outBusy = true) (htriangle : triangleIndex < draw.primitiveCount)
    (hcomponents : 0 < draw.componentsToTransfer)
    (hread : readVertices.length ≤ draw.componentsToTransfer) :
    (p.fetchComponents draw triangleIndex readVertices).Sound ∧
      (p.fetchComponents draw triangleIndex readVertices).workLeft ≤
        draw.workFrom (triangleIndex + 1) + (draw.componentsToTransfer - readVertices.length) +
          draw.packages + 2 := by
  unfold fetchComponents
  dsimp only
  split
  · next hlt => exact ⟨⟨hbusy, htriangle, hlt⟩, Nat.le_refl _⟩
  · next hge =>
    have hlength : readVertices.length = draw.componentsToTransfer := by omega
    have hsend : sendArrayImpl (sendArgs readVertices) p.nextBlock =
        .ok (.acknowledge ((sendArgs readVertices).packageEnd 0) 1,
          { outSending := true
            outDataPorts := (sendArgs readVertices).writePackage 0 p.nextBlock.outDataPorts }) := by
      have hcount : (sendArgs readVertices).dataToSendCount ≠ 0 := by
        show readVertices.length ≠ 0
        omega
      rw [sendArrayImpl, if_neg hcount, if_neg (by show ¬ 9 = 0; decide)]
      rfl
    rw [hsend]
    refine ⟨⟨hbusy, htriangle, hlength, hcomponents, trivial⟩, ?_⟩
    show draw.workFrom (triangleIndex + 1) + (packagesCount readVertices.length 9 + 1) ≤ _
    rw [hlength, Draw.packages]
    omega

/-- The loop over the triangles with a turn left, or behind a `wait()`. -/
theorem assembleTriangles_sound {outBusy : Bool} {draw : Draw} {triangleIndex : Nat}
    (hbusy : p.outBusy = true) (hcomponents : 0 < draw.componentsToTransfer)
    (hwork : triangleIndex < draw.primitiveCount ∨ outBusy = true) :
    (p.assembleTriangles outBusy draw triangleIndex).Sound ∧
      (p.assembleTriangles outBusy draw triangleIndex).workLeft ≤
        draw.workFrom triangleIndex := by
  unfold assembleTriangles
  split
  · next hlt =>
    split
    · exact ⟨⟨hbusy, hcomponents, hlt⟩, Nat.le_refl _⟩
    · obtain ⟨hsound, hleft⟩ :=
        @fetchComponents_sound p draw triangleIndex [] hbusy hlt hcomponents (Nat.zero_le _)
      have hsucc := Draw.workFrom_succ hlt
      rw [List.length_nil] at hleft
      exact ⟨hsound, by omega⟩
  · next hge =>
    have hraised : outBusy = true := hwork.resolve_left hge
    subst hraised
    exact ⟨rfl, Nat.zero_le _⟩

theorem sendPackages_left {readVertices : List Dword} {dataSent packagesSent : Nat}
    {ports ports' : SendPorts Dword} {call : SendCall}
    (h : sendPackages (sendArgs readVertices) dataSent packagesSent ports = (some call, ports')) :
    Sends readVertices call ∧
      packagesLeft readVertices call = (sendArgs readVertices).packagesCount - packagesSent := by
  unfold sendPackages at h
  split at h
  · next hlt =>
    cases h
    exact ⟨hlt, rfl⟩
  · cases h

/-- A call that is served sends a package less, or has been on its last one. -/
theorem resume_left {readVertices : List Dword} {call call' : SendCall} {inpReceiving : Bool}
    {ports ports' : SendPorts Dword} (hsends : Sends readVertices call)
    (hserved : ∀ dataSent packagesSent, call = .acknowledge dataSent packagesSent →
      inpReceiving = true)
    (h : call.resume (sendArgs readVertices) inpReceiving ports = (some call', ports')) :
    Sends readVertices call' ∧ packagesLeft readVertices call' < packagesLeft readVertices call := by
  cases call with
  | acknowledge dataSent packagesSent =>
    rw [SendCall.resume, hserved _ _ rfl, if_pos rfl] at h
    obtain ⟨hsends', hleft⟩ := sendPackages_left h
    refine ⟨hsends', ?_⟩
    rw [hleft, packagesLeft]
    omega
  | package dataSent packagesSent =>
    obtain ⟨hsends', hleft⟩ := sendPackages_left h
    have hlt : packagesSent < (sendArgs readVertices).packagesCount := hsends
    refine ⟨hsends', ?_⟩
    rw [hleft, packagesLeft]
    omega

theorem packagesLeft_pos {readVertices : List Dword} {call : SendCall}
    (hsends : Sends readVertices call) : 0 < packagesLeft readVertices call := by
  cases call with
  | acknowledge dataSent packagesSent => exact Nat.succ_pos _
  | package dataSent packagesSent => exact Nat.sub_pos_of_lt hsends

/-! ### Clocks -/

section
variable {env : Surroundings}

theorem clock_served (h : p.Sound) (hserved : Served env p.pc) :
    (clock env p).Sound ∧ (clock env p).workLeft < p.workLeft := by
  unfold Sound at h
  unfold clock step
  cases hpc : p.pc with
  | start | aborted e =>
    rw [hpc] at hserved
    exact hserved.elim
  | betweenTriangles draw triangleIndex =>
    rw [hpc] at h
    obtain ⟨hbusy, hcomponents, htriangle⟩ := h
    obtain ⟨hsound, hleft⟩ :=
      @fetchComponents_sound p draw triangleIndex [] hbusy htriangle hcomponents (Nat.zero_le _)
    have hsucc := Draw.workFrom_succ htriangle
    rw [List.length_nil] at hleft
    have hrank : p.workLeft = draw.workFrom triangleIndex := by rw [workLeft, hpc]
    exact ⟨hsound, Nat.lt_of_le_of_lt hleft (by omega)⟩
  | fetching draw triangleIndex readVertices =>
    rw [hpc] at h hserved
    obtain ⟨hbusy, htriangle, hread⟩ := h
    have hlength : (readVertices ++ [env.inpData]).length = readVertices.length + 1 :=
      List.length_append
    obtain ⟨hsound, hleft⟩ := @fetchComponents_sound { p with memory := .low } draw triangleIndex
      (readVertices ++ [env.inpData]) hbusy htriangle (by omega) (by omega)
    have hcompleted : env.inpCompleted = true := hserved
    have hrank : p.workLeft = draw.workFrom (triangleIndex + 1) +
        (draw.componentsToTransfer - readVertices.length) + draw.packages + 2 := by
      rw [workLeft, hpc]
    dsimp only
    rw [if_pos hcompleted]
    exact ⟨hsound, Nat.lt_of_le_of_lt hleft (by omega)⟩
  | sending draw triangleIndex readVertices call =>
    rw [hpc] at h hserved
    obtain ⟨hbusy, htriangle, hlength, hcomponents, hsends⟩ := h
    have hrank : p.workLeft =
        draw.workFrom (triangleIndex + 1) + packagesLeft readVertices call := by
      rw [workLeft, hpc]
    rw [hrank]
    dsimp only
    split
    · next call' ports hresume =>
      have hreceiving : ∀ dataSent packagesSent, call = .acknowledge dataSent packagesSent →
          env.inpReceiving = true := by
        rintro dataSent packagesSent rfl
        exact hserved
      obtain ⟨hsends', hlt⟩ := resume_left hsends hreceiving hresume
      exact ⟨⟨hbusy, htriangle, hlength, hcomponents, hsends'⟩, Nat.add_lt_add_left hlt _⟩
    · next ports hresume =>
      obtain ⟨hsound, hleft⟩ := @assembleTriangles_sound { p with nextBlock := ports } p.outBusy
        draw (triangleIndex + 1) hbusy hcomponents (.inr hbusy)
      have hpos := packagesLeft_pos hsends
      exact ⟨hsound, Nat.lt_of_le_of_lt hleft (by omega)⟩

/-- A block on a draw that is kept waiting stays where it is. -/
theorem clock_kept (hstart : p.pc ≠ .start) (hkept : ¬ Served env p.pc) :
    (clock env p).pc = p.pc ∧ (clock env p).outBusy = p.outBusy := by
  unfold clock step
  cases hpc : p.pc with
  | start => exact absurd hpc hstart
  | betweenTriangles draw triangleIndex =>
    rw [hpc] at hkept
    exact absurd trivial hkept
  | fetching draw triangleIndex readVertices =>
    rw [hpc] at hkept
    have hpending : ¬ env.inpCompleted = true := hkept
    dsimp only
    rw [if_neg hpending]
    exact ⟨rfl, rfl⟩
  | sending draw triangleIndex readVertices call =>
    rw [hpc] at hkept
    cases call with
    | acknowledge dataSent packagesSent =>
      have hsilent : ¬ env.inpReceiving = true := hkept
      dsimp only [SendCall.resume]
      rw [if_neg hsilent]
      exact ⟨rfl, rfl⟩
    | package dataSent packagesSent => exact absurd trivial hkept
  | aborted e => exact ⟨hpc, rfl⟩

theorem componentsToTransfer_eq (pins : PrimitiveAssemblerPins) : pins.componentsToTransfer =
    .ok (verticesInPrimitive * pins.inpCustomInputComponents.sizes.sum) := by
  rw [PrimitiveAssemblerPins.componentsToTransfer,
    CustomShaderComponents.getTotalCustomComponents_eq]
  rfl

theorem sizes_sum_pos_iff (c : CustomShaderComponents) :
    0 < c.sizes.sum ↔ c.registersCount ≠ 0 := by
  rw [CustomShaderComponents.sizes, sizesOf]
  constructor
  · intro hpos hzero
    rw [hzero] at hpos
    exact absurd hpos (Nat.lt_irrefl 0)
  · intro hne
    have hcount : c.registersCount.toNat ≠ 0 := fun hzero => hne (BitVec.eq_of_toNat_eq hzero)
    obtain ⟨k, hk⟩ := Nat.exists_eq_succ_of_ne_zero hcount
    rw [hk, List.take_succ_cons, List.sum_cons, nonZeroCountToInt]
    omega

theorem clock_start (h : p.Sound) (hpc : p.pc = .start)
    (hwork : env.inpEnable = true → Nonempty env.pins) : (clock env p).Sound := by
  have hsound := h
  unfold Sound at h
  rw [hpc] at h
  unfold clock step
  rw [hpc]
  dsimp only
  split
  · next henable =>
    have hnonempty := hwork henable
    have hcount : 0 < env.pins.inpVerticesCount.toNat / verticesInPrimitive :=
      Nat.div_pos hnonempty.vertices (by decide)
    have hcomponents : 0 < verticesInPrimitive * env.pins.inpCustomInputComponents.sizes.sum :=
      Nat.mul_pos (by decide) ((sizes_sum_pos_iff _).mpr hnonempty.components)
    rw [h, componentsToTransfer_eq]
    exact (@assembleTriangles_sound { p with outBusy := true } false _ 0 rfl hcomponents
      (.inl hcount)).1
  · exact hsound

theorem clock_sound (h : p.Sound)
    (hwork : p.pc = .start → env.inpEnable = true → Nonempty env.pins) : (clock env p).Sound := by
  by_cases hpc : p.pc = .start
  · exact clock_start h hpc (hwork hpc)
  · by_cases hserved : Served env p.pc
    · exact (clock_served h hserved).1
    · obtain ⟨hstay, hbusy⟩ := clock_kept hpc hserved
      unfold Sound at h ⊢
      rw [hstay, hbusy]
      exact h

end

theorem after_sound (hwork : TakesWork surroundings) (n : Nat) : (after surroundings n).Sound := by
  have hinit : new.Sound := rfl
  have hstep : ∀ n (p : PrimitiveAssembler), p.Sound →
      (p.pc = .start → (surroundings n).inpEnable = true → Nonempty (surroundings n).pins) →
      (clock (surroundings n) p).Sound := by
    intro n p hp hok
    exact clock_sound hp hok
  exact run_inv hinit hstep n fun m _ => hwork m

theorem after_tracked (n : Nat) : (after surroundings n).Tracked :=
  run_always tracked_new (fun _ _ hp => (step_spec hp _ _ _ _ _).1) n

theorem after_aborted {n m : Nat} (h : (after surroundings n).Aborted) (hm : n ≤ m) :
    (after surroundings m).Aborted := by
  induction hm with
  | refl => exact h
  | step _ ih => exact ih.step _ _ _ _ _

/-- The surroundings serve a block on a draw. -/
theorem Answered.served (hanswered : Answered surroundings) {n : Nat}
    (hsound : (after surroundings n).Sound) (hstart : (after surroundings n).pc ≠ .start) :
    ∃ m ≥ n, Served (surroundings m) (after surroundings n).pc := by
  unfold Sound at hsound
  cases hpc : (after surroundings n).pc with
  | start => exact absurd hpc hstart
  | betweenTriangles draw triangleIndex => exact ⟨n, Nat.le_refl _, trivial⟩
  | fetching draw triangleIndex readVertices =>
    exact hanswered.completed n (by rw [awaiting, hpc])
  | sending draw triangleIndex readVertices call =>
    cases call with
    | acknowledge dataSent packagesSent =>
      have htracked := @after_tracked surroundings n
      rw [Tracked, hpc] at htracked
      exact hanswered.received n htracked.2.2
    | package dataSent packagesSent => exact ⟨n, Nat.le_refl _, trivial⟩
  | aborted e =>
    rw [hpc] at hsound
    exact hsound.elim

theorem harmless_of_work (hanswered : Answered surroundings) (hwork : TakesWork surroundings) :
    Harmless surroundings where
  guarded := by
    intro n e hpc
    have hsound := after_sound hwork n
    rw [Sound, hpc] at hsound
    exact hsound.elim
  returns := by
    refine @run_descends _ (fun n => clock (surroundings n)) new
      (fun p => p.pc = .start ∧ p.outBusy = false) workLeft ?_
    intro n hgoal
    have hsound := after_sound hwork n
    have hstart : (after surroundings n).pc ≠ .start := by
      intro hpc
      rw [Sound, hpc] at hsound
      exact hgoal ⟨hpc, hsound⟩
    obtain ⟨m, hm, hserved⟩ := hanswered.served hsound hstart
    obtain ⟨d, rfl⟩ := Nat.exists_eq_add_of_le hm
    -- the block stays where it is until it is served
    have hstay : ∀ k (p : PrimitiveAssembler), p.pc = (after surroundings n).pc →
        ¬ Served (surroundings k) (after surroundings n).pc →
        (clock (surroundings k) p).pc = (after surroundings n).pc := by
      intro k p hp hkept
      rw [← hp] at hstart hkept ⊢
      exact (clock_kept hstart hkept).1
    obtain ⟨k, hk, hwaits, hnow⟩ := run_waits hstay d n rfl hserved
    have hwaits' : (after surroundings k).pc = (after surroundings n).pc := hwaits
    rw [← hwaits'] at hnow
    have hlt := (clock_served (after_sound hwork k) hnow).2
    have hrank : (after surroundings k).workLeft = (after surroundings n).workLeft := by
      rw [workLeft, hwaits', workLeft]
    refine ⟨k + 1, by omega, ?_⟩
    rw [hrank] at hlt
    exact hlt

/-- A draw without a triangle is over in the clock in which it starts. -/
theorem clock_no_triangle {env : Surroundings} (h : p.Tracked) (hpc : p.pc = .start)
    (henable : env.inpEnable = true)
    (hvertices : env.pins.inpVerticesCount.toNat < verticesInPrimitive) :
    (clock env p).pc = .aborted "Output port should be true" := by
  rw [Tracked, hpc] at h
  unfold clock step
  rw [hpc]
  dsimp only
  rw [if_pos henable, h.1, componentsToTransfer_eq]
  dsimp only [RaiiBooleanSetter.construct]
  rw [Nat.div_eq_of_lt hvertices]
  rfl

/-- A triangle without components cannot be sent. -/
theorem clock_no_components {env : Surroundings} (h : p.Tracked) (hpc : p.pc = .start)
    (henable : env.inpEnable = true)
    (hcomponents : env.pins.inpCustomInputComponents.registersCount = 0) :
    (clock env p).Aborted := by
  have hsum : env.pins.inpCustomInputComponents.sizes.sum = 0 := by
    by_contra hne
    exact (sizes_sum_pos_iff _).mp (Nat.pos_of_ne_zero hne) hcomponents
  by_cases hvertices : env.pins.inpVerticesCount.toNat < verticesInPrimitive
  · exact ⟨_, clock_no_triangle h hpc henable hvertices⟩
  · have hcount : 0 < env.pins.inpVerticesCount.toNat / verticesInPrimitive :=
      Nat.div_pos (Nat.le_of_not_lt hvertices) (by decide)
    rw [Tracked, hpc] at h
    unfold clock step
    rw [hpc]
    dsimp only
    rw [if_pos henable, h.1, componentsToTransfer_eq, hsum]
    dsimp only [RaiiBooleanSetter.construct, assembleTriangles]
    rw [if_neg (by decide)]
    dsimp only
    rw [if_pos hcount]
    exact ⟨_, rfl⟩

theorem harmless_iff (hanswered : Answered surroundings) :
    Harmless surroundings ↔ TakesWork surroundings := by
  refine ⟨?_, harmless_of_work hanswered⟩
  intro h n hpc henable
  constructor
  · by_contra hvertices
    exact h.guarded (n + 1) _ (clock_no_triangle (after_tracked n) hpc henable
      (Nat.lt_of_not_le hvertices)) (.inr rfl)
  · intro hcomponents
    have haborted : (after surroundings (n + 1)).Aborted :=
      clock_no_components (after_tracked n) hpc henable hcomponents
    obtain ⟨m, hm, hstart, -⟩ := h.returns (n + 1)
    obtain ⟨e, hpc'⟩ := after_aborted haborted hm
    rw [hstart] at hpc'
    cases hpc'

end PrimitiveAssembler

/-- **Which work is harmless.** With a memory that completes accesses and a next block that
    takes triangles, the guards hold and the blocks return to waiting exactly if every blit
    that is taken has a dword, and every draw a triangle and components. -/
theorem emptyWork_harmless_iff {blits : Nat → Blitter.Surroundings}
    {userMemory : PointerType → Dword} (hblits : Blitter.Answered blits userMemory)
    {draws : Nat → PrimitiveAssembler.Surroundings} (hdraws : PrimitiveAssembler.Answered draws) :
    (Blitter.Harmless blits userMemory ↔ Blitter.TakesWork blits userMemory) ∧
      (PrimitiveAssembler.Harmless draws ↔ PrimitiveAssembler.TakesWork draws) :=
  ⟨Blitter.harmless_iff hblits, PrimitiveAssembler.harmless_iff hdraws⟩

/-- A blit of `sizeInDwords` dwords at every clock, before a memory that answers at once. -/
def blitsOf (sizeInDwords : BitVec 16) (_ : Nat) : Blitter.Surroundings where
  command := ⟨.copyToMem, 0, 0, sizeInDwords⟩
  inpCompleted := true
  inpData := 0

/-- A draw of `verticesCount` vertices at every clock, with surroundings that answer at once. -/
def drawsOf (verticesCount : BitVec 8) (_ : Nat) : PrimitiveAssembler.Surroundings where
  pins := ⟨0, verticesCount, ⟨1, 3, 3, 3⟩⟩
  inpEnable := true
  inpCompleted := true
  inpData := 0
  inpReceiving := true

theorem blitsOf_answered (sizeInDwords : BitVec 16) (userMemory : PointerType → Dword) :
    Blitter.Answered (blitsOf sizeInDwords) userMemory :=
  fun n _ => ⟨n, Nat.le_refl _, rfl⟩

theorem drawsOf_answered (verticesCount : BitVec 8) :
    PrimitiveAssembler.Answered (drawsOf verticesCount) :=
  ⟨fun n _ => ⟨n, Nat.le_refl _, rfl⟩, fun n _ => ⟨n, Nat.le_refl _, rfl⟩⟩

theorem smallest_work_harmless : Blitter.Harmless (blitsOf 1) (fun _ => 0) ∧
    PrimitiveAssembler.Harmless (drawsOf 3) := by
  obtain ⟨hblits, hdraws⟩ :=
    emptyWork_harmless_iff (blitsOf_answered 1 fun _ => 0) (drawsOf_answered 3)
  have hsize : (1 : BitVec 16) ≠ 0 := by decide
  have hcount : (1 : BitVec 2) ≠ 0 := by decide
  exact ⟨hblits.mpr fun _ _ _ => hsize, hdraws.mpr fun _ _ _ => ⟨Nat.le_refl 3, hcount⟩⟩

/-- A blit of no dwords and a draw of two vertices. -/
theorem emptyWork_aborts :
    (Blitter.Answered (blitsOf 0) (fun _ => 0) ∧
      (Blitter.after (blitsOf 0) (fun _ => 0) 1).pc = .aborted "Output port should be true" ∧
      ¬ Blitter.Harmless (blitsOf 0) fun _ => 0) ∧
    (PrimitiveAssembler.Answered (drawsOf 2) ∧
      (PrimitiveAssembler.after (drawsOf 2) 1).pc = .aborted "Output port should be true" ∧
      ¬ PrimitiveAssembler.Harmless (drawsOf 2)) :=
  ⟨⟨blitsOf_answered 0 _, rfl, fun h => h.guarded 1 _ rfl (.inr rfl)⟩,
    ⟨drawsOf_answered 2, rfl, fun h => h.guarded 1 _ rfl (.inr rfl)⟩⟩

end PicoGpu
