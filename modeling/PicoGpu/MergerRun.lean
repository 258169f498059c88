import PicoGpu.FragmentLink
import PicoGpu.SoleWriter
import PicoGpu.ZBuffer

/- The output merger at work: a process sends it fragments with `Transfer::send`, and
   its memory accesses go through one port of the memory controller, behind which the
   other clients only read. Its own part is sequential (`MergerAt`): the operations it has
   issued are those of `mergeFragment` for the fragments it has received, up to the one it
   is waiting for. The controller and the memory give the answers of the atomic memory,
   which is changed by the output merger alone. -/
namespace PicoGpu
open Clocked Atomic

/-! ## The operations of the output merger -/

namespace OutputMerger
variable {F : Type} {f : Floats F} {pins : OutputMergerPins}

section
variable (f pins) (initial : MemoryAddressType → MemoryDataType)

/-- The memory after some fragments. -/
def merged (received : List ShadedFragment) : MemoryAddressType → MemoryDataType :=
  received.foldl (mergeFragment f pins) initial

/-- Where the block is, when it has received these fragments and issued these operations. -/
def MergerAt (received : List ShadedFragment) (issued : List MemoryOperation) (m : OutputMerger) :
    Prop :=
  let memory := stateAfter atomicMemory initial issued
  match m.pc with
  | .receiving call => call.AtHandshake ∧ m.previousBlock.outReceiving = true ∧
      memory = merged f pins initial received
  | .readingDepth fragment depthAddress => m.previousBlock.outReceiving = false ∧
      pins.depthEnable = true ∧ depthAddress = depthDword pins fragment.x fragment.y ∧
      (∃ before, received = before ++ [fragment] ∧ memory = merged f pins initial before) ∧
      ∃ earlier, issued = earlier ++ [.read depthAddress]
  | .writingDepth fragment => m.previousBlock.outReceiving = false ∧
      Function.update memory (colorDword pins fragment.x fragment.y) fragment.color =
        merged f pins initial received ∧ fragment ∈ received
  | .writingColor => m.previousBlock.outReceiving = false ∧
      memory = merged f pins initial received
  | .aborted _ => False

end

variable {initial : MemoryAddressType → MemoryDataType} {received : List ShadedFragment}
  {issued : List MemoryOperation} {m : OutputMerger} {fragment : ShadedFragment}

theorem merged_concat (received : List ShadedFragment) (fragment : ShadedFragment) :
    merged f pins initial (received ++ [fragment]) =
      mergeFragment f pins (merged f pins initial received) fragment := by
  unfold merged
  rw [List.foldl_append, List.foldl_cons, List.foldl_nil]

theorem mergerAt_receive (hlow : m.memory.enable = false)
    (hmemory : stateAfter atomicMemory initial issued = merged f pins initial received) :
    MergerAt f pins initial received (issued ++ m.receive.memory.issues) m.receive := by
  have hnone : m.receive.memory.issues = [] := issues_low hlow
  rw [hnone, List.append_nil]
  exact ⟨trivial, rfl, hmemory⟩

theorem mergerAt_writeColor (hreceiving : m.previousBlock.outReceiving = false)
    (hmemory : Function.update (stateAfter atomicMemory initial issued)
      (colorDword pins fragment.x fragment.y) fragment.color = merged f pins initial received) :
    MergerAt f pins initial received (issued ++ (m.writeColor pins fragment).memory.issues)
      (m.writeColor pins fragment) := by
  refine ⟨hreceiving, ?_⟩
  show stateAfter atomicMemory initial
    (issued ++ [.write (colorDword pins fragment.x fragment.y) fragment.color]) = _
  rw [stateAfter_concat]
  exact hmemory

/-- A fragment has been received. -/
theorem mergerAt_merge (hreceiving : m.previousBlock.outReceiving = false)
    (hmemory : stateAfter atomicMemory initial issued = merged f pins initial received) :
    MergerAt f pins initial (received ++ [fragment]) (issued ++ (m.merge pins fragment).memory.issues)
      (m.merge pins fragment) := by
  unfold merge
  split
  next henable =>
    refine ⟨hreceiving, henable, rfl, ⟨received, rfl, ?_⟩, issued, rfl⟩
    show stateAfter atomicMemory initial
      (issued ++ [.read (depthDword pins fragment.x fragment.y)]) = _
    rw [stateAfter_concat, hmemory]
    rfl
  next henable =>
    apply mergerAt_writeColor hreceiving
    rw [hmemory, merged_concat, mergeFragment, if_neg henable]

/-- Its depth has been read. -/
theorem mergerAt_testDepth (hreceiving : m.previousBlock.outReceiving = false)
    (hlow : m.memory.enable = false) (henable : pins.depthEnable = true)
    {inpData : MemoryDataType}
    (hdata : inpData = merged f pins initial received (depthDword pins fragment.x fragment.y))
    (hmemory : stateAfter atomicMemory initial issued = merged f pins initial received) :
    MergerAt f pins initial (received ++ [fragment])
      (issued ++
        (testDepth f pins fragment (depthDword pins fragment.x fragment.y) inpData m).memory.issues)
      (testDepth f pins fragment (depthDword pins fragment.x fragment.y) inpData m) := by
  subst hdata
  have hmerge := @merged_concat F f pins initial received fragment
  unfold mergeFragment at hmerge
  rw [if_pos henable] at hmerge
  unfold testDepth
  dsimp only at hmerge ⊢
  split
  next hfailed =>
    rw [if_pos hfailed] at hmerge
    apply mergerAt_receive hlow
    rw [hmerge, hmemory]
  next hpassed =>
    rw [if_neg hpassed] at hmerge
    split
    next hdifferent =>
      rw [if_pos hdifferent] at hmerge
      refine ⟨hreceiving, ?_, by simp⟩
      show Function.update (stateAfter atomicMemory initial
        (issued ++ [.write (depthDword pins fragment.x fragment.y) (f.bits (f.ofBits fragment.z))]))
        (colorDword pins fragment.x fragment.y) fragment.color = _
      rw [stateAfter_concat, hmemory, hmerge]
      rfl
    next hequal =>
      rw [if_neg hequal] at hmerge
      apply mergerAt_writeColor hreceiving
      rw [hmemory, hmerge]

/-- The operations are for dwords of these fragments. -/
def Serves (pins : OutputMergerPins) (received : List ShadedFragment) (ops : List MemoryOperation) :
    Prop :=
  ∀ o ∈ ops, ∃ fragment ∈ received, o.address = colorDword pins fragment.x fragment.y ∨
    (pins.depthEnable = true ∧ o.address = depthDword pins fragment.x fragment.y)

theorem serves_low (h : m.memory.enable = false) : Serves pins received m.memory.issues := by
  rw [issues_low h]
  intro o ho
  cases ho

theorem mergerAt_low (hlow : m.memory.enable = false)
    (h : MergerAt f pins initial received issued m) :
    MergerAt f pins initial received (issued ++ m.memory.issues) m ∧
      Serves pins received m.memory.issues := by
  refine ⟨?_, serves_low hlow⟩
  rw [issues_low hlow, List.append_nil]
  exact h

theorem serves_writeColor (hmem : fragment ∈ received) :
    Serves pins received (m.writeColor pins fragment).memory.issues := by
  intro o ho
  rw [List.mem_singleton.mp ho]
  exact ⟨fragment, hmem, .inl rfl⟩

theorem serves_merge (hmem : fragment ∈ received) :
    Serves pins received (m.merge pins fragment).memory.issues := by
  unfold merge
  split
  next henable =>
    intro o ho
    rw [List.mem_singleton.mp ho]
    exact ⟨fragment, hmem, .inr ⟨henable, rfl⟩⟩
  next => exact serves_writeColor hmem

theorem serves_testDepth (henable : pins.depthEnable = true) (hlow : m.memory.enable = false)
    (hmem : fragment ∈ received) (inpData : MemoryDataType) :
    Serves pins received
      (testDepth f pins fragment (depthDword pins fragment.x fragment.y) inpData
        m).memory.issues := by
  unfold testDepth
  dsimp only
  split
  · exact @serves_low pins received m.receive hlow
  · split
    · intro o ho
      rw [List.mem_singleton.mp ho]
      exact ⟨fragment, hmem, .inr ⟨henable, rfl⟩⟩
    · exact serves_writeColor hmem

/-- A fragment that is offered is received. -/
theorem resume_offered {call : ReceiveCall ShadedFragment} (hcall : call.AtHandshake)
    (inpFragment : Nat → ShadedFragment) (ports : ReceivePorts) :
    call.resume (Transfer.receive true) true inpFragment ports =
      (.returned true [inpFragment 0], ⟨false, true⟩) := by
  cases call with
  | acknowledge clocksWaiting => rfl
  | stalled clocksWaiting => rfl
  | package dataReceived packagesReceived => exact hcall.elim

/-- A clock in which the block listens. -/
theorem mergerAt_step_receiving {call : ReceiveCall ShadedFragment} (hpc : m.pc = .receiving call)
    (hcall : call.AtHandshake) (hlow : m.memory.enable = false)
    (hreceiving : m.previousBlock.outReceiving = true)
    (hmemory : stateAfter atomicMemory initial issued = merged f pins initial received)
    (inpSending : Bool) (inpFragment : Nat → ShadedFragment) (inpCompleted : Bool)
    (inpData : MemoryDataType) :
    let m' := m.step f pins inpSending inpFragment inpCompleted inpData
    let received' := received ++ if inpSending then [inpFragment 0] else []
    MergerAt f pins initial received' (issued ++ m'.memory.issues) m' ∧
      Serves pins received' m'.memory.issues := by
  unfold OutputMerger.step
  rw [hpc]
  cases inpSending with
  | false =>
    obtain ⟨clocks, hresume⟩ :=
      @ReceiveCall.resume_silent _ (Transfer.receive true) rfl inpFragment m.previousBlock call hcall
    simp only [hresume, Bool.false_eq_true, if_false, List.append_nil]
    refine @mergerAt_low F f pins initial received issued { m with
      pc := .receiving (.stalled clocks), previousBlock := _ } hlow ?_
    exact ⟨trivial, hreceiving, hmemory⟩
  | true =>
    simp only [resume_offered hcall, if_true]
    exact ⟨mergerAt_merge rfl hmemory, serves_merge (by simp)⟩

/-- A clock in which the block waits for the depth. -/
theorem mergerAt_step_readingDepth {before : List ShadedFragment} {earlier : List MemoryOperation}
    (hpc : m.pc = .readingDepth fragment (depthDword pins fragment.x fragment.y))
    (hreceiving : m.previousBlock.outReceiving = false) (henable : pins.depthEnable = true)
    (hmemory : stateAfter atomicMemory initial
      (earlier ++ [.read (depthDword pins fragment.x fragment.y)]) = merged f pins initial before)
    (inpSending : Bool) (inpFragment : Nat → ShadedFragment) {inpCompleted : Bool}
    {inpData : MemoryDataType}
    (hanswer : inpCompleted = true → inpData = (atomicMemory (stateAfter atomicMemory initial
      earlier) (.read (depthDword pins fragment.x fragment.y))).2) :
    let m' := m.step f pins inpSending inpFragment inpCompleted inpData
    MergerAt f pins initial (before ++ [fragment])
        (earlier ++ [.read (depthDword pins fragment.x fragment.y)] ++ m'.memory.issues) m' ∧
      Serves pins (before ++ [fragment]) m'.memory.issues := by
  unfold OutputMerger.step
  rw [hpc]
  cases inpCompleted with
  | false =>
    apply mergerAt_low rfl
    exact ⟨hreceiving, henable, rfl, ⟨before, rfl, hmemory⟩, earlier, rfl⟩
  | true =>
    -- the read has left the memory as it was
    have hdata := hanswer rfl
    have hread : stateAfter atomicMemory initial (earlier ++ [.read
        (depthDword pins fragment.x fragment.y)]) = stateAfter atomicMemory initial earlier := by
      rw [stateAfter_concat]
      rfl
    dsimp only
    rw [if_pos rfl]
    constructor
    · apply mergerAt_testDepth
      · exact hreceiving
      · rfl
      · exact henable
      · rw [hdata, ← hmemory, hread]
        rfl
      · exact hmemory
    · apply serves_testDepth henable rfl (by simp)

/-- One clock. An access that ends answers its operation. -/
theorem mergerAt_step (h : MergerAt f pins initial received issued m) (htracked : m.Tracked)
    (inpSending : Bool) (inpFragment : Nat → ShadedFragment) {inpCompleted : Bool}
    {inpData : MemoryDataType}
    (hanswer : m.awaiting = true → inpCompleted = true → ∀ earlier o, issued = earlier ++ [o] →
      inpData = (atomicMemory (stateAfter atomicMemory initial earlier) o).2) :
    let m' := m.step f pins inpSending inpFragment inpCompleted inpData
    let received' :=
      received ++ if m.previousBlock.outReceiving && inpSending then [inpFragment 0] else []
    MergerAt f pins initial received' (issued ++ m'.memory.issues) m' ∧
      Serves pins received' m'.memory.issues := by
  unfold Tracked at htracked
  unfold MergerAt at h
  cases hpc : m.pc with
  | receiving call =>
    rw [hpc] at h htracked
    obtain ⟨hcall, hreceiving, hmemory⟩ := h
    obtain ⟨-, hlow⟩ := htracked
    rw [hreceiving, Bool.true_and]
    exact mergerAt_step_receiving hpc hcall hlow hreceiving hmemory inpSending inpFragment
      inpCompleted inpData
  | readingDepth fragment depthAddress =>
    rw [hpc] at h
    obtain ⟨hreceiving, henable, rfl, ⟨before, rfl, hmemory⟩, earlier, rfl⟩ := h
    have hwaits : m.awaiting = true := by rw [awaiting, hpc]
    simp only [hreceiving, Bool.false_and, Bool.false_eq_true, if_false, List.append_nil]
    exact mergerAt_step_readingDepth hpc hreceiving henable hmemory inpSending inpFragment
      fun hcompleted => hanswer hwaits hcompleted earlier _ rfl
  | writingDepth fragment =>
    rw [hpc] at h
    obtain ⟨hreceiving, hmemory, hmem⟩ := h
    unfold OutputMerger.step
    simp only [hpc, hreceiving, Bool.false_and, Bool.false_eq_true, if_false, List.append_nil]
    cases inpCompleted with
    | false =>
      apply mergerAt_low rfl
      exact ⟨hreceiving, hmemory, hmem⟩
    | true =>
      rw [if_pos rfl]
      exact ⟨mergerAt_writeColor hreceiving hmemory, serves_writeColor hmem⟩
  | writingColor =>
    rw [hpc] at h
    obtain ⟨hreceiving, hmemory⟩ := h
    unfold OutputMerger.step
    simp only [hpc, hreceiving, Bool.false_and, Bool.false_eq_true, if_false, List.append_nil]
    cases inpCompleted with
    | false =>
      apply mergerAt_low rfl
      exact ⟨hreceiving, hmemory⟩
    | true =>
      rw [if_pos rfl]
      exact ⟨mergerAt_receive rfl hmemory, serves_low rfl⟩
  | aborted e =>
    rw [hpc] at h
    exact h.elim

/-- The accesses that may still follow for a fragment, the current one included. -/
def stage (m : OutputMerger) : Nat :=
  match m.pc with
  | .receiving _ | .aborted _ => 0
  | .writingColor => 1
  | .writingDepth _ => 2
  | .readingDepth _ _ => 3

theorem stage_le (m : OutputMerger) : m.stage ≤ 3 := by
  unfold stage
  cases m.pc <;> simp

/-- A clock brings a fragment forward only where an access ends. -/
theorem stage_step (hwaits : m.awaiting = true) (inpSending : Bool)
    (inpFragment : Nat → ShadedFragment) (inpCompleted : Bool) (inpData : MemoryDataType) :
    let m' := m.step f pins inpSending inpFragment inpCompleted inpData
    if inpCompleted then m'.stage < m.stage else m'.stage = m.stage := by
  unfold awaiting at hwaits
  unfold OutputMerger.step
  cases hpc : m.pc with
  | receiving call =>
    rw [hpc] at hwaits
    cases hwaits
  | aborted e =>
    rw [hpc] at hwaits
    cases hwaits
  | readingDepth fragment depthAddress =>
    have hstage : m.stage = 3 := by rw [stage, hpc]
    cases inpCompleted with
    | false =>
      rw [hstage]
      rfl
    | true =>
      simp only [if_true, hstage, testDepth]
      split
      · exact Nat.zero_lt_succ 2
      · split
        · exact Nat.lt_succ_self 2
        · exact Nat.one_lt_succ_succ 1
  | writingDepth fragment =>
    have hstage : m.stage = 2 := by rw [stage, hpc]
    cases inpCompleted with
    | false =>
      rw [hstage]
      rfl
    | true =>
      rw [if_pos rfl, hstage]
      exact Nat.lt_succ_self 1
  | writingColor =>
    have hstage : m.stage = 1 := by rw [stage, hpc]
    cases inpCompleted with
    | false =>
      rw [hstage]
      rfl
    | true =>
      rw [if_pos rfl, hstage]
      exact Nat.lt_succ_self 0

/-- Without a fragment the block keeps waiting for one. -/
theorem step_silent (h : MergerAt f pins initial received issued m) (hwaits : m.awaiting = false)
    (inpFragment : Nat → ShadedFragment) (inpCompleted : Bool) (inpData : MemoryDataType) :
    let m' := m.step f pins false inpFragment inpCompleted inpData
    m'.awaiting = false ∧ m'.stage = 0 := by
  unfold MergerAt at h
  unfold OutputMerger.step
  unfold awaiting at hwaits
  cases hpc : m.pc with
  | receiving call =>
    rw [hpc] at h
    obtain ⟨clocks, hresume⟩ := @ReceiveCall.resume_silent _ (Transfer.receive true) rfl inpFragment
      m.previousBlock call h.1
    simp only [hresume, awaiting, stage, and_self]
  | readingDepth fragment depthAddress =>
    rw [hpc] at hwaits
    cases hwaits
  | writingDepth fragment =>
    rw [hpc] at hwaits
    cases hwaits
  | writingColor =>
    rw [hpc] at hwaits
    cases hwaits
  | aborted e =>
    rw [hpc] at h
    exact h.elim

/-- Either the block waits for a fragment, with all that it received in the memory, or
    for an access. -/
theorem mergerAt_cases (h : MergerAt f pins initial received issued m) :
    (m.awaiting = false ∧ m.previousBlock.outReceiving = true ∧ m.stage = 0 ∧
      stateAfter atomicMemory initial issued = merged f pins initial received) ∨
    (m.awaiting = true ∧ m.previousBlock.outReceiving = false) := by
  unfold MergerAt at h
  unfold awaiting stage
  cases hpc : m.pc with
  | receiving call =>
    rw [hpc] at h
    exact .inl ⟨rfl, h.2.1, rfl, h.2.2⟩
  | readingDepth fragment depthAddress =>
    rw [hpc] at h
    exact .inr ⟨rfl, h.1⟩
  | writingDepth fragment =>
    rw [hpc] at h
    exact .inr ⟨rfl, h.1⟩
  | writingColor =>
    rw [hpc] at h
    exact .inr ⟨rfl, h.1⟩
  | aborted e =>
    rw [hpc] at h
    exact h.elim

end OutputMerger

end PicoGpu
