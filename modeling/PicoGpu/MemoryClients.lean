import PicoGpu.CommandStreamer
import PicoGpu.FragmentShader
import PicoGpu.PrimitiveAssembler

/- The blocks `Blitter`, `PrimitiveAssembler` and `OutputMerger`, cut at their `wait()`s.
   They access the memory one dword at a time: `enable` goes up for a clock, and the
   block waits until it sees `completed`.

   Correspondence:
     raii_boolean_setter.h            ↔ `RaiiBooleanSetter`
     blitter.cpp              `main`     ↔ `Blitter.step`
     primitive_assembler.cpp  `assemble` ↔ `PrimitiveAssembler.step`
     output_merger.cpp        `main`     ↔ `OutputMerger.step`
   A port that is read shows what was written to it before the clock. -/
namespace PicoGpu

namespace RaiiBooleanSetter

/-- The constructor, for a port that shows `port`. -/
def construct (port : Bool) : Except FatalError Bool :=
  if port then .error "Output port should be false" else .ok true

/-- The destructor. -/
def destruct (port : Bool) : Except FatalError Bool :=
  if port then .ok false else .error "Output port should be true"

end RaiiBooleanSetter

/-! ## Accesses -/

/-- A client that waits for `completed` lowers `enable` and goes on waiting. Any other
    client waits behind a clock exactly if it has raised `enable`. -/
def Obeys (inpCompleted awaiting awaiting' enable' : Bool) : Prop :=
  if awaiting && !inpCompleted then awaiting' = true ∧ enable' = false else awaiting' = enable'

theorem obeys_free {inpCompleted awaiting awaiting' enable' : Bool} (h : awaiting = false)
    (heq : awaiting' = enable') : Obeys inpCompleted awaiting awaiting' enable' := by
  rw [Obeys, h]
  exact heq

section
variable {last : Nat}

/-- Where the access of client `i` is: nowhere, in its ports, latched or completed. -/
inductive AccessAt (c : MemoryController last) (clients : Fin (last + 1) → MemorySignals)
    (awaiting : Fin (last + 1) → Bool) (i : Fin (last + 1)) : Prop
  | free (ha : awaiting i = false) (he : (clients i).enable = false)
      (hl : (c.clientsLatched i).enable = false) (hc : c.outCompleted i = false)
  | raised (ha : awaiting i = true) (he : (clients i).enable = true)
      (hl : (c.clientsLatched i).enable = false) (hc : c.outCompleted i = false)
  | latched (ha : awaiting i = true) (he : (clients i).enable = false)
      (hl : (c.clientsLatched i).enable = true) (hc : c.outCompleted i = false)
  | completed (ha : awaiting i = true) (he : (clients i).enable = false)
      (hl : (c.clientsLatched i).enable = false) (hc : c.outCompleted i = true)

/-- The controller works only for clients that wait for it. -/
structure Accesses (c : MemoryController last) (clients : Fin (last + 1) → MemorySignals)
    (awaiting : Fin (last + 1) → Bool) : Prop where
  clients : ∀ i, AccessAt c clients awaiting i
  scanning : c.pc = .scanning → c.memory.enable = false ∧
    ∀ i, c.outCompleted i = true → c.clientForOutputClear = some i
  serving : c.pc ≠ .scanning →
    (c.clientsLatched c.currentClient).enable = true ∧ ∀ i, c.outCompleted i = false
  waiting : ∀ w, c.pc = .waiting w → c.memory.enable = false

theorem accesses_init (last : Nat) :
    Accesses (.init last) (fun _ => .low) (fun _ => false) where
  clients := fun _ => .free rfl rfl rfl rfl
  scanning := by
    intro _
    refine ⟨rfl, ?_⟩
    intro i hi
    cases hi
  serving := fun h => absurd rfl h
  waiting := by
    intro w h
    cases h

variable {c : MemoryController last} {clients clients' : Fin (last + 1) → MemorySignals}
  {awaiting awaiting' : Fin (last + 1) → Bool}

/-- The controller is at rest. -/
structure MemoryController.Idle (c : MemoryController last) : Prop where
  pc : c.pc = .scanning
  enable : c.memory.enable = false
  latched : ∀ i, (c.clientsLatched i).enable = false
  completed : ∀ i, c.outCompleted i = false

theorem Accesses.idle (h : Accesses c clients awaiting) (hfree : ∀ i, awaiting i = false) :
    c.Idle := by
  have hclient : ∀ i, (c.clientsLatched i).enable = false ∧ c.outCompleted i = false := by
    intro i
    cases h.clients i with
    | free ha he hl hc => exact ⟨hl, hc⟩
    | raised ha he hl hc | latched ha he hl hc | completed ha he hl hc =>
      rw [hfree i] at ha
      cases ha
  have hpc : c.pc = .scanning := by
    by_contra hne
    have hl := (h.serving hne).1
    rw [(hclient _).1] at hl
    cases hl
  exact ⟨hpc, (h.scanning hpc).1, fun i => (hclient i).1, fun i => (hclient i).2⟩

/-- A client through a clock in which its request does not complete. -/
theorem AccessAt.step {c' : MemoryController last} {i : Fin (last + 1)}
    (h : AccessAt c clients awaiting i)
    (hobeys : Obeys (c.outCompleted i) (awaiting i) (awaiting' i) (clients' i).enable)
    (hlatched : c'.clientsLatched i =
      MemoryController.listenClients (clients i) (c.clientsLatched i))
    (hcompleted : c'.outCompleted i = false) : AccessAt c' clients' awaiting' i := by
  have hstart : awaiting' i = (clients' i).enable → (c'.clientsLatched i).enable = false →
      AccessAt c' clients' awaiting' i := by
    intro heq hl
    cases henable : (clients' i).enable with
    | false => exact .free (heq.trans henable) henable hl hcompleted
    | true => exact .raised (heq.trans henable) henable hl hcompleted
  cases h with
  | free ha he hl hc =>
    rw [Obeys, ha] at hobeys
    rw [MemoryController.listenClients, he] at hlatched
    exact hstart hobeys (by rw [hlatched]; exact hl)
  | raised ha he hl hc =>
    rw [Obeys, ha, hc] at hobeys
    rw [MemoryController.listenClients, he] at hlatched
    exact .latched hobeys.1 hobeys.2 (by rw [hlatched]; rfl) hcompleted
  | latched ha he hl hc =>
    rw [Obeys, ha, hc] at hobeys
    rw [MemoryController.listenClients, he] at hlatched
    exact .latched hobeys.1 hobeys.2 (by rw [hlatched]; exact hl) hcompleted
  | completed ha he hl hc =>
    rw [Obeys, ha, hc] at hobeys
    rw [MemoryController.listenClients, he] at hlatched
    exact hstart hobeys (by rw [hlatched]; exact hl)

/-- A latched request stays latched until it completes. -/
theorem AccessAt.latched_stays {i : Fin (last + 1)}
    (hl : (c.clientsLatched i).enable = true) :
    (MemoryController.listenClients (clients i) (c.clientsLatched i)).enable = true := by
  unfold MemoryController.listenClients
  split
  · rfl
  · exact hl

section
variable (h : Accesses c clients awaiting)
  (hobeys : ∀ i, Obeys (c.outCompleted i) (awaiting i) (awaiting' i) (clients' i).enable)
  (listenLast : Bool) (inpData : MemoryDataType)
include h hobeys

/-- The clients in a clock in which no request completes. -/
theorem Accesses.clients_step {inpCompleted : Bool} (hnone : c.completing inpCompleted = none)
    (hout : ∀ i, (c.step listenLast clients inpData inpCompleted).outCompleted i = false) :
    (∀ i, AccessAt (c.step listenLast clients inpData inpCompleted) clients' awaiting' i) ∧
    ∀ i, (c.clientsLatched i).enable = true →
      ((c.step listenLast clients inpData inpCompleted).clientsLatched i).enable = true := by
  have hlatched : ∀ i, (c.step listenLast clients inpData inpCompleted).clientsLatched i =
      MemoryController.listenClients (clients i) (c.clientsLatched i) := by
    intro i
    apply MemoryController.step_latched
    rw [hnone]
    intro hsome
    cases hsome
  refine ⟨fun i => (h.clients i).step (hobeys i) (hlatched i) (hout i), ?_⟩
  intro i hi
  rw [hlatched]
  exact AccessAt.latched_stays hi

theorem accesses_scanning (hpc : c.pc = .scanning) (inpCompleted : Bool) :
    Accesses (c.step listenLast clients inpData inpCompleted) clients' awaiting' := by
  obtain ⟨hlow, hclear⟩ := h.scanning hpc
  have hmain := MemoryController.main_scanning inpData inpCompleted hpc
  obtain ⟨hframe, -, hmemory, hframePc, -⟩ := MemoryController.clearOutput_frame c
  obtain ⟨hcompleted, -, -, hscan⟩ := MemoryController.scan_cases c.clearOutput
  have hnone := @MemoryController.completing_scanning last c inpCompleted hpc
  have hout : ∀ i, (c.step listenLast clients inpData inpCompleted).outCompleted i = false := by
    intro i
    rw [MemoryController.step_outCompleted, hmain, hcompleted]
    exact MemoryController.clearOutput_outCompleted hclear i
  obtain ⟨hclients, hlatched⟩ := h.clients_step hobeys listenLast inpData hnone hout
  rcases hscan with ⟨-, hpc', hmemory', -⟩ | ⟨k, hfound, hcurrent, hpc', -, -, -⟩
  · -- nothing is latched
    have hscanning : (c.step listenLast clients inpData inpCompleted).pc = .scanning := by
      rw [MemoryController.step_pc, hmain, hpc', hframePc, hpc]
    have hlow' : (c.step listenLast clients inpData inpCompleted).memory.enable = false := by
      rw [MemoryController.step_memory, hmain, hmemory', hmemory]
      exact hlow
    refine ⟨hclients, fun _ => ⟨hlow', ?_⟩, fun hne => absurd hscanning hne, fun _ _ => hlow'⟩
    intro i hi
    rw [hout i] at hi
    cases hi
  · have hissued : (c.step listenLast clients inpData inpCompleted).pc =
        .issued (c.clearOutput.clientsLatched k).write := by
      rw [MemoryController.step_pc, hmain, hpc']
    refine ⟨hclients, ?_, fun _ => ⟨?_, hout⟩, ?_⟩
    · intro hscanning
      rw [hissued] at hscanning
      cases hscanning
    · rw [MemoryController.step_currentClient, hmain, hcurrent]
      apply hlatched
      rw [← hframe]
      exact MemoryController.findClient_enabled hfound
    · intro w hwaiting
      rw [hissued] at hwaiting
      cases hwaiting

theorem accesses_issued {w : Bool} (hpc : c.pc = .issued w) (inpCompleted : Bool) :
    Accesses (c.step listenLast clients inpData inpCompleted) clients' awaiting' := by
  obtain ⟨hcurrent, hlow⟩ := h.serving (by rw [hpc]; intro hne; cases hne)
  have hmain := MemoryController.main_issued inpData inpCompleted hpc
  have hnone := @MemoryController.completing_issued last c inpCompleted w hpc
  have hout : ∀ i, (c.step listenLast clients inpData inpCompleted).outCompleted i = false := by
    intro i
    rw [MemoryController.step_outCompleted, hmain]
    exact hlow i
  obtain ⟨hclients, hlatched⟩ := h.clients_step hobeys listenLast inpData hnone hout
  have hwaiting : (c.step listenLast clients inpData inpCompleted).pc = .waiting w := by
    rw [MemoryController.step_pc, hmain]
  refine ⟨hclients, ?_, fun _ => ⟨?_, hout⟩, ?_⟩
  · intro hscanning
    rw [hwaiting] at hscanning
    cases hscanning
  · rw [MemoryController.step_currentClient, hmain]
    exact hlatched _ hcurrent
  · intro _ _
    rw [MemoryController.step_memory, hmain]

theorem accesses_waiting {w : Bool} (hpc : c.pc = .waiting w) :
    Accesses (c.step listenLast clients inpData false) clients' awaiting' := by
  obtain ⟨hcurrent, hlow⟩ := h.serving (by rw [hpc]; intro hne; cases hne)
  have hmain := @MemoryController.main_pending last c inpData w hpc
  have hnone : c.completing false = none := MemoryController.completing_waiting hpc
  have hout : ∀ i, (c.step listenLast clients inpData false).outCompleted i = false := by
    intro i
    rw [MemoryController.step_outCompleted, hmain]
    exact hlow i
  obtain ⟨hclients, hlatched⟩ := h.clients_step hobeys listenLast inpData hnone hout
  refine ⟨hclients, ?_, fun _ => ⟨?_, hout⟩, ?_⟩
  · intro hscanning
    rw [MemoryController.step_pc, hmain, hpc] at hscanning
    cases hscanning
  · rw [MemoryController.step_currentClient, hmain]
    exact hlatched _ hcurrent
  · intro _ _
    rw [MemoryController.step_memory, hmain]
    exact h.waiting w hpc

/-- The client whose request completes was latched, and no other one is touched. -/
theorem accesses_completing {w : Bool} (hpc : c.pc = .waiting w) :
    Accesses (c.step listenLast clients inpData true) clients' awaiting' := by
  obtain ⟨hcurrent, hlow⟩ := h.serving (by rw [hpc]; intro hne; cases hne)
  have hmain := @MemoryController.main_waiting last c true inpData w hpc rfl
  have hcompleting : c.completing true = some c.currentClient :=
    MemoryController.completing_waiting hpc
  have hscanning : (c.step listenLast clients inpData true).pc = .scanning := by
    rw [MemoryController.step_pc, hmain]
    rfl
  have hlow' : (c.step listenLast clients inpData true).memory.enable = false := by
    rw [MemoryController.step_memory, hmain]
    exact h.waiting w hpc
  have hout : ∀ i, (c.step listenLast clients inpData true).outCompleted i =
      Function.update c.outCompleted c.currentClient true i := by
    intro i
    rw [MemoryController.step_outCompleted, hmain]
    rfl
  refine ⟨?_, fun _ => ⟨hlow', ?_⟩, fun hne => absurd hscanning hne, fun _ _ => hlow'⟩
  · intro i
    by_cases hi : i = c.currentClient
    · subst hi
      cases h.clients c.currentClient with
      | latched ha he hl hc =>
        have hnext := hobeys c.currentClient
        rw [Obeys, ha, hc] at hnext
        refine .completed hnext.1 hnext.2 ?_ ?_
        · rw [MemoryController.step_latched_completing hcompleting he]
        · rw [hout, Function.update_self]
      | free ha he hl hc | raised ha he hl hc | completed ha he hl hc =>
        rw [hl] at hcurrent
        cases hcurrent
    · have hnone : c.completing true ≠ some i := by
        intro hsome
        rw [hcompleting] at hsome
        exact hi (Option.some.inj hsome).symm
      have hcompleted : (c.step listenLast clients inpData true).outCompleted i = false := by
        rw [hout, Function.update_of_ne hi]
        exact hlow i
      exact (h.clients i).step (hobeys i) (MemoryController.step_latched hnone _ _) hcompleted
  · intro i hi
    rw [hout, Function.update_apply] at hi
    split at hi
    · next heq =>
      rw [heq]
      show (c.main inpData true).clientForOutputClear = _
      rw [hmain]
      rfl
    · rw [hlow i] at hi
      cases hi

theorem accesses_step (inpCompleted : Bool) :
    Accesses (c.step listenLast clients inpData inpCompleted) clients' awaiting' := by
  cases hpc : c.pc with
  | scanning => exact accesses_scanning h hobeys listenLast inpData hpc inpCompleted
  | issued w => exact accesses_issued h hobeys listenLast inpData hpc inpCompleted
  | waiting w =>
    cases inpCompleted with
    | false => exact accesses_waiting h hobeys listenLast inpData hpc
    | true => exact accesses_completing h hobeys listenLast inpData hpc

end

end

/-! ## Blitter -/

/-- The locals of `Blitter::main`. -/
structure Blitter.Blit where
  isWrite : Bool
  isFill : Bool
  memoryPtr : MemoryAddressType
  userPtr : PointerType
  sizeInDwords : Nat

inductive BlitterPc where
  | start
  | accessing (blit : Blitter.Blit) (dwordIndex : Nat)
  | aborted (error : FatalError)

structure Blitter where
  pc : BlitterPc
  memory : MemorySignals
  outBusy : Bool
  /-- the dwords that the user's pointers point to -/
  userMemory : PointerType → Dword

namespace Blitter

def new (userMemory : PointerType → Dword) : Blitter where
  pc := .start
  memory := .low
  outBusy := false
  userMemory := userMemory

/-- The address of `userPtr[index]`. -/
def userAddress (userPtr : PointerType) (index : Nat) : PointerType :=
  userPtr + BitVec.ofNat 64 (4 * index)

/-- The loop over the dwords, from its test on; `outBusy` is what the busy port shows. -/
def copy (outBusy : Bool) (blit : Blit) (dwordIndex : Nat) (b : Blitter) : Blitter :=
  if dwordIndex < blit.sizeInDwords then
    { b with
      pc := .accessing blit dwordIndex
      memory := {
        enable := true
        write := blit.isWrite
        address := dwordAddress blit.memoryPtr dwordIndex
        data :=
          if blit.isWrite then
            b.userMemory (userAddress blit.userPtr (if blit.isFill then 0 else dwordIndex))
          else b.memory.data } }
  else
    match RaiiBooleanSetter.destruct outBusy with
    | .ok outBusy => { b with pc := .start, outBusy := outBusy }
    | .error e => { b with pc := .aborted e }

def step (command : BlitterSignals) (inpCompleted : Bool) (inpData : MemoryDataType)
    (b : Blitter) : Blitter :=
  match b.pc with
  | .start =>
    if command.commandType = .none then b
    else
      let blit : Blit := {
        isWrite := command.commandType = .copyToMem ∨ command.commandType = .fillMem
        isFill := command.commandType = .fillMem
        memoryPtr := command.memoryPtr
        userPtr := command.userPtr
        sizeInDwords := command.sizeInDwords.toNat }
      match RaiiBooleanSetter.construct b.outBusy with
      | .ok outBusy => { b with outBusy := outBusy }.copy b.outBusy blit 0
      | .error e => { b with pc := .aborted e }
  | .accessing blit dwordIndex =>
    if inpCompleted then
      let b := { b with memory := .low }
      let b := if blit.isWrite then b else
        { b with
          userMemory := Function.update b.userMemory (userAddress blit.userPtr dwordIndex) inpData }
      b.copy b.outBusy blit (dwordIndex + 1)
    else { b with memory := { b.memory with enable := false } }
  | .aborted _ => b

/-! ### Between two clocks -/

def awaiting (b : Blitter) : Bool :=
  match b.pc with
  | .accessing _ _ => true
  | _ => false

def Aborted (b : Blitter) : Prop := ∃ e, b.pc = .aborted e

instance (b : Blitter) : Decidable b.Aborted :=
  decidable_of_iff ((match b.pc with | .aborted _ => true | _ => false) = true) (by
    unfold Aborted
    cases b.pc <;> simp)

/-- Not on a command. -/
structure Idle (b : Blitter) : Prop where
  pc : b.pc = .start
  enable : b.memory.enable = false

/-- The block is busy from the clock of its command until the last dword is copied. -/
def Tracked (b : Blitter) : Prop :=
  match b.pc with
  | .start => b.outBusy = false ∧ b.memory.enable = false
  | .accessing _ _ => b.outBusy = true
  | .aborted _ => b.memory.enable = false

variable {b : Blitter}

theorem tracked_new (userMemory : PointerType → Dword) : (new userMemory).Tracked := ⟨rfl, rfl⟩

theorem Tracked.idle (h : b.Tracked) (hbusy : b.outBusy = false) (hrunning : ¬ b.Aborted) :
    b.Idle := by
  unfold Tracked at h
  cases hpc : b.pc with
  | start =>
    rw [hpc] at h
    exact ⟨hpc, h.2⟩
  | accessing blit dwordIndex =>
    rw [hpc, hbusy] at h
    cases h
  | aborted e => exact absurd ⟨e, hpc⟩ hrunning

/-- The loop goes on with an access, or leaves the block idle or aborted. -/
theorem copy_spec {outBusy : Bool} {blit : Blit} {dwordIndex : Nat}
    (hlow : b.memory.enable = false) (hbusy : b.outBusy = true) :
    (b.copy outBusy blit dwordIndex).Tracked ∧
    (b.copy outBusy blit dwordIndex).awaiting = (b.copy outBusy blit dwordIndex).memory.enable := by
  unfold copy
  split
  · exact ⟨hbusy, rfl⟩
  · cases outBusy with
    | false => exact ⟨hlow, hlow.symm⟩
    | true => exact ⟨⟨rfl, hlow⟩, hlow.symm⟩

theorem step_spec (h : b.Tracked) (command : BlitterSignals) (inpCompleted : Bool)
    (inpData : MemoryDataType) :
    (b.step command inpCompleted inpData).Tracked ∧
    Obeys inpCompleted b.awaiting (b.step command inpCompleted inpData).awaiting
      (b.step command inpCompleted inpData).memory.enable := by
  have htracked := h
  unfold Tracked at h
  unfold step
  cases hpc : b.pc with
  | start =>
    rw [hpc] at h
    obtain ⟨hbusy, hlow⟩ := h
    have hfree : b.awaiting = false := by rw [awaiting, hpc]
    dsimp only
    split
    · exact ⟨htracked, obeys_free hfree (hfree.trans hlow.symm)⟩
    · rw [hbusy]
      obtain ⟨hnext, heq⟩ := @copy_spec { b with outBusy := true } false _ 0 hlow rfl
      exact ⟨hnext, obeys_free hfree heq⟩
  | accessing blit dwordIndex =>
    rw [hpc] at h
    have hwaits : b.awaiting = true := by rw [awaiting, hpc]
    dsimp only
    cases inpCompleted with
    | false =>
      rw [if_neg (by decide), hwaits]
      exact ⟨h, rfl, rfl⟩
    | true =>
      rw [if_pos rfl, hwaits]
      split
      · exact @copy_spec { b with memory := .low } b.outBusy blit (dwordIndex + 1) rfl h
      · exact @copy_spec { b with
          memory := .low
          userMemory := Function.update b.userMemory (userAddress blit.userPtr dwordIndex) inpData }
            b.outBusy blit (dwordIndex + 1) rfl h
  | aborted e =>
    rw [hpc] at h
    have hfree : b.awaiting = false := by rw [awaiting, hpc]
    exact ⟨htracked, obeys_free hfree (hfree.trans h.symm)⟩

theorem Aborted.step (h : b.Aborted) (command : BlitterSignals) (inpCompleted : Bool)
    (inpData : MemoryDataType) : (b.step command inpCompleted inpData).Aborted := by
  obtain ⟨e, hpc⟩ := h
  unfold Blitter.step
  rw [hpc]
  exact ⟨e, hpc⟩

theorem Idle.awaiting (h : b.Idle) : b.awaiting = false := by
  rw [Blitter.awaiting, h.pc]

theorem Idle.step (h : b.Idle) {command : BlitterSignals} (hnone : command.commandType = .none)
    (inpCompleted : Bool) (inpData : MemoryDataType) : b.step command inpCompleted inpData = b := by
  unfold Blitter.step
  rw [h.pc]
  dsimp only
  rw [if_pos hnone]

end Blitter

/-! ## PrimitiveAssembler -/

/-- The locals of `PrimitiveAssembler::assemble` for a draw. -/
structure PrimitiveAssembler.Draw where
  vertexBufferAddress : MemoryAddressType
  primitiveCount : Nat
  componentsToTransfer : Nat

/-- While it fetches, the block has the components of the triangle that came before. -/
inductive PrimitiveAssemblerPc where
  | start
  | betweenTriangles (draw : PrimitiveAssembler.Draw) (triangleIndex : Nat)
  | fetching (draw : PrimitiveAssembler.Draw) (triangleIndex : Nat) (readVertices : List Dword)
  | sending (draw : PrimitiveAssembler.Draw) (triangleIndex : Nat) (readVertices : List Dword)
      (call : SendCall)
  | aborted (error : FatalError)

structure PrimitiveAssembler where
  pc : PrimitiveAssemblerPc
  memory : MemorySignals
  nextBlock : SendPorts Dword
  outBusy : Bool

namespace PrimitiveAssembler

def new : PrimitiveAssembler where
  pc := .start
  memory := .low
  nextBlock := ⟨false, fun _ => 0⟩
  outBusy := false

def sendArgs (readVertices : List Dword) : SendArgs Dword where
  dataToSend := readVertices
  dataPortsCount := 9
  performHandshake := true

/-- The loop over the components, from its test on, and the call behind it. -/
def fetchComponents (draw : Draw) (triangleIndex : Nat) (readVertices : List Dword)
    (p : PrimitiveAssembler) : PrimitiveAssembler :=
  let triangleAddress := draw.vertexBufferAddress +
    BitVec.ofNat 32 (triangleIndex * draw.componentsToTransfer * 4)
  if readVertices.length < draw.componentsToTransfer then
    { p with
      pc := .fetching draw triangleIndex readVertices
      memory := {
        enable := true
        write := false
        address := triangleAddress + BitVec.ofNat 32 (readVertices.length * 4)
        data := 0 } }
  else
    match sendArrayImpl (sendArgs readVertices) p.nextBlock with
    | .ok (call, ports) =>
      { p with pc := .sending draw triangleIndex readVertices call, nextBlock := ports }
    | .error e => { p with pc := .aborted e }

/-- The loop over the triangles, from its test on; `outBusy` is what the busy port shows. -/
def assembleTriangles (outBusy : Bool) (draw : Draw) (triangleIndex : Nat)
    (p : PrimitiveAssembler) : PrimitiveAssembler :=
  if triangleIndex < draw.primitiveCount then
    if triangleIndex ≠ 0 then { p with pc := .betweenTriangles draw triangleIndex }
    else p.fetchComponents draw triangleIndex []
  else
    match RaiiBooleanSetter.destruct outBusy with
    | .ok outBusy => { p with pc := .start, outBusy := outBusy }
    | .error e => { p with pc := .aborted e }

def step (pins : PrimitiveAssemblerPins) (inpEnable : Bool) (inpCompleted : Bool)
    (inpData : MemoryDataType) (inpReceiving : Bool) (p : PrimitiveAssembler) :
    PrimitiveAssembler :=
  match p.pc with
  | .start =>
    if inpEnable then
      match RaiiBooleanSetter.construct p.outBusy, pins.componentsToTransfer with
      | .ok outBusy, .ok componentsToTransfer =>
        let draw : Draw := {
          vertexBufferAddress := pins.inpVerticesAddress
          primitiveCount := pins.inpVerticesCount.toNat / verticesInPrimitive
          componentsToTransfer := componentsToTransfer }
        { p with outBusy := outBusy }.assembleTriangles p.outBusy draw 0
      | .error e, _ | .ok _, .error e => { p with pc := .aborted e }
    else p
  | .betweenTriangles draw triangleIndex => p.fetchComponents draw triangleIndex []
  | .fetching draw triangleIndex readVertices =>
    if inpCompleted then
      { p with memory := .low }.fetchComponents draw triangleIndex (readVertices ++ [inpData])
    else { p with memory := { p.memory with enable := false } }
  | .sending draw triangleIndex readVertices call =>
    match call.resume (sendArgs readVertices) inpReceiving p.nextBlock with
    | (some call, ports) =>
      { p with pc := .sending draw triangleIndex readVertices call, nextBlock := ports }
    | (none, ports) =>
      { p with nextBlock := ports }.assembleTriangles p.outBusy draw (triangleIndex + 1)
  | .aborted _ => p

/-! ### Between two clocks -/

def awaiting (p : PrimitiveAssembler) : Bool :=
  match p.pc with
  | .fetching _ _ _ => true
  | _ => false

def Aborted (p : PrimitiveAssembler) : Prop := ∃ e, p.pc = .aborted e

instance (p : PrimitiveAssembler) : Decidable p.Aborted :=
  decidable_of_iff ((match p.pc with | .aborted _ => true | _ => false) = true) (by
    unfold Aborted
    cases p.pc <;> simp)

structure Idle (p : PrimitiveAssembler) : Prop where
  pc : p.pc = .start
  enable : p.memory.enable = false
  sending : p.nextBlock.outSending = false

/-- The block is busy from the clock of its draw until the last triangle is sent. -/
def Tracked (p : PrimitiveAssembler) : Prop :=
  match p.pc with
  | .start => p.outBusy = false ∧ p.memory.enable = false ∧ p.nextBlock.outSending = false
  | .betweenTriangles _ _ =>
    p.outBusy = true ∧ p.memory.enable = false ∧ p.nextBlock.outSending = false
  | .fetching _ _ _ => p.outBusy = true ∧ p.nextBlock.outSending = false
  | .sending _ _ _ call => p.outBusy = true ∧ p.memory.enable = false ∧ call.Holds p.nextBlock
  | .aborted _ => p.memory.enable = false

variable {p : PrimitiveAssembler}

theorem tracked_new : new.Tracked := ⟨rfl, rfl, rfl⟩

theorem Tracked.idle (h : p.Tracked) (hbusy : p.outBusy = false) (hrunning : ¬ p.Aborted) :
    p.Idle := by
  unfold Tracked at h
  cases hpc : p.pc with
  | start =>
    rw [hpc] at h
    exact ⟨hpc, h.2.1, h.2.2⟩
  | aborted e => exact absurd ⟨e, hpc⟩ hrunning
  | betweenTriangles draw triangleIndex =>
    rw [hpc, hbusy] at h
    cases h.1
  | fetching draw triangleIndex readVertices =>
    rw [hpc, hbusy] at h
    cases h.1
  | sending draw triangleIndex readVertices call =>
    rw [hpc, hbusy] at h
    cases h.1

theorem fetchComponents_spec {draw : Draw} {triangleIndex : Nat} {readVertices : List Dword}
    (hbusy : p.outBusy = true) (hlow : p.memory.enable = false)
    (hsending : p.nextBlock.outSending = false) :
    (p.fetchComponents draw triangleIndex readVertices).Tracked ∧
    (p.fetchComponents draw triangleIndex readVertices).awaiting =
      (p.fetchComponents draw triangleIndex readVertices).memory.enable := by
  unfold fetchComponents
  dsimp only
  split
  · exact ⟨⟨hbusy, hsending⟩, rfl⟩
  · split
    · next call ports hsend =>
      exact ⟨⟨hbusy, hlow, sendArrayImpl_holds hsending hsend⟩, hlow.symm⟩
    · exact ⟨hlow, hlow.symm⟩

theorem assembleTriangles_spec {outBusy : Bool} {draw : Draw} {triangleIndex : Nat}
    (hbusy : p.outBusy = true) (hlow : p.memory.enable = false)
    (hsending : p.nextBlock.outSending = false) :
    (p.assembleTriangles outBusy draw triangleIndex).Tracked ∧
    (p.assembleTriangles outBusy draw triangleIndex).awaiting =
      (p.assembleTriangles outBusy draw triangleIndex).memory.enable := by
  unfold assembleTriangles
  split
  · split
    · exact ⟨⟨hbusy, hlow, hsending⟩, hlow.symm⟩
    · exact fetchComponents_spec hbusy hlow hsending
  · cases outBusy with
    | false => exact ⟨hlow, hlow.symm⟩
    | true => exact ⟨⟨rfl, hlow, hsending⟩, hlow.symm⟩

theorem step_spec (h : p.Tracked) (pins : PrimitiveAssemblerPins) (inpEnable inpCompleted : Bool)
    (inpData : MemoryDataType) (inpReceiving : Bool) :
    (p.step pins inpEnable inpCompleted inpData inpReceiving).Tracked ∧
    Obeys inpCompleted p.awaiting
      (p.step pins inpEnable inpCompleted inpData inpReceiving).awaiting
      (p.step pins inpEnable inpCompleted inpData inpReceiving).memory.enable := by
  have htracked := h
  unfold Tracked at h
  unfold step
  cases hpc : p.pc with
  | start =>
    rw [hpc] at h
    obtain ⟨hbusy, hlow, hsending⟩ := h
    have hfree : p.awaiting = false := by rw [awaiting, hpc]
    dsimp only
    split
    · rw [hbusy]
      dsimp only [RaiiBooleanSetter.construct]
      split
      · next hconstruct _ =>
        cases hconstruct
        obtain ⟨hnext, heq⟩ :=
          @assembleTriangles_spec { p with outBusy := true } false _ 0 rfl hlow hsending
        exact ⟨hnext, obeys_free hfree heq⟩
      · exact ⟨hlow, obeys_free hfree hlow.symm⟩
      · exact ⟨hlow, obeys_free hfree hlow.symm⟩
    · exact ⟨htracked, obeys_free hfree (hfree.trans hlow.symm)⟩
  | betweenTriangles draw triangleIndex =>
    rw [hpc] at h
    obtain ⟨hbusy, hlow, hsending⟩ := h
    have hfree : p.awaiting = false := by rw [awaiting, hpc]
    obtain ⟨hnext, heq⟩ := @fetchComponents_spec p draw triangleIndex [] hbusy hlow hsending
    exact ⟨hnext, obeys_free hfree heq⟩
  | fetching draw triangleIndex readVertices =>
    rw [hpc] at h
    obtain ⟨hbusy, hsending⟩ := h
    have hwaits : p.awaiting = true := by rw [awaiting, hpc]
    dsimp only
    cases inpCompleted with
    | false =>
      rw [if_neg (by decide), hwaits]
      exact ⟨⟨hbusy, hsending⟩, rfl, rfl⟩
    | true =>
      rw [if_pos rfl, hwaits]
      exact @fetchComponents_spec { p with memory := .low } draw triangleIndex _ hbusy rfl hsending
  | sending draw triangleIndex readVertices call =>
    rw [hpc] at h
    obtain ⟨hbusy, hlow, hholds⟩ := h
    have hfree : p.awaiting = false := by rw [awaiting, hpc]
    dsimp only
    split
    · next call' ports hresume =>
      exact ⟨⟨hbusy, hlow, SendCall.resume_some hholds hresume⟩, obeys_free hfree hlow.symm⟩
    · next ports hresume =>
      obtain ⟨hnext, heq⟩ := @assembleTriangles_spec { p with nextBlock := ports } p.outBusy draw
        (triangleIndex + 1) hbusy hlow (SendCall.resume_none hholds hresume)
      exact ⟨hnext, obeys_free hfree heq⟩
  | aborted e =>
    rw [hpc] at h
    have hfree : p.awaiting = false := by rw [awaiting, hpc]
    exact ⟨htracked, obeys_free hfree (hfree.trans h.symm)⟩

theorem Aborted.step (h : p.Aborted) (pins : PrimitiveAssemblerPins) (inpEnable inpCompleted : Bool)
    (inpData : MemoryDataType) (inpReceiving : Bool) :
    (p.step pins inpEnable inpCompleted inpData inpReceiving).Aborted := by
  obtain ⟨e, hpc⟩ := h
  unfold PrimitiveAssembler.step
  rw [hpc]
  exact ⟨e, hpc⟩

theorem Idle.awaiting (h : p.Idle) : p.awaiting = false := by
  rw [PrimitiveAssembler.awaiting, h.pc]

theorem Idle.step (h : p.Idle) (pins : PrimitiveAssemblerPins) (inpCompleted : Bool)
    (inpData : MemoryDataType) (inpReceiving : Bool) :
    p.step pins false inpCompleted inpData inpReceiving = p := by
  unfold PrimitiveAssembler.step
  rw [h.pc]
  rfl

end PrimitiveAssembler

/-! ## OutputMerger -/

/-- The inputs of the block `OutputMerger`. -/
structure OutputMergerPins where
  framebufferAddress : MemoryAddressType
  framebufferWidth : Dword
  depthEnable : Bool
  depthAddress : MemoryAddressType

inductive OutputMergerPc where
  | receiving (call : ReceiveCall ShadedFragment)
  | readingDepth (fragment : ShadedFragment) (depthAddress : MemoryAddressType)
  | writingDepth (fragment : ShadedFragment)
  | writingColor
  | aborted (error : FatalError)

structure OutputMerger where
  pc : OutputMergerPc
  previousBlock : ReceivePorts
  memory : MemorySignals

namespace OutputMerger

/-- The loop has no `wait()` of its own: at the first clock it is in the one of `receive`. -/
def new : OutputMerger where
  pc := .receiving (.acknowledge 1)
  previousBlock := ⟨true, false⟩
  memory := .low

def outBusy (m : OutputMerger) : Bool := m.previousBlock.outBusinessSignal

/-- The dword of a pixel in a buffer. -/
def pixelAddress (base : MemoryAddressType) (width : Dword) (fragment : ShadedFragment) :
    MemoryAddressType :=
  base + (fragment.y.setWidth 32 * width + fragment.x.setWidth 32) * 4

def receive (m : OutputMerger) : OutputMerger :=
  match receiveArrayImpl (Transfer.receive true) m.previousBlock with
  | .ok (call, ports) => { m with pc := .receiving call, previousBlock := ports }
  | .error e => { m with pc := .aborted e }

/-- The pixel is written. -/
def writeColor (pins : OutputMergerPins) (fragment : ShadedFragment) (m : OutputMerger) :
    OutputMerger :=
  { m with
    pc := .writingColor
    memory := {
      enable := true
      write := true
      address := pixelAddress pins.framebufferAddress pins.framebufferWidth fragment
      data := fragment.color } }

/-- The fragment has been received. -/
def merge (pins : OutputMergerPins) (fragment : ShadedFragment) (m : OutputMerger) :
    OutputMerger :=
  if pins.depthEnable then
    let depthAddress := pixelAddress pins.depthAddress pins.framebufferWidth fragment
    { m with
      pc := .readingDepth fragment depthAddress
      memory := { m.memory with enable := true, write := false, address := depthAddress } }
  else m.writeColor pins fragment

variable {F : Type} (f : Floats F)

/-- The depth test; `>=` of floats is `>` or `==`. -/
def testDepth (pins : OutputMergerPins) (fragment : ShadedFragment)
    (depthAddress : MemoryAddressType) (inpData : MemoryDataType) (m : OutputMerger) :
    OutputMerger :=
  let fragmentZ := f.ofBits fragment.z
  let currentDepth := f.ofBits inpData
  if f.lt currentDepth fragmentZ || f.eq fragmentZ currentDepth then m.receive
  else if !f.eq currentDepth fragmentZ then
    { m with
      pc := .writingDepth fragment
      memory := { enable := true, write := true, address := depthAddress, data := f.bits fragmentZ } }
  else m.writeColor pins fragment

def step (pins : OutputMergerPins) (inpSending : Bool) (inpFragment : Nat → ShadedFragment)
    (inpCompleted : Bool) (inpData : MemoryDataType) (m : OutputMerger) : OutputMerger :=
  match m.pc with
  | .receiving call =>
    match call.resume (Transfer.receive true) inpSending inpFragment m.previousBlock with
    | (.suspended call, ports) => { m with pc := .receiving call, previousBlock := ports }
    | (.returned _ received, ports) =>
      { m with previousBlock := ports }.merge pins (received.headD default)
  | .readingDepth fragment depthAddress =>
    if inpCompleted then
      testDepth f pins fragment depthAddress inpData
        { m with memory := { m.memory with enable := false, address := 0 } }
    else { m with memory := { m.memory with enable := false } }
  | .writingDepth fragment =>
    if inpCompleted then
      { m with memory := { m.memory with enable := false, address := 0, data := 0 } }.writeColor
        pins fragment
    else { m with memory := { m.memory with enable := false } }
  | .writingColor =>
    if inpCompleted then
      { m with memory := { m.memory with enable := false, address := 0, data := 0 } }.receive
    else { m with memory := { m.memory with enable := false } }
  | .aborted _ => m

/-! ### Between two clocks -/

def awaiting (m : OutputMerger) : Bool :=
  match m.pc with
  | .readingDepth _ _ | .writingDepth _ | .writingColor => true
  | _ => false

def Aborted (m : OutputMerger) : Prop := ∃ e, m.pc = .aborted e

instance (m : OutputMerger) : Decidable m.Aborted :=
  decidable_of_iff ((match m.pc with | .aborted _ => true | _ => false) = true) (by
    unfold Aborted
    cases m.pc <;> simp)

/-- Waiting for a fragment. -/
structure Idle (m : OutputMerger) : Prop where
  pc : ∃ call, m.pc = .receiving call ∧ call.AtHandshake
  enable : m.memory.enable = false

/-- The block is busy from the clock of a fragment until it waits for the next one. -/
def Tracked (m : OutputMerger) : Prop :=
  match m.pc with
  | .receiving call => call.Holds m.previousBlock ∧ m.memory.enable = false
  | .readingDepth _ _ | .writingDepth _ | .writingColor => m.outBusy = true
  | .aborted _ => m.memory.enable = false

variable {f} {m : OutputMerger} {pins : OutputMergerPins}

theorem tracked_new : new.Tracked := ⟨rfl, rfl⟩

theorem Tracked.idle (h : m.Tracked) (hbusy : m.outBusy = false) (hrunning : ¬ m.Aborted) :
    m.Idle := by
  unfold Tracked at h
  cases hpc : m.pc with
  | receiving call =>
    rw [hpc] at h
    obtain ⟨hholds, hlow⟩ := h
    refine ⟨⟨call, hpc, ?_⟩, hlow⟩
    cases call with
    | acknowledge clocksWaiting => trivial
    | stalled clocksWaiting => trivial
    | package dataReceived packagesReceived =>
      rw [outBusy, hholds.2] at hbusy
      cases hbusy
  | aborted e => exact absurd ⟨e, hpc⟩ hrunning
  | readingDepth fragment depthAddress =>
    rw [hpc, hbusy] at h
    cases h
  | writingDepth fragment =>
    rw [hpc, hbusy] at h
    cases h
  | writingColor =>
    rw [hpc, hbusy] at h
    cases h

theorem receive_spec (hlow : m.memory.enable = false) :
    m.receive.Tracked ∧ m.receive.awaiting = m.receive.memory.enable :=
  ⟨⟨rfl, hlow⟩, hlow.symm⟩

theorem merge_spec (hbusy : m.outBusy = true) (fragment : ShadedFragment) :
    (m.merge pins fragment).Tracked ∧
    (m.merge pins fragment).awaiting = (m.merge pins fragment).memory.enable := by
  unfold merge
  split
  · exact ⟨hbusy, rfl⟩
  · exact ⟨hbusy, rfl⟩

theorem testDepth_spec (hbusy : m.outBusy = true) (hlow : m.memory.enable = false)
    (fragment : ShadedFragment) (depthAddress : MemoryAddressType) (inpData : MemoryDataType) :
    (testDepth f pins fragment depthAddress inpData m).Tracked ∧
    (testDepth f pins fragment depthAddress inpData m).awaiting =
      (testDepth f pins fragment depthAddress inpData m).memory.enable := by
  unfold testDepth
  dsimp only
  split
  · exact receive_spec hlow
  · split
    · exact ⟨hbusy, rfl⟩
    · exact ⟨hbusy, rfl⟩

theorem step_spec (h : m.Tracked) (pins : OutputMergerPins) (inpSending : Bool)
    (inpFragment : Nat → ShadedFragment) (inpCompleted : Bool) (inpData : MemoryDataType) :
    (m.step f pins inpSending inpFragment inpCompleted inpData).Tracked ∧
    Obeys inpCompleted m.awaiting
      (m.step f pins inpSending inpFragment inpCompleted inpData).awaiting
      (m.step f pins inpSending inpFragment inpCompleted inpData).memory.enable := by
  have htracked := h
  unfold Tracked at h
  unfold step
  cases hpc : m.pc with
  | receiving call =>
    rw [hpc] at h
    obtain ⟨hholds, hlow⟩ := h
    have hfree : m.awaiting = false := by rw [awaiting, hpc]
    dsimp only
    split
    · next call' ports hresume =>
      have hnext := ReceiveCall.resume_holds rfl rfl hholds hresume
      exact ⟨⟨hnext, hlow⟩, obeys_free hfree hlow.symm⟩
    · next received ports hresume =>
      have hnext := ReceiveCall.resume_holds rfl rfl hholds hresume
      obtain ⟨hmerge, heq⟩ := @merge_spec { m with previousBlock := ports } pins hnext.2
        (received.headD default)
      exact ⟨hmerge, obeys_free hfree heq⟩
  | readingDepth fragment depthAddress =>
    rw [hpc] at h
    have hwaits : m.awaiting = true := by rw [awaiting, hpc]
    dsimp only
    cases inpCompleted with
    | false =>
      rw [if_neg (by decide), hwaits]
      exact ⟨h, rfl, rfl⟩
    | true =>
      rw [if_pos rfl, hwaits]
      exact @testDepth_spec F f { m with memory := { m.memory with enable := false, address := 0 } }
        pins h rfl fragment depthAddress inpData
  | writingDepth fragment =>
    rw [hpc] at h
    have hwaits : m.awaiting = true := by rw [awaiting, hpc]
    dsimp only
    cases inpCompleted with
    | false =>
      rw [if_neg (by decide), hwaits]
      exact ⟨h, rfl, rfl⟩
    | true =>
      rw [if_pos rfl, hwaits]
      exact ⟨h, rfl⟩
  | writingColor =>
    rw [hpc] at h
    have hwaits : m.awaiting = true := by rw [awaiting, hpc]
    dsimp only
    cases inpCompleted with
    | false =>
      rw [if_neg (by decide), hwaits]
      exact ⟨h, rfl, rfl⟩
    | true =>
      rw [if_pos rfl, hwaits]
      exact @receive_spec { m with memory := { m.memory with enable := false, address := 0, data := 0 } } rfl
  | aborted e =>
    rw [hpc] at h
    have hfree : m.awaiting = false := by rw [awaiting, hpc]
    exact ⟨htracked, obeys_free hfree (hfree.trans h.symm)⟩

theorem Aborted.step (h : m.Aborted) (pins : OutputMergerPins) (inpSending : Bool)
    (inpFragment : Nat → ShadedFragment) (inpCompleted : Bool) (inpData : MemoryDataType) :
    (m.step f pins inpSending inpFragment inpCompleted inpData).Aborted := by
  obtain ⟨e, hpc⟩ := h
  unfold OutputMerger.step
  rw [hpc]
  exact ⟨e, hpc⟩

theorem Idle.awaiting (h : m.Idle) : m.awaiting = false := by
  obtain ⟨⟨call, hpc, -⟩, -⟩ := h
  rw [OutputMerger.awaiting, hpc]

theorem Idle.step (h : m.Idle) (pins : OutputMergerPins) (inpFragment : Nat → ShadedFragment)
    (inpCompleted : Bool) (inpData : MemoryDataType) :
    (m.step f pins false inpFragment inpCompleted inpData).Idle := by
  obtain ⟨⟨call, hpc, hcall⟩, hlow⟩ := h
  obtain ⟨clocks, hresume⟩ :=
    @ReceiveCall.resume_silent _ (Transfer.receive true) rfl inpFragment m.previousBlock call hcall
  unfold OutputMerger.step
  rw [hpc]
  dsimp only
  rw [hresume]
  exact ⟨⟨_, rfl, trivial⟩, hlow⟩

end OutputMerger

end PicoGpu
