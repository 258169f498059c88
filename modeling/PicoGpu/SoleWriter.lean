import PicoGpu.MemoryClients
import PicoGpu.MemorySystem

/- A block at a port of the memory controller, behind which the other clients only read.
   The block is followed by a `MemorySystem` whose client at the port does what the block
   does (`StandsFor`), so that its accesses are those of the atomic memory, and the memory
   is changed by the block alone. -/
namespace PicoGpu
open Clocked Atomic

/-! ## A client that alone writes -/

def MemoryOperation.IsRead : MemoryOperation → Prop
  | read _ => True
  | write _ _ => False

def ClientAction.ReadsOnly {size : Nat} : ClientAction size → Prop
  | rest _ => True
  | issue q => q.signals.write = false

theorem atomicMemory_read {o : MemoryOperation} (h : o.IsRead)
    (m : MemoryAddressType → MemoryDataType) : (atomicMemory m o).1 = m := by
  cases o with
  | read address => rfl
  | write address data => exact h.elim

section
variable {last size : Nat} {port : Fin (last + 1)} {rawMemory : Fin size → MemoryDataType}
  {s : MemorySystem last size}

/-- The other clients have only read. -/
def OnlyWriter (port : Fin (last + 1)) (s : MemorySystem last size) : Prop :=
  ∀ i, i ≠ port → ∀ o ∈ (s.clients i).issued, o.IsRead

theorem onlyWriter_step (h : OnlyWriter port s) {env : MemoryEnvironment last size} {clock : Nat}
    (hactions : ∀ i, i ≠ port → (env.actions clock i).ReadsOnly) :
    OnlyWriter port (s.step env clock) := by
  intro i hi o ho
  have hreads := hactions i hi
  rw [step_clients] at ho
  have hissued : ∀ c : MemoryClient, (∀ o ∈ c.issued, o.IsRead) →
      ∀ o ∈ (c.act (env.actions clock i)).issued, o.IsRead := by
    intro c hc o ho
    cases haction : env.actions clock i with
    | rest lines =>
      rw [haction] at ho
      exact hc o ho
    | issue q =>
      rw [haction] at ho hreads
      unfold MemoryClient.act at ho
      dsimp only at ho
      split at ho
      · exact hc o ho
      · obtain ho | ho := List.mem_append.mp ho
        · exact hc o ho
        · have hwrite : q.signals.write = false := hreads
          rw [List.mem_singleton.mp ho, MemorySignals.operation, hwrite]
          trivial
  apply hissued _ _ o ho
  rw [MemoryClient.hear_issued]
  exact h i hi

/-- What was served for the port is all that has changed the memory. -/
theorem served_alone (hinv : MemoryInv rawMemory s) (hwriter : OnlyWriter port s) :
    state atomicMemory (initialMemory rawMemory) s.served =
        stateAfter atomicMemory (initialMemory rawMemory) (ofClient port s.served) ∧
      ofClient port (results atomicMemory (initialMemory rawMemory) s.served) =
        replies atomicMemory (initialMemory rawMemory) (ofClient port s.served) := by
  apply only_client
  intro x hx hne m
  obtain ⟨pending, -, -, -, hissued, -⟩ := hinv.clients x.1
  apply atomicMemory_read
  apply hwriter x.1 hne
  rw [hissued]
  exact List.mem_append_left _ (mem_ofClient.mpr hx)

theorem state_of_free (hinv : MemoryInv rawMemory s) (hwriter : OnlyWriter port s)
    (hfree : (s.clients port).awaiting = false) :
    state atomicMemory (initialMemory rawMemory) s.served =
      stateAfter atomicMemory (initialMemory rawMemory) (s.clients port).issued := by
  obtain ⟨pending, coming, hat, -, hissued, -⟩ := hinv.clients port
  rw [(served_alone hinv hwriter).1, hissued]
  -- a free client has no operation pending
  cases hat with
  | idle => rw [List.append_nil]
  | pulsing ha => rw [hfree] at ha; cases ha
  | queued ha => rw [hfree] at ha; cases ha
  | performed ha => rw [hfree] at ha; cases ha
  | answered ha => rw [hfree] at ha; cases ha

/-- The data shown with `completed` answers the last operation. -/
theorem answer_of_completed (hinv : MemoryInv rawMemory s) (hwriter : OnlyWriter port s)
    (hcompleted : s.controller.outCompleted port = true) {earlier : List MemoryOperation}
    {o : MemoryOperation} (hlast : (s.clients port).issued = earlier ++ [o]) :
    s.controller.outData =
      (atomicMemory (stateAfter atomicMemory (initialMemory rawMemory) earlier) o).2 := by
  obtain ⟨pending, coming, hat, -, hissued, hanswers⟩ := hinv.clients port
  rw [(served_alone hinv hwriter).2] at hanswers
  cases hat with
  | idle _ _ _ hlow => rw [hcompleted] at hlow; cases hlow
  | pulsing _ _ _ hlow => rw [hcompleted] at hlow; cases hlow
  | queued _ _ _ hlow => rw [hcompleted] at hlow; cases hlow
  | performed _ _ _ hlow => rw [hcompleted] at hlow; cases hlow
  | answered =>
    rw [List.append_nil] at hissued
    rw [← hissued, hlast, replies_concat] at hanswers
    have hsame := (List.append_inj' hanswers rfl).2
    exact (List.cons.inj hsame).1.symm

end

/-! ## The array behind the addresses -/

theorem aligned_address (address : MemoryAddressType) :
    ∃ aligned : MemoryAddressType, aligned.toNat % 4 = 0 ∧
      addressIndex aligned = addressIndex address := by
  have hlt := address.isLt
  refine ⟨BitVec.ofNat 32 (address.toNat / 4 * 4), ?_, ?_⟩
  · rw [BitVec.toNat_ofNat]
    omega
  · have hmsb := BitVec.msb_eq_decide address
    have hmsb' := BitVec.msb_eq_decide (BitVec.ofNat 32 (address.toNat / 4 * 4))
    unfold addressIndex
    rw [BitVec.toNat_signExtend, BitVec.toNat_signExtend, BitVec.toNat_setWidth,
      BitVec.toNat_setWidth, hmsb, hmsb', BitVec.toNat_ofNat]
    simp only [decide_eq_true_eq]
    split <;> split <;> omega

/-- No access reaches a dword that has no address. -/
theorem work_unaddressed {size : Nat} (memory : Memory size) (inp : MemorySignals) {i : Fin size}
    (h : ∀ address, ValidAddress size address → addressIndex address ≠ i) :
    (memory.work inp).rawMemory i = memory.rawMemory i := by
  unfold Memory.work
  split
  · rfl
  split
  · show store memory.rawMemory (addressIndex inp.address) inp.data i = _
    unfold store
    split
    next hlt =>
      have hne : i ≠ ⟨addressIndex inp.address, hlt⟩ := by
        rintro rfl
        obtain ⟨aligned, haligned, hindex⟩ := aligned_address inp.address
        exact h aligned ⟨haligned, by rw [hindex]; exact hlt⟩ hindex
      rw [Function.update_of_ne hne]
    next => rfl
  · rfl

/-! ## A client that does what a block does -/

/-- What a block issues that shows these signals. -/
def MemorySignals.issues (ports : MemorySignals) : List MemoryOperation :=
  if ports.enable then [ports.operation] else []

section
variable {last size : Nat} {port : Fin (last + 1)} {rawMemory : Fin size → MemoryDataType}
  {controller : MemoryController last} {memory : Memory size}
  {clients : Fin (last + 1) → MemoryClient} {ports ports' : MemorySignals}
  {awaiting awaiting' : Bool} {ms : MemorySystem last size}

/-- The memory system goes the way of these parts, with a block that shows `ports` as its
    client at the port. -/
structure StandsFor (port : Fin (last + 1)) (rawMemory : Fin size → MemoryDataType)
    (controller : MemoryController last) (memory : Memory size)
    (clients : Fin (last + 1) → MemoryClient) (ports : MemorySignals) (awaiting : Bool)
    (ms : MemorySystem last size) : Prop where
  controller : ms.controller = controller
  memory : ms.memory = memory
  clients : ∀ i, i ≠ port → ms.clients i = clients i
  ports : (ms.clients port).ports = ports
  awaiting : (ms.clients port).awaiting = awaiting
  inv : MemoryInv rawMemory ms
  writer : OnlyWriter port ms
  unaddressed : ∀ i : Fin size, (∀ address, ValidAddress size address → addressIndex address ≠ i) →
    ms.memory.rawMemory i = rawMemory i

theorem standsFor_init (port : Fin (last + 1)) (rawMemory : Fin size → MemoryDataType) :
    StandsFor port rawMemory (.init last) ⟨rawMemory, 0, false⟩ (fun _ => ⟨false, .low, [], []⟩)
      .low false (MemorySystem.init rawMemory) where
  controller := rfl
  memory := rfl
  clients := fun _ _ => rfl
  ports := rfl
  awaiting := rfl
  inv := memoryInv_init rawMemory
  writer := by
    intro i _ o ho
    cases ho
  unaddressed := fun _ _ => rfl

theorem issues_low (h : ports.enable = false) : ports.issues = [] := by
  rw [MemorySignals.issues, h]
  rfl

/-- A client that is let do what the block does. -/
theorem client_does {c : MemoryClient} {completed : Bool} (inpData : MemoryDataType)
    (hobeys : Obeys completed c.awaiting awaiting' ports'.enable)
    (hvalid : ∀ o ∈ ports'.issues, ValidAddress size o.address) :
    ∃ action : ClientAction size,
      ((c.hear completed inpData).act action).ports = ports' ∧
      ((c.hear completed inpData).act action).awaiting = awaiting' ∧
      ((c.hear completed inpData).act action).issued = c.issued ++ ports'.issues := by
  have hheard := MemoryClient.hear_issued completed inpData c
  cases henable : ports'.enable with
  | false =>
    -- nothing is issued: the client only shows the address and the data
    have hlines : { ports' with enable := false } = ports' := by rw [← henable]
    refine ⟨.rest ports', hlines, ?_, ?_⟩
    · rw [henable, Obeys] at hobeys
      unfold MemoryClient.act MemoryClient.hear
      cases hwaits : c.awaiting <;> cases completed <;> simp_all
    · rw [issues_low henable, List.append_nil]
      exact hheard
  | true =>
    -- a pulse: it comes only with no answer outstanding, so that the client may issue
    have hissues : ports'.issues = [ports'.operation] := by
      rw [MemorySignals.issues, if_pos henable]
    have hlines : { ports' with enable := true } = ports' := by rw [← henable]
    have hfree : (c.hear completed inpData).awaiting = false := by
      rw [henable, Obeys] at hobeys
      unfold MemoryClient.hear
      cases hwaits : c.awaiting <;> cases completed <;> simp_all
    have hwaits' : awaiting' = true := by
      rw [henable, Obeys] at hobeys
      split at hobeys
      · exact hobeys.1
      · exact hobeys
    refine ⟨.issue ⟨ports', hvalid _ (by rw [hissues]; exact List.mem_singleton_self _)⟩, ?_⟩
    simp only [MemoryClient.act, hfree, Bool.false_eq_true, if_false, hlines, hheard, hissues,
      hwaits', and_self]

theorem standsFor_step
    (h : StandsFor port rawMemory controller memory clients ports awaiting ms)
    {env : MemoryEnvironment last size} {clock : Nat}
    (hobeys : Obeys (controller.outCompleted port) awaiting awaiting' ports'.enable)
    (hactions : ∀ i, i ≠ port → (env.actions clock i).ReadsOnly)
    (hvalid : ∀ o ∈ ports'.issues, ValidAddress size o.address) :
    ∃ env', StandsFor port rawMemory
        (controller.step (env.listenLast clock)
          (Function.update (fun i => (clients i).ports) port ports) memory.outData
          memory.outCompleted)
        (memory.work controller.memory)
        (fun i => ((clients i).hear (controller.outCompleted i) controller.outData).act
          (env.actions clock i)) ports' awaiting' (ms.step env' clock) ∧
      ((ms.step env' clock).clients port).issued = (ms.clients port).issued ++ ports'.issues := by
  rw [← h.awaiting] at hobeys
  obtain ⟨action, hports, hawaiting, hissued⟩ :=
    client_does controller.outData hobeys hvalid
  -- the same environment, except at the port
  let env' : MemoryEnvironment last size :=
    { env with actions := fun n => Function.update (env.actions n) port action }
  have hlines : (fun i => (ms.clients i).ports) =
      Function.update (fun i => (clients i).ports) port ports := by
    funext i
    by_cases hi : i = port
    · subst hi
      rw [Function.update_self, h.ports]
    · rw [Function.update_of_ne hi, h.clients i hi]
  have hclient : (ms.step env' clock).clients port =
      ((ms.clients port).hear (controller.outCompleted port) controller.outData).act action := by
    have hact : env'.actions clock port = action := by
      show Function.update (env.actions clock) port action port = action
      rw [Function.update_self]
    rw [step_clients, h.controller, hact]
  refine ⟨env', ⟨?_, ?_, fun i hi => ?_, ?_, ?_, memoryInv_step h.inv, ?_, fun i hi => ?_⟩, ?_⟩
  · rw [step_controller, hlines, h.controller, h.memory]
  · show ms.memory.work ms.controller.memory = memory.work controller.memory
    rw [h.controller, h.memory]
  · have hact : env'.actions clock i = env.actions clock i := by
      show Function.update (env.actions clock) port action i = _
      rw [Function.update_of_ne hi]
    rw [step_clients, h.clients i hi, h.controller, hact]
  · rw [hclient]
    exact hports
  · rw [hclient]
    exact hawaiting
  · apply onlyWriter_step h.writer
    intro i hi
    show (Function.update (env.actions clock) port action i).ReadsOnly
    rw [Function.update_of_ne hi]
    exact hactions i hi
  · show (ms.memory.work ms.controller.memory).rawMemory i = _
    rw [work_unaddressed _ _ hi, h.unaddressed i hi]
  · rw [hclient]
    exact hissued

end

end PicoGpu
