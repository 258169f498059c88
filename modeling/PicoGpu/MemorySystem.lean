import PicoGpu.Lib.Clocked
import PicoGpu.Lib.Atomic
import PicoGpu.Memory

/- `Memory` behind a `MemoryController` with any number of clients. A client
   raises its enable signal for one clock together with the rest of its request
   and raises it again only when it has seen `completed`, at the earliest in the
   clock in which it sees it. Everything else about the clients is left to the
   environment: when they issue, what, and what their other lines show meanwhile.

   The memory's own order of operations is the order of the atomic memory that
   the clients see (`memory_atomic`). The invariant follows one request through
   `ClientAt`: in the client's ports, latched, performed, answered. -/
namespace PicoGpu
open Clocked Atomic

/-- A request a client may issue; its enable field is not used. -/
structure MemoryRequest (size : Nat) where
  signals : MemorySignals
  valid : ValidAddress size signals.operation.address

/-- What the environment lets a client do in a clock. -/
inductive ClientAction (size : Nat) where
  | rest (lines : MemorySignals)
  | issue (request : MemoryRequest size)

/-- A client: whether it waits for `completed`, the operations it has issued, and
    `outData` in each clock in which it saw `completed`. -/
structure MemoryClient where
  awaiting : Bool
  ports : MemorySignals
  issued : List MemoryOperation
  answers : List MemoryDataType

section
variable {last size : Nat}

def MemoryClient.hear (inpCompleted : Bool) (inpData : MemoryDataType) (c : MemoryClient) :
    MemoryClient :=
  if inpCompleted then { c with awaiting := false, answers := c.answers ++ [inpData] } else c

def MemoryClient.act (action : ClientAction size) (c : MemoryClient) : MemoryClient :=
  match action with
  | .rest lines => { c with ports := { lines with enable := false } }
  | .issue q =>
    if c.awaiting then { c with ports := { q.signals with enable := false } }
    else
      { c with
        awaiting := true
        ports := { q.signals with enable := true }
        issued := c.issued ++ [q.signals.operation] }

structure MemorySystem (last size : Nat) where
  clients : Fin (last + 1) → MemoryClient
  controller : MemoryController last
  memory : Memory size
  /-- the operations of the memory, each with the client it was performed for -/
  served : List (Fin (last + 1) × MemoryOperation)

/-- What is not fixed by the source: what the clients do, and which of the two
    writers of a latched enable signal comes last. -/
structure MemoryEnvironment (last size : Nat) where
  actions : Nat → Fin (last + 1) → ClientAction size
  listenLast : Nat → Bool

namespace MemorySystem

def init (rawMemory : Fin size → MemoryDataType) : MemorySystem last size where
  clients := fun _ => ⟨false, .low, [], []⟩
  controller := .init last
  memory := ⟨rawMemory, 0, false⟩
  served := []

def step (env : MemoryEnvironment last size) (clock : Nat) (s : MemorySystem last size) :
    MemorySystem last size where
  clients := fun i => ((s.clients i).hear (s.controller.outCompleted i) s.controller.outData).act
    (env.actions clock i)
  controller := s.controller.step (env.listenLast clock) (fun i => (s.clients i).ports)
    s.memory.outData s.memory.outCompleted
  memory := s.memory.work s.controller.memory
  served := s.served ++
    if s.controller.memory.enable then
      [(s.controller.currentClient, s.controller.memory.operation)]
    else []

def after (env : MemoryEnvironment last size) (rawMemory : Fin size → MemoryDataType) :
    Nat → MemorySystem last size :=
  run (step env) (init rawMemory)

end MemorySystem

/-- What the atomic memory holds before the first operation. -/
def initialMemory (rawMemory : Fin size → MemoryDataType) : MemoryAddressType → MemoryDataType :=
  fun address => load rawMemory (addressIndex address)

/-! ## One client -/

theorem MemoryClient.hear_low {inpCompleted : Bool} (h : inpCompleted = false)
    (inpData : MemoryDataType) (c : MemoryClient) : c.hear inpCompleted inpData = c := by
  unfold MemoryClient.hear
  rw [h]
  rfl

theorem MemoryClient.act_answers (action : ClientAction size) (c : MemoryClient) :
    (c.act action).answers = c.answers := by
  unfold MemoryClient.act
  split
  · rfl
  · split <;> rfl

theorem MemoryClient.act_issued (action : ClientAction size) (c : MemoryClient) :
    c.issued.length ≤ (c.act action).issued.length := by
  unfold MemoryClient.act
  split
  · exact Nat.le_refl _
  · split <;> simp

theorem MemoryClient.hear_issued (inpCompleted : Bool) (inpData : MemoryDataType)
    (c : MemoryClient) : (c.hear inpCompleted inpData).issued = c.issued := by
  unfold MemoryClient.hear
  split <;> rfl

/-- What a client that is free does: nothing, or a new request. -/
theorem MemoryClient.act_free (action : ClientAction size) {c : MemoryClient}
    (h : c.awaiting = false) :
    let c' := c.act action
    c'.answers = c.answers ∧
    ((c'.awaiting = false ∧ c'.ports.enable = false ∧ c'.issued = c.issued) ∨
      (c'.awaiting = true ∧ c'.ports.enable = true ∧
        ValidAddress size c'.ports.operation.address ∧
        c'.issued = c.issued ++ [c'.ports.operation])) := by
  cases action with
  | rest lines => exact ⟨rfl, Or.inl ⟨h, rfl, rfl⟩⟩
  | issue q =>
    simp only [MemoryClient.act, h]
    exact ⟨rfl, Or.inr ⟨rfl, rfl, q.valid, rfl⟩⟩

/-- A client that waits only lowers its enable signal. -/
theorem MemoryClient.act_awaiting (action : ClientAction size) {c : MemoryClient}
    (h : c.awaiting = true) :
    (c.act action).awaiting = true ∧ (c.act action).ports.enable = false ∧
    (c.act action).issued = c.issued ∧ (c.act action).answers = c.answers := by
  cases action with
  | rest lines => exact ⟨h, rfl, rfl, rfl⟩
  | issue q =>
    simp only [MemoryClient.act, h]
    exact ⟨rfl, rfl, rfl, rfl⟩

/-! ## The invariant -/

/-- Where the request of client `i` is, with the operations it still has to get
    performed and the results it still has to be shown. -/
inductive ClientAt (s : MemorySystem last size) (i : Fin (last + 1)) :
    List MemoryOperation → List MemoryDataType → Prop
  | idle (ha : (s.clients i).awaiting = false) (he : (s.clients i).ports.enable = false)
      (hl : (s.controller.clientsLatched i).enable = false)
      (hc : s.controller.outCompleted i = false) : ClientAt s i [] []
  | pulsing (ha : (s.clients i).awaiting = true) (he : (s.clients i).ports.enable = true)
      (hl : (s.controller.clientsLatched i).enable = false)
      (hc : s.controller.outCompleted i = false) :
      ClientAt s i [(s.clients i).ports.operation] []
  | queued (ha : (s.clients i).awaiting = true) (he : (s.clients i).ports.enable = false)
      (hl : (s.controller.clientsLatched i).enable = true)
      (hc : s.controller.outCompleted i = false)
      (hw : ∀ w, s.controller.pc = .waiting w → s.controller.currentClient ≠ i) :
      ClientAt s i [(s.controller.clientsLatched i).operation] []
  | performed (ha : (s.clients i).awaiting = true) (he : (s.clients i).ports.enable = false)
      (hl : (s.controller.clientsLatched i).enable = true)
      (hc : s.controller.outCompleted i = false)
      (w : Bool) (hw : s.controller.pc = .waiting w) (hi : s.controller.currentClient = i) :
      ClientAt s i [] [s.memory.outData]
  | answered (ha : (s.clients i).awaiting = true) (he : (s.clients i).ports.enable = false)
      (hl : (s.controller.clientsLatched i).enable = false)
      (hc : s.controller.outCompleted i = true) : ClientAt s i [] [s.controller.outData]

/-- What holds of the controller and the memory at each `wait()` of `main`. -/
def ControllerAt (s : MemorySystem last size) : Prop :=
  match s.controller.pc with
  | .scanning => s.controller.memory.enable = false ∧
      (∀ i, s.controller.outCompleted i = true → s.controller.clientForOutputClear = some i) ∧
      (s.controller.clientForOutputClear = none → s.controller.outData = 0)
  | .issued w => s.controller.memory.enable = true ∧ s.controller.memory.write = w ∧
      s.controller.memory.operation =
        (s.controller.clientsLatched s.controller.currentClient).operation ∧
      (s.controller.clientsLatched s.controller.currentClient).enable = true ∧
      (∀ i, s.controller.outCompleted i = false) ∧ s.controller.outData = 0
  | .waiting w => s.controller.memory.enable = false ∧ s.memory.outCompleted = true ∧
      (w = true → s.memory.outData = 0) ∧
      (s.controller.clientsLatched s.controller.currentClient).enable = true ∧
      (∀ i, s.controller.outCompleted i = false) ∧ s.controller.outData = 0

/-- The account of client `i`: every operation it issued is served or still
    pending, every result of a served one has been shown to it or is coming. -/
def ClientInv (rawMemory : Fin size → MemoryDataType) (s : MemorySystem last size)
    (i : Fin (last + 1)) : Prop :=
  ∃ pending coming, ClientAt s i pending coming ∧
    (∀ o ∈ pending, ValidAddress size o.address) ∧
    (s.clients i).issued = ofClient i s.served ++ pending ∧
    ofClient i (results atomicMemory (initialMemory rawMemory) s.served) =
      (s.clients i).answers ++ coming

structure MemoryInv (rawMemory : Fin size → MemoryDataType) (s : MemorySystem last size) : Prop where
  controller : ControllerAt s
  holds : Holds s.memory.rawMemory (state atomicMemory (initialMemory rawMemory) s.served)
  clients : ∀ i, ClientInv rawMemory s i

theorem memoryInv_init (rawMemory : Fin size → MemoryDataType) :
    MemoryInv rawMemory (MemorySystem.init rawMemory : MemorySystem last size) where
  controller := ⟨rfl, fun i h => absurd h (by simp [MemorySystem.init, MemoryController.init]),
    fun _ => rfl⟩
  holds := fun _ _ => rfl
  clients := fun i => ⟨[], [], .idle rfl rfl rfl rfl, by simp, rfl, rfl⟩

/-! ## One client through one clock -/

variable {rawMemory : Fin size → MemoryDataType} {s : MemorySystem last size} {i : Fin (last + 1)}
  {env : MemoryEnvironment last size} {clock : Nat}

theorem step_controller (s : MemorySystem last size) (env : MemoryEnvironment last size)
    (clock : Nat) : (s.step env clock).controller =
      s.controller.step (env.listenLast clock) (fun i => (s.clients i).ports) s.memory.outData
        s.memory.outCompleted := rfl

theorem step_clients (s : MemorySystem last size) (i : Fin (last + 1))
    (env : MemoryEnvironment last size) (clock : Nat) : (s.step env clock).clients i =
      ((s.clients i).hear (s.controller.outCompleted i) s.controller.outData).act
        (env.actions clock i) := rfl

/-- The memory does not serve client `i` in this clock. -/
def NotServed (s : MemorySystem last size) (i : Fin (last + 1)) : Prop :=
  s.controller.memory.enable = true → s.controller.currentClient ≠ i

/-- The account of client `i` in a clock that does not serve it. -/
theorem served_other (rawMemory : Fin size → MemoryDataType) (env : MemoryEnvironment last size)
    (clock : Nat) (h : NotServed s i) :
    ofClient i (s.step env clock).served = ofClient i s.served ∧
    ofClient i (results atomicMemory (initialMemory rawMemory) (s.step env clock).served) =
      ofClient i (results atomicMemory (initialMemory rawMemory) s.served) := by
  unfold MemorySystem.step
  cases he : s.controller.memory.enable with
  | false => simp
  | true =>
    simp only [if_true]
    rw [ofClient_concat_ne (h he), results_concat, ofClient_concat_ne (h he)]
    exact ⟨rfl, rfl⟩

/-- A client that is free, with its account settled, is free again or issues. -/
theorem clientInv_free (hn : NotServed s i)
    (hfree : ((s.clients i).hear (s.controller.outCompleted i) s.controller.outData).awaiting = false)
    (hissued : ((s.clients i).hear (s.controller.outCompleted i) s.controller.outData).issued =
      ofClient i s.served)
    (hanswers : ((s.clients i).hear (s.controller.outCompleted i) s.controller.outData).answers =
      ofClient i (results atomicMemory (initialMemory rawMemory) s.served))
    (hl : ((s.step env clock).controller.clientsLatched i).enable = false)
    (hc : (s.step env clock).controller.outCompleted i = false) :
    ClientInv rawMemory (s.step env clock) i := by
  obtain ⟨hserved, hresults⟩ := served_other rawMemory env clock hn
  obtain ⟨hans, ⟨ha, he, hi⟩ | ⟨ha, he, hv, hi⟩⟩ := MemoryClient.act_free (env.actions clock i) hfree
  · refine ⟨[], [], .idle ha he hl hc, by simp, ?_, ?_⟩
    · rw [hserved, List.append_nil, ← hissued]; exact hi
    · rw [hresults, List.append_nil, ← hanswers]; exact hans.symm
  · refine ⟨_, [], .pulsing ha he hl hc, ?_, ?_, ?_⟩
    · intro o ho
      rw [List.mem_singleton.mp ho]
      exact hv
    · rw [hserved, ← hissued]; exact hi
    · rw [hresults, List.append_nil, ← hanswers]; exact hans.symm

/-- A client that waits, in a clock in which it does not see `completed`. -/
theorem step_awaiting (env : MemoryEnvironment last size) (clock : Nat)
    (ha : (s.clients i).awaiting = true) (hc : s.controller.outCompleted i = false) :
    let c := (s.step env clock).clients i
    c.awaiting = true ∧ c.ports.enable = false ∧ c.issued = (s.clients i).issued ∧
      c.answers = (s.clients i).answers := by
  have hstep : (s.step env clock).clients i = (s.clients i).act (env.actions clock i) := by
    rw [step_clients, MemoryClient.hear_low hc]
  rw [hstep]
  exact MemoryClient.act_awaiting _ ha

/-- The account of a client that waits and is not served, wherever its request goes. -/
theorem clientInv_waiting {pending pending' : List MemoryOperation}
    {coming coming' : List MemoryDataType} (hn : NotServed s i)
    (ha : (s.clients i).awaiting = true) (hc : s.controller.outCompleted i = false)
    (hvalid : ∀ o ∈ pending, ValidAddress size o.address)
    (hissued : (s.clients i).issued = ofClient i s.served ++ pending)
    (hanswers : ofClient i (results atomicMemory (initialMemory rawMemory) s.served) =
      (s.clients i).answers ++ coming)
    (hp : pending' = pending) (hco : coming' = coming)
    (hat : ClientAt (s.step env clock) i pending' coming') :
    ClientInv rawMemory (s.step env clock) i := by
  subst hp hco
  obtain ⟨-, -, hi, han⟩ := step_awaiting env clock ha hc
  obtain ⟨hserved, hresults⟩ := served_other rawMemory env clock hn
  refine ⟨_, _, hat, hvalid, ?_, ?_⟩
  · rw [hi, hserved, hissued]
  · rw [hresults, han, hanswers]

/-- Every client the controller neither serves nor answers in this clock. -/
theorem clientInv_other (h : ClientInv rawMemory s i) (hn : NotServed s i)
    (hcomp : s.controller.completing s.memory.outCompleted ≠ some i)
    (hwait : ∀ w, s.controller.pc = .waiting w → s.controller.currentClient ≠ i)
    (hc : (s.step env clock).controller.outCompleted i = false)
    (hwait' : ∀ w, (s.step env clock).controller.pc = .waiting w →
      (s.step env clock).controller.currentClient ≠ i) :
    ClientInv rawMemory (s.step env clock) i := by
  have hlatched : (s.step env clock).controller.clientsLatched i =
      MemoryController.listenClients (s.clients i).ports (s.controller.clientsLatched i) :=
    MemoryController.step_latched hcomp _ _
  obtain ⟨pending, coming, hat, hvalid, hissued, hanswers⟩ := h
  cases hat with
  | idle ha he hl hco =>
    have hh := MemoryClient.hear_low hco s.controller.outData (s.clients i)
    refine clientInv_free hn ?_ ?_ ?_ (MemoryController.step_latched_quiet he hl _) hc
    · rw [hh]; exact ha
    · rw [hh, hissued, List.append_nil]
    · rw [hh, hanswers, List.append_nil]
  | answered ha he hl hco =>
    have hh : (s.clients i).hear (s.controller.outCompleted i) s.controller.outData =
        { s.clients i with
          awaiting := false
          answers := (s.clients i).answers ++ [s.controller.outData] } := by
      unfold MemoryClient.hear
      rw [hco]
      rfl
    refine clientInv_free hn ?_ ?_ ?_ (MemoryController.step_latched_quiet he hl _) hc
    · rw [hh]
    · rw [hh]; exact hissued.trans (List.append_nil _)
    · rw [hh, hanswers]
  | pulsing ha he hl hco =>
    obtain ⟨ha', he', -, -⟩ := step_awaiting env clock ha hco
    rw [MemoryController.listenClients, if_pos he] at hlatched
    refine clientInv_waiting hn ha hco hvalid hissued hanswers ?_ rfl
      (.queued ha' he' (by rw [hlatched]) hc hwait')
    rw [hlatched]
    rfl
  | queued ha he hl hco hw =>
    obtain ⟨ha', he', -, -⟩ := step_awaiting env clock ha hco
    rw [MemoryController.listenClients, he] at hlatched
    refine clientInv_waiting hn ha hco hvalid hissued hanswers ?_ rfl
      (.queued ha' he' (by rw [hlatched]; exact hl) hc hwait')
    rw [hlatched]
    rfl
  | performed ha he hl hco w hw hi => exact absurd hi (hwait w hw)

/-- The client whose operation the memory performs in this clock. -/
theorem clientInv_served (env : MemoryEnvironment last size) (clock : Nat)
    (h : ClientInv rawMemory s i)
    (hholds : Holds s.memory.rawMemory (state atomicMemory (initialMemory rawMemory) s.served))
    (w : Bool) (hpc : s.controller.pc = .issued w) (hi : s.controller.currentClient = i)
    (hen : s.controller.memory.enable = true)
    (hop : s.controller.memory.operation = (s.controller.clientsLatched i).operation)
    (hl : (s.controller.clientsLatched i).enable = true)
    (hc : s.controller.outCompleted i = false) :
    ClientInv rawMemory (s.step env clock) i ∧
    ValidAddress size s.controller.memory.operation.address := by
  have hcomp : s.controller.completing s.memory.outCompleted ≠ some i := by
    simp [MemoryController.completing, hpc]
  have hlatched : (s.step env clock).controller.clientsLatched i =
      MemoryController.listenClients (s.clients i).ports (s.controller.clientsLatched i) :=
    MemoryController.step_latched hcomp _ _
  have hmain := MemoryController.main_issued s.memory.outData s.memory.outCompleted hpc
  have hserved : (s.step env clock).served =
      s.served ++ [(i, (s.controller.clientsLatched i).operation)] := by
    simp [MemorySystem.step, hen, hi, hop]
  obtain ⟨pending, coming, hat, hvalid, hissued, hanswers⟩ := h
  cases hat with
  | idle ha he hl' => simp [hl] at hl'
  | answered ha he hl' => simp [hl] at hl'
  | pulsing ha he hl' => simp [hl] at hl'
  | performed ha he hl' hco w' hw' => simp [hpc] at hw'
  | queued ha he hl' hco hw =>
    have hv : ValidAddress size s.controller.memory.operation.address := by
      rw [hop]; exact hvalid _ (List.mem_singleton.mpr rfl)
    obtain ⟨ha', he', hi', han'⟩ := step_awaiting env clock ha hco
    obtain ⟨-, hdata, -⟩ := Memory.work_enabled hholds hen hv
    rw [MemoryController.listenClients, he] at hlatched
    refine ⟨⟨[], _, .performed ha' he' (by rw [hlatched]; exact hl) ?_ w ?_ ?_, by simp, ?_, ?_⟩, hv⟩
    · rw [step_controller, MemoryController.step_outCompleted, hmain]; exact hc
    · rw [step_controller, MemoryController.step_pc, hmain]
    · rw [step_controller, MemoryController.step_currentClient, hmain]; exact hi
    · rw [hi', hissued, hserved, ofClient_concat_self, List.append_nil]
    · rw [han', hserved, results_concat, ofClient_concat_self, hanswers, List.append_nil]
      congr 2
      rw [← hop]
      exact hdata.symm

/-- The client whose request `main` completes in this clock. -/
theorem clientInv_completed (h : ClientInv rawMemory s i) (w : Bool)
    (hpc : s.controller.pc = .waiting w) (hi : s.controller.currentClient = i)
    (hdone : s.memory.outCompleted = true) (hlow : s.controller.memory.enable = false)
    (hdata : s.controller.outData = 0) (hwrite : w = true → s.memory.outData = 0)
    (hl : (s.controller.clientsLatched i).enable = true) :
    ClientInv rawMemory (s.step env clock) i := by
  have hcomp : s.controller.completing s.memory.outCompleted = some i := by
    simp [MemoryController.completing, hpc, hdone, hi]
  have hmain := MemoryController.main_waiting s.memory.outData hpc hdone
  have hn : NotServed s i := fun he => by simp [hlow] at he
  obtain ⟨pending, coming, hat, hvalid, hissued, hanswers⟩ := h
  cases hat with
  | idle ha he hl' => simp [hl] at hl'
  | answered ha he hl' => simp [hl] at hl'
  | pulsing ha he hl' => simp [hl] at hl'
  | queued ha he hl' hco hw => exact absurd hi (hw w hpc)
  | performed ha he hl' hco w' hw' =>
    obtain ⟨ha', he', -, -⟩ := step_awaiting env clock ha hco
    have hlatched : (s.step env clock).controller.clientsLatched i =
        { s.controller.clientsLatched i with enable := false } :=
      MemoryController.step_latched_completing hcomp he _
    refine clientInv_waiting hn ha hco hvalid hissued hanswers rfl ?_
      (.answered ha' he' (by rw [hlatched]) ?_)
    · show [(s.controller.main _ _).outData] = _
      rw [hmain]
      cases w with
      | true => rw [hwrite rfl]; exact congrArg (fun d => [d]) hdata
      | false => rfl
    · rw [step_controller, MemoryController.step_outCompleted, hmain]
      subst hi
      exact Function.update_self _ _ _

/-! ## One clock -/

/-- While a request is latched the client's own enable signal is low, so the
    latched values stay. -/
theorem latched_stays (h : ClientInv rawMemory s i)
    (hl : (s.controller.clientsLatched i).enable = true)
    (hcomp : s.controller.completing s.memory.outCompleted ≠ some i) :
    (s.step env clock).controller.clientsLatched i = s.controller.clientsLatched i := by
  have hlow : (s.clients i).ports.enable = false := by
    obtain ⟨pending, coming, hat, -⟩ := h
    cases hat with
    | idle ha he => exact he
    | answered ha he => exact he
    | queued ha he => exact he
    | performed ha he => exact he
    | pulsing ha he hl' => simp [hl] at hl'
  have hlatched : (s.step env clock).controller.clientsLatched i =
      MemoryController.listenClients (s.clients i).ports (s.controller.clientsLatched i) :=
    MemoryController.step_latched hcomp _ _
  rw [hlatched, MemoryController.listenClients, hlow]
  rfl

theorem holds_idle (h : Holds s.memory.rawMemory
      (state atomicMemory (initialMemory rawMemory) s.served))
    (he : s.controller.memory.enable = false) :
    Holds (s.step env clock).memory.rawMemory
      (state atomicMemory (initialMemory rawMemory) (s.step env clock).served) := by
  have hmem : (s.step env clock).memory.rawMemory = s.memory.rawMemory := by
    show (s.memory.work _).rawMemory = _
    rw [Memory.work_disabled _ he]
  have hserved : (s.step env clock).served = s.served := by simp [MemorySystem.step, he]
  rw [hmem, hserved]
  exact h

theorem memoryInv_scanning (h : MemoryInv rawMemory s) (hpc : s.controller.pc = .scanning) :
    MemoryInv rawMemory (s.step env clock) := by
  have hctrl := h.controller
  unfold ControllerAt at hctrl
  rw [hpc] at hctrl
  obtain ⟨hen, hclear, hdata⟩ := hctrl
  obtain ⟨hlatched, hcur, hmem, hpc', hnone⟩ := MemoryController.clearOutput_frame s.controller
  obtain ⟨hlow, hzero⟩ := MemoryController.clearOutput_low hclear hdata
  obtain ⟨hout, hdat, hcl, hcases⟩ := MemoryController.scan_cases s.controller.clearOutput
  have hmain := MemoryController.main_scanning s.memory.outData s.memory.outCompleted hpc
  have hcomp : ∀ i, s.controller.completing s.memory.outCompleted ≠ some i := by
    simp [MemoryController.completing, hpc]
  have hc : ∀ i, (s.step env clock).controller.outCompleted i = false := by
    intro i
    rw [step_controller, MemoryController.step_outCompleted, hmain, hout]
    exact hlow i
  have hd : (s.step env clock).controller.outData = 0 := by
    rw [step_controller, MemoryController.step_outData, hmain, hdat, hzero]
  have hpcs : ∀ w, (s.step env clock).controller.pc ≠ .waiting w := by
    intro w
    rw [step_controller, MemoryController.step_pc, hmain]
    rcases hcases with ⟨-, hp, -⟩ | ⟨k, -, -, hp, -⟩
    · rw [hp, hpc', hpc]
      intro hne
      cases hne
    · rw [hp]
      intro hne
      cases hne
  refine ⟨?_, holds_idle h.holds hen, fun i => ?_⟩
  · unfold ControllerAt
    rcases hcases with ⟨-, hp, hm, -⟩ | ⟨k, hk, hcurk, hp, hek, hwk, hopk⟩
    · have hpcn : (s.step env clock).controller.pc = .scanning := by
        rw [step_controller, MemoryController.step_pc, hmain, hp, hpc', hpc]
      rw [hpcn]
      refine ⟨?_, fun i hi => ?_, fun _ => hd⟩
      · rw [step_controller, MemoryController.step_memory, hmain, hm, hmem, hen]
      · rw [hc i] at hi
        cases hi
    · rw [hlatched] at hp hwk hopk
      have hkl : (s.controller.clientsLatched k).enable = true := by
        have := MemoryController.findClient_enabled hk
        rwa [hlatched] at this
      have hstay : (s.step env clock).controller.clientsLatched k =
          s.controller.clientsLatched k := latched_stays (h.clients k) hkl (hcomp k)
      have hpcn : (s.step env clock).controller.pc =
          .issued (s.controller.clientsLatched k).write := by
        rw [step_controller, MemoryController.step_pc, hmain, hp]
      have hcurn : (s.step env clock).controller.currentClient = k := by
        rw [step_controller, MemoryController.step_currentClient, hmain, hcurk]
      have hmemn : (s.step env clock).controller.memory = s.controller.clearOutput.scan.memory := by
        rw [step_controller, MemoryController.step_memory, hmain]
      rw [hpcn]
      show _ ∧ _ ∧ _ ∧ _ ∧ _ ∧ _
      rw [hcurn, hmemn, hstay]
      exact ⟨hek, hwk, hopk, hkl, hc, hd⟩
  · exact clientInv_other (h.clients i) (fun he => by simp [hen] at he) (hcomp i)
      (fun w hw => by simp [hpc] at hw) (hc i) (fun w hw => absurd hw (hpcs w))

theorem memoryInv_issued (h : MemoryInv rawMemory s) {w : Bool} (hpc : s.controller.pc = .issued w) :
    MemoryInv rawMemory (s.step env clock) := by
  have hctrl := h.controller
  unfold ControllerAt at hctrl
  rw [hpc] at hctrl
  obtain ⟨hen, hwr, hop, hl, hlow, hdata⟩ := hctrl
  have hmain := MemoryController.main_issued s.memory.outData s.memory.outCompleted hpc
  have hcomp : ∀ i, s.controller.completing s.memory.outCompleted ≠ some i := by
    simp [MemoryController.completing, hpc]
  have hcurn : (s.step env clock).controller.currentClient = s.controller.currentClient := by
    rw [step_controller, MemoryController.step_currentClient, hmain]
  have hc : ∀ i, (s.step env clock).controller.outCompleted i = false := by
    intro i
    rw [step_controller, MemoryController.step_outCompleted, hmain]
    exact hlow i
  obtain ⟨hserved, hv⟩ := clientInv_served env clock
    (h.clients s.controller.currentClient) h.holds w hpc rfl hen hop hl (hlow _)
  obtain ⟨hholds, hres, hdone⟩ := Memory.work_enabled h.holds hen hv
  refine ⟨?_, ?_, fun i => ?_⟩
  · have hpcn : (s.step env clock).controller.pc = .waiting w := by
      rw [step_controller, MemoryController.step_pc, hmain]
    unfold ControllerAt
    rw [hpcn]
    refine ⟨?_, hdone, fun hw => ?_, ?_, hc, ?_⟩
    · rw [step_controller, MemoryController.step_memory, hmain]
    · have hop' : s.controller.memory.operation =
          .write s.controller.memory.address s.controller.memory.data := by
        simp [MemorySignals.operation, hwr, hw]
      show (s.memory.work _).outData = 0
      rw [hres, hop']
      rfl
    · rw [hcurn, latched_stays (h.clients _) hl (hcomp _)]
      exact hl
    · rw [step_controller, MemoryController.step_outData, hmain]
      exact hdata
  · have hser : (s.step env clock).served = s.served ++
        [(s.controller.currentClient, s.controller.memory.operation)] := by
      simp [MemorySystem.step, hen]
    rw [hser, state_concat]
    exact hholds
  · by_cases hi : s.controller.currentClient = i
    · subst hi
      exact hserved
    · exact clientInv_other (h.clients i) (fun _ => hi) (hcomp i) (fun _ _ => hi) (hc i)
        (fun _ _ => by rw [hcurn]; exact hi)

theorem memoryInv_waiting (h : MemoryInv rawMemory s) {w : Bool}
    (hpc : s.controller.pc = .waiting w) : MemoryInv rawMemory (s.step env clock) := by
  have hctrl := h.controller
  unfold ControllerAt at hctrl
  rw [hpc] at hctrl
  obtain ⟨hen, hdone, hwr, hl, hlow, hdata⟩ := hctrl
  have hmain := MemoryController.main_waiting s.memory.outData hpc hdone
  have hpcn : (s.step env clock).controller.pc = .scanning := by
    rw [step_controller, MemoryController.step_pc, hmain]
    rfl
  have hout : (s.step env clock).controller.outCompleted =
      Function.update s.controller.outCompleted s.controller.currentClient true := by
    rw [step_controller, MemoryController.step_outCompleted, hmain]
    rfl
  have hclear : (s.step env clock).controller.clientForOutputClear =
      some s.controller.currentClient := by
    rw [step_controller, MemoryController.step_clientForOutputClear, hmain]
    rfl
  refine ⟨?_, holds_idle h.holds hen, fun i => ?_⟩
  · unfold ControllerAt
    rw [hpcn]
    refine ⟨?_, fun i hi => ?_, fun hnone => ?_⟩
    · rw [step_controller, MemoryController.step_memory, hmain]
      exact hen
    · rw [hout, Function.update_apply] at hi
      rw [hclear]
      split at hi
      · next he => rw [he]
      · rw [hlow i] at hi
        cases hi
    · rw [hclear] at hnone
      cases hnone
  · by_cases hi : s.controller.currentClient = i
    · subst hi
      exact clientInv_completed (h.clients _) w hpc rfl hdone hen hdata hwr hl
    · refine clientInv_other (h.clients i) (fun he => by simp [hen] at he) ?_ (fun _ _ => hi) ?_
        (fun w' hw' => by simp [hpcn] at hw')
      · simp [MemoryController.completing, hpc, hdone, hi]
      · rw [hout, Function.update_of_ne (Ne.symm hi)]
        exact hlow i

theorem memoryInv_step (h : MemoryInv rawMemory s) : MemoryInv rawMemory (s.step env clock) := by
  cases hpc : s.controller.pc with
  | scanning => exact memoryInv_scanning h hpc
  | issued w => exact memoryInv_issued h hpc
  | waiting w => exact memoryInv_waiting h hpc

/-! ## Every request is answered -/

/-- Clocks from a `wait()` of `main` to the next scan. -/
def MemoryController.Pc.clocksLeft : MemoryController.Pc → Nat
  | .scanning => 0
  | .issued _ => 2
  | .waiting _ => 1

theorem MemoryController.Pc.clocksLeft_le (pc : MemoryController.Pc) : pc.clocksLeft ≤ 2 := by
  cases pc <;> simp [clocksLeft]

/-- A bound on the clocks until client `i` sees `completed`: a request that is
    not latched yet, one that is being served, or one that waits for the clients
    before it on the round, three clocks each. -/
def clocksToAnswer (i : Fin (last + 1)) (s : MemorySystem last size) : Nat :=
  if s.controller.outCompleted i then 0
  else if (s.clients i).ports.enable then 3 * (last + 1) + 3
  else s.controller.pc.clocksLeft +
    if s.controller.pc ≠ .scanning ∧ s.controller.currentClient = i then 0
    else 3 * (MemoryController.ahead s.controller.currentClient i + 1)

/-- A latched request comes nearer to its answer. -/
theorem clocksToAnswer_latched (hinv : MemoryInv rawMemory s)
    (he : (s.clients i).ports.enable = false)
    (hl : (s.controller.clientsLatched i).enable = true) (hc : s.controller.outCompleted i = false)
    (he' : ((s.step env clock).clients i).ports.enable = false) :
    clocksToAnswer i (s.step env clock) < clocksToAnswer i s := by
  have hctrl := hinv.controller
  unfold ControllerAt at hctrl
  unfold clocksToAnswer
  rw [hc, he, he', step_controller, MemoryController.step_outCompleted, MemoryController.step_pc,
    MemoryController.step_currentClient]
  cases hpc : s.controller.pc with
  | scanning =>
    obtain ⟨hlatched, hcur, -⟩ := MemoryController.clearOutput_frame s.controller
    obtain ⟨k, hk, hnear⟩ := @MemoryController.findClient_ahead last
      (fun i => (s.controller.clientsLatched i).enable) i hl (last + 1) s.controller.currentClient
      (MemoryController.ahead_lt _ _)
    obtain ⟨-, -, -, ⟨hnone, -⟩ | ⟨k', hk', hcurk, hpck, -⟩⟩ :=
      MemoryController.scan_cases s.controller.clearOutput
    · simp [hlatched, hcur, hk] at hnone
    · rw [hlatched, hcur, hk] at hk'
      cases hk'
      rw [MemoryController.main_scanning _ _ hpc, hcurk, hpck]
      simp only [MemoryController.Pc.clocksLeft]
      by_cases hki : k = i
      · simp [hki]
        split <;> omega
      · have hlt := hnear.resolve_left hki
        simp [hki]
        split <;> omega
  | issued w =>
    rw [MemoryController.main_issued _ _ hpc]
    simp only [MemoryController.Pc.clocksLeft, hc]
    by_cases hi : s.controller.currentClient = i
    · simp [hi]
    · simp [hi]
  | waiting w =>
    rw [hpc] at hctrl
    obtain ⟨-, hdone, -⟩ := hctrl
    rw [MemoryController.main_waiting _ hpc hdone]
    by_cases hi : s.controller.currentClient = i
    · simp [MemoryController.complete, MemoryController.Pc.clocksLeft, hi]
    · simp [MemoryController.complete, MemoryController.Pc.clocksLeft, hi, Function.update_of_ne,
        Ne.symm hi, hc]

theorem clocksToAnswer_low (hc : s.controller.outCompleted i = false)
    (he : (s.clients i).ports.enable = false) : clocksToAnswer i s ≤ 3 * (last + 1) + 2 := by
  have hleft := s.controller.pc.clocksLeft_le
  have hlt := MemoryController.ahead_lt s.controller.currentClient i
  unfold clocksToAnswer
  rw [hc, he]
  simp only [Bool.false_eq_true, if_false]
  split <;> omega

theorem clocksToAnswer_le (i : Fin (last + 1)) (s : MemorySystem last size) :
    clocksToAnswer i s ≤ 3 * (last + 1) + 3 := by
  cases hc : s.controller.outCompleted i with
  | true => simp [clocksToAnswer, hc]
  | false =>
    cases he : (s.clients i).ports.enable with
    | true => simp [clocksToAnswer, hc, he]
    | false => exact Nat.le_succ_of_le (clocksToAnswer_low hc he)

/-- While client `i` waits, every clock brings its answer nearer. -/
theorem clocksToAnswer_step (hinv : MemoryInv rawMemory s) (ha : (s.clients i).awaiting = true)
    (hc : s.controller.outCompleted i = false) :
    clocksToAnswer i (s.step env clock) < clocksToAnswer i s := by
  obtain ⟨-, he', -, -⟩ := step_awaiting env clock ha hc
  obtain ⟨pending, coming, hat, -⟩ := hinv.clients i
  cases hat with
  | idle hidle => simp [ha] at hidle
  | answered _ _ _ hc' => simp [hc] at hc'
  | queued _ he hl => exact clocksToAnswer_latched hinv he hl hc he'
  | performed _ he hl => exact clocksToAnswer_latched hinv he hl hc he'
  | pulsing _ he =>
    have hnow : clocksToAnswer i s = 3 * (last + 1) + 3 := by simp [clocksToAnswer, hc, he]
    cases hc' : (s.step env clock).controller.outCompleted i with
    | true => rw [hnow]; simp [clocksToAnswer, hc']
    | false =>
      have := clocksToAnswer_low hc' he'
      omega

theorem results_length (c : Fin (last + 1)) : ∀ (m : MemoryAddressType → MemoryDataType)
    (served : List (Fin (last + 1) × MemoryOperation)),
    (ofClient c (results atomicMemory m served)).length = (ofClient c served).length
  | _, [] => rfl
  | m, (d, o) :: served => by
    have ih := results_length c (atomicMemory m o).1 served
    unfold ofClient at *
    by_cases h : d = c <;> simp [results, h, ih]

/-! ## Whole runs -/

theorem memoryInv_after (env : MemoryEnvironment last size) (rawMemory : Fin size → MemoryDataType)
    (n : Nat) : MemoryInv rawMemory (MemorySystem.after env rawMemory n) :=
  run_always (memoryInv_init rawMemory) (fun _ _ h => memoryInv_step h) n

theorem issued_mono (env : MemoryEnvironment last size) (rawMemory : Fin size → MemoryDataType)
    (i : Fin (last + 1)) (n : Nat) : ∀ d,
    ((MemorySystem.after env rawMemory n).clients i).issued.length ≤
      ((MemorySystem.after env rawMemory (n + d)).clients i).issued.length
  | 0 => Nat.le_refl _
  | d + 1 => by
    refine Nat.le_trans (issued_mono env rawMemory i n d) ?_
    show _ ≤ (((MemorySystem.after env rawMemory (n + d)).step env (n + d)).clients i).issued.length
    rw [step_clients]
    refine Nat.le_trans ?_ (MemoryClient.act_issued _ _)
    exact Nat.le_of_eq (congrArg List.length (MemoryClient.hear_issued _ _ _).symm)

/-- A client that sees `completed` has all its answers after the clock. -/
theorem answers_of_completed (hinv : MemoryInv rawMemory s)
    (hc : s.controller.outCompleted i = true) : (s.clients i).issued.length ≤
      ((s.step env clock).clients i).answers.length := by
  obtain ⟨pending, coming, hat, -, hissued, hanswers⟩ := hinv.clients i
  have hlen := results_length i (initialMemory rawMemory) s.served
  have hheard : ((s.step env clock).clients i).answers =
      (s.clients i).answers ++ [s.controller.outData] := by
    rw [step_clients, MemoryClient.act_answers, MemoryClient.hear, if_pos hc]
  cases hat with
  | idle _ _ _ hlow => simp [hc] at hlow
  | pulsing _ _ _ hlow => simp [hc] at hlow
  | queued _ _ _ hlow => simp [hc] at hlow
  | performed _ _ _ hlow => simp [hc] at hlow
  | answered =>
    exact Nat.le_of_eq (by rw [hheard, ← hanswers, hlen, hissued, List.append_nil])

/-- What client `i` has issued by clock `n` is answered soon after. -/
theorem answered_after (env : MemoryEnvironment last size) (rawMemory : Fin size → MemoryDataType)
    (n : Nat) (i : Fin (last + 1)) : ∃ d ≤ 3 * (last + 1) + 4,
    ((MemorySystem.after env rawMemory n).clients i).issued.length ≤
      ((MemorySystem.after env rawMemory (n + d)).clients i).answers.length := by
  have hinv := memoryInv_after env rawMemory
  cases ha : ((MemorySystem.after env rawMemory n).clients i).awaiting with
  | false =>
    obtain ⟨pending, coming, hat, -, hissued, hanswers⟩ := (hinv n).clients i
    refine ⟨0, Nat.zero_le _, ?_⟩
    have hlen := results_length i (initialMemory rawMemory)
      (MemorySystem.after env rawMemory n).served
    cases hat with
    | idle => rw [hanswers] at hlen; simp [hissued, ← hlen]
    | pulsing h => simp [ha] at h
    | queued h => simp [ha] at h
    | performed h => simp [ha] at h
    | answered h => simp [ha] at h
  | true =>
    have hstep : ∀ m (s : MemorySystem last size),
        (MemoryInv rawMemory s ∧ (s.clients i).awaiting = true) →
        ¬ s.controller.outCompleted i = true →
        (MemoryInv rawMemory (s.step env m) ∧ ((s.step env m).clients i).awaiting = true) ∧
          clocksToAnswer i (s.step env m) < clocksToAnswer i s := by
      intro m s h hg
      have hlow := Bool.eq_false_iff.mpr hg
      exact ⟨⟨memoryInv_step h.1, (step_awaiting env m h.2 hlow).1⟩,
        clocksToAnswer_step h.1 h.2 hlow⟩
    obtain ⟨d, hd, ⟨hinv', ha'⟩, hc⟩ := @run_reaches _ _ (MemorySystem.init rawMemory) _ _ _ hstep
      (3 * (last + 1) + 3) n ⟨hinv n, ha⟩ (clocksToAnswer_le i _)
    refine ⟨d + 1, by omega, Nat.le_trans (issued_mono env rawMemory i n d) ?_⟩
    exact answers_of_completed (hinv (n + d)) hc

/-- **The controller and the memory are one atomic memory.** In every run, with
    `served` the operations in the order in which the memory performs them: each
    client's operations are served in the order and with the values it issued
    them, all but at most the last one; each of its `completed` pulses, of one
    clock each, shows the result that the atomic memory gives there, all but at
    most the last one having been shown; and what is issued is answered within
    three clocks for each client and four more. -/
theorem memory_atomic (env : MemoryEnvironment last size)
    (rawMemory : Fin size → MemoryDataType) :
    (∀ n i, let s := MemorySystem.after env rawMemory n
      (∃ pending, pending.length ≤ 1 ∧ (s.clients i).issued = ofClient i s.served ++ pending) ∧
      ∃ coming, coming.length ≤ 1 ∧
        ofClient i (results atomicMemory (initialMemory rawMemory) s.served) =
          (s.clients i).answers ++ coming) ∧
    ∀ n i, ∃ d ≤ 3 * (last + 1) + 4,
      ((MemorySystem.after env rawMemory n).clients i).issued.length ≤
        ((MemorySystem.after env rawMemory (n + d)).clients i).answers.length := by
  refine ⟨fun n i => ?_, answered_after env rawMemory⟩
  obtain ⟨pending, coming, hat, -, hissued, hanswers⟩ := (memoryInv_after env rawMemory n).clients i
  refine ⟨⟨pending, ?_, hissued⟩, coming, ?_, hanswers⟩
  · cases hat <;> simp
  · cases hat <;> simp

end

end PicoGpu
