import PicoGpu.MergerRun

/- The output merger, the process that sends it fragments, the memory controller with
   the other clients, which only read, and the memory. The system is followed by a
   `MemorySystem` whose client at the port of the output merger does what the output
   merger does (`Follows`), so that its accesses are those of the atomic memory; and a
   rank that every clock lowers brings each fragment to its end. -/
namespace PicoGpu
open Clocked Atomic

/-! ## The system -/

/-- The state between two clocks. -/
structure MergerSystem (last size : Nat) where
  sender : Sender ShadedFragment
  merger : OutputMerger
  controller : MemoryController last
  memory : Memory size
  /-- the clients at the other ports -/
  clients : Fin (last + 1) → MemoryClient

namespace MergerSystem
variable {last size : Nat}

/-- Before the first clock, with the fragments and the clocks that pass before each. -/
def init (fragments : List (Nat × ShadedFragment)) (rawMemory : Fin size → MemoryDataType) :
    MergerSystem last size where
  sender := ⟨0, .idle (idleOf (rasterizerSends fragments) 0), ⟨false, fun _ => default⟩, []⟩
  merger := .new
  controller := .init last
  memory := ⟨rawMemory, 0, false⟩
  clients := fun _ => ⟨false, .low, [], []⟩

/-- What the controller sees at its ports. -/
def ports (port : Fin (last + 1)) (s : MergerSystem last size) : Fin (last + 1) → MemorySignals :=
  Function.update (fun i => (s.clients i).ports) port s.merger.memory

variable {F : Type} (f : Floats F) (pins : OutputMergerPins) (port : Fin (last + 1))
  (env : MemoryEnvironment last size) (fragments : List (Nat × ShadedFragment))

def step (clock : Nat) (s : MergerSystem last size) : MergerSystem last size where
  sender := s.sender.step (rasterizerSends fragments) clock s.merger.previousBlock.outReceiving
  merger := s.merger.step f pins s.sender.ports.outSending s.sender.ports.outDataPorts
    (s.controller.outCompleted port) s.controller.outData
  controller := s.controller.step (env.listenLast clock) (s.ports port) s.memory.outData
    s.memory.outCompleted
  memory := s.memory.work s.controller.memory
  clients := fun i => ((s.clients i).hear (s.controller.outCompleted i) s.controller.outData).act
    (env.actions clock i)

def after (rawMemory : Fin size → MemoryDataType) : Nat → MergerSystem last size :=
  run (step f pins port env fragments) (init fragments rawMemory)

/-- The clocks to the answer that the output merger waits for. -/
def accessClocks (port : Fin (last + 1)) (s : MergerSystem last size) : Nat :=
  clocksToAnswer port ⟨fun _ => ⟨false, s.merger.memory, [], []⟩, s.controller, s.memory, []⟩

/-- The fragments that have been sent. -/
def received (s : MergerSystem last size) : List ShadedFragment :=
  (fragments.take s.sender.job).map Prod.snd

end MergerSystem

open MergerSystem

/-! ## The memory system behind it -/

section
variable {last size : Nat} {F : Type} {f : Floats F} {pins : OutputMergerPins}
  {port : Fin (last + 1)} {env : MemoryEnvironment last size}
  {fragments : List (Nat × ShadedFragment)} {rawMemory : Fin size → MemoryDataType}
  {s : MergerSystem last size} {ms : MemorySystem last size} {clock : Nat}

/-- The memory system goes the same way, with the output merger as the client at its port. -/
def Follows (port : Fin (last + 1)) (rawMemory : Fin size → MemoryDataType)
    (s : MergerSystem last size) (ms : MemorySystem last size) : Prop :=
  StandsFor port rawMemory s.controller s.memory s.clients s.merger.memory s.merger.awaiting ms

theorem Follows.accessClocks (h : Follows port rawMemory s ms) :
    s.accessClocks port = clocksToAnswer port ms := by
  unfold MergerSystem.accessClocks clocksToAnswer
  rw [h.controller, h.ports]

theorem follows_step (h : Follows port rawMemory s ms) (htracked : s.merger.Tracked)
    (hactions : ∀ i, i ≠ port → (env.actions clock i).ReadsOnly)
    (hvalid : ∀ o ∈ (s.step f pins port env fragments clock).merger.memory.issues,
      ValidAddress size o.address) :
    ∃ env', Follows port rawMemory (s.step f pins port env fragments clock) (ms.step env' clock) ∧
      ((ms.step env' clock).clients port).issued = (ms.clients port).issued ++
        (s.step f pins port env fragments clock).merger.memory.issues :=
  have hspec := @OutputMerger.step_spec F f s.merger htracked pins s.sender.ports.outSending
    s.sender.ports.outDataPorts (s.controller.outCompleted port) s.controller.outData
  standsFor_step h hspec.2 hactions hvalid

/-! ## The sender -/

theorem senderStart_job {jobs : Nat → Option (Job (SendArgs ShadedFragment))}
    (sender : Sender ShadedFragment) (k : Nat) : (sender.start jobs k).job = sender.job :=
  (Sender.start_frame jobs k sender).1

/-- The clocks that the sender lets pass before it offers. -/
def senderClocks (sender : Sender ShadedFragment) : Nat :=
  match sender.pc with
  | .idle k => k + 1
  | _ => 0

/-- A sender that has nothing left has stopped. -/
def SenderAt (fragments : List (Nat × ShadedFragment)) (sender : Sender ShadedFragment) : Prop :=
  (sender.Quiet ∧ (sender.pc = .finished → fragments.length ≤ sender.job)) ∨
    ∃ v, sender.Offers fragments v

theorem senderAt_start (sender : Sender ShadedFragment) (hlow : sender.ports.outSending = false)
    (k : Nat) : SenderAt fragments (sender.start (rasterizerSends fragments) k) ∧
      senderClocks (sender.start (rasterizerSends fragments) k) ≤ k := by
  by_cases hlt : sender.job < fragments.length
  · cases k with
    | zero =>
      obtain ⟨v, hv⟩ := Sender.start_offers hlt
      have hpc := hv.2.2.1
      refine ⟨.inr ⟨v, hv⟩, ?_⟩
      rw [senderClocks, hpc]
    | succ k =>
      have hstart : sender.start (rasterizerSends fragments) (k + 1) =
          { sender with pc := .idle k } := by
        unfold Sender.start rasterizerSends
        rw [List.getElem?_eq_getElem hlt]
        rfl
      rw [hstart]
      refine ⟨.inl ⟨⟨hlow, .inr ⟨k, rfl⟩⟩, ?_⟩, Nat.le_refl _⟩
      intro h
      cases h
  · have hnone : rasterizerSends fragments sender.job = none := by
      unfold rasterizerSends
      rw [List.getElem?_eq_none (Nat.le_of_not_lt hlt)]
      rfl
    rw [Sender.start_none hnone]
    exact ⟨.inl ⟨⟨hlow, .inl rfl⟩, fun _ => Nat.le_of_not_lt hlt⟩, Nat.zero_le _⟩

/-- A sender that does not offer comes nearer to its next offer. -/
theorem senderAt_quiet {sender : Sender ShadedFragment} (h : sender.Quiet)
    (hstop : sender.pc = .finished → fragments.length ≤ sender.job) (clock : Nat)
    (inpReceiving : Bool) :
    let sender' := sender.step (rasterizerSends fragments) clock inpReceiving
    SenderAt fragments sender' ∧ sender'.job = sender.job ∧
      senderClocks sender' ≤ senderClocks sender ∧
      (sender.job < fragments.length → senderClocks sender' < senderClocks sender) := by
  obtain ⟨hlow, hpc | ⟨k, hpc⟩⟩ := h
  · rw [Sender.step_finished hpc]
    refine ⟨.inl ⟨⟨hlow, .inl hpc⟩, hstop⟩, rfl, Nat.le_refl _, fun hlt => ?_⟩
    exact absurd (hstop hpc) (Nat.not_le.mpr hlt)
  · obtain ⟨hat, hclocks⟩ := @senderAt_start fragments sender hlow k
    have hnow : senderClocks sender = k + 1 := by rw [senderClocks, hpc]
    rw [Sender.step_idle hpc, hnow]
    exact ⟨hat, senderStart_job sender k, Nat.le_succ_of_le hclocks, fun _ => Nat.lt_succ_of_le hclocks⟩

/-- An offer that is taken. -/
theorem senderAt_answered {sender : Sender ShadedFragment} {v : ShadedFragment}
    (h : sender.Offers fragments v) (clock : Nat) :
    let sender' := sender.step (rasterizerSends fragments) clock true
    SenderAt fragments sender' ∧ sender'.job = sender.job + 1 ∧
      senderClocks sender' ≤ idleOf (rasterizerSends fragments) (sender.job + 1) := by
  obtain ⟨-, -, hpc, k, hfragment⟩ := h
  obtain ⟨ports', hresume, hlow⟩ := resume_send_returns v sender.ports
  have hstep : sender.step (rasterizerSends fragments) clock true =
      sender.finish (rasterizerSends fragments) clock (Transfer.send v) ports' := by
    rw [Sender.step_calling hpc (rasterizerSends_eq hfragment), hresume]
    rfl
  rw [hstep]
  obtain ⟨hat, hclocks⟩ := @senderAt_start fragments { sender with
    job := sender.job + 1
    ports := ports'
    returned := sender.returned ++ [(clock, (Transfer.send v).dataToSend)] } hlow
    (idleOf (rasterizerSends fragments) (sender.job + 1))
  exact ⟨hat, senderStart_job _ _, hclocks⟩

/-- The clocks before the jobs from `i` on. -/
theorem idle_sum (i : Nat) : ((fragments.drop i).map Prod.fst).sum =
    idleOf (rasterizerSends fragments) i + ((fragments.drop (i + 1)).map Prod.fst).sum := by
  unfold idleOf rasterizerSends
  by_cases hlt : i < fragments.length
  · rw [List.drop_eq_getElem_cons hlt, List.getElem?_eq_getElem hlt, List.map_cons, List.sum_cons]
    rfl
  · rw [List.drop_eq_nil_of_le (Nat.le_of_not_lt hlt), List.getElem?_eq_none (Nat.le_of_not_lt hlt),
      List.drop_eq_nil_of_le (Nat.le_succ_of_le (Nat.le_of_not_lt hlt))]
    rfl

/-! ## One clock -/

variable {height : Nat}

/-- What a run is about: buffers that fit, fragments of the framebuffer, and other clients
    that only read. -/
structure MergerSetup (pins : OutputMergerPins) (port : Fin (last + 1))
    (env : MemoryEnvironment last size) (fragments : List (Nat × ShadedFragment)) (height : Nat) :
    Prop where
  frame : FrameFits size pins height
  fragments : ∀ fragment ∈ fragments.map Prod.snd, InFrame pins height fragment.x fragment.y
  reads : ∀ clock i, i ≠ port → (env.actions clock i).ReadsOnly

/-- What holds between two clocks. -/
structure MergerInv (f : Floats F) (pins : OutputMergerPins) (port : Fin (last + 1))
    (fragments : List (Nat × ShadedFragment)) (rawMemory : Fin size → MemoryDataType)
    (s : MergerSystem last size) : Prop where
  sender : SenderAt fragments s.sender
  tracked : s.merger.Tracked
  follows : ∃ ms, Follows port rawMemory s ms ∧ s.merger.MergerAt f pins (initialMemory rawMemory)
    (s.received fragments) (ms.clients port).issued

theorem mergerInv_init :
    MergerInv f pins port fragments rawMemory (MergerSystem.init fragments rawMemory) where
  sender := .inl ⟨⟨rfl, .inr ⟨_, rfl⟩⟩, by intro h; cases h⟩
  tracked := OutputMerger.tracked_new
  follows := ⟨_, standsFor_init port rawMemory, trivial, rfl, rfl⟩

theorem valid_serves (hframe : FrameFits size pins height) {received : List ShadedFragment}
    (hin : ∀ fragment ∈ received, InFrame pins height fragment.x fragment.y)
    {ops : List MemoryOperation} (h : OutputMerger.Serves pins received ops) :
    ∀ o ∈ ops, ValidAddress size o.address := by
  intro o ho
  obtain ⟨fragment, hmem, hcolor | ⟨henable, hdepth⟩⟩ := h o ho
  · rw [hcolor]
    exact pixelDword_valid hframe.color (hin fragment hmem).1 (hin fragment hmem).2
  · rw [hdepth]
    exact pixelDword_valid (hframe.depth henable) (hin fragment hmem).1 (hin fragment hmem).2

/-- A fragment is received when both sides show their signals. -/
theorem received_step (hsender : SenderAt fragments s.sender) (clock : Nat) :
    let s' := s.step f pins port env fragments clock
    let taken := s.merger.previousBlock.outReceiving && s.sender.ports.outSending
    SenderAt fragments s'.sender ∧
      s'.received fragments = s.received fragments ++
        (if taken then [s.sender.ports.outDataPorts 0] else []) := by
  obtain ⟨hquiet, hstop⟩ | ⟨v, hoffers⟩ := hsender
  · obtain ⟨hat, hjob, -⟩ := senderAt_quiet hquiet hstop clock s.merger.previousBlock.outReceiving
    refine ⟨hat, ?_⟩
    rw [hquiet.1, Bool.and_false, if_neg (by decide), List.append_nil]
    unfold MergerSystem.received
    exact congrArg (fun job => (fragments.take job).map Prod.snd) hjob
  · have hsending := hoffers.1
    rw [hsending, Bool.and_true]
    unfold MergerSystem.received MergerSystem.step
    cases hreceiving : s.merger.previousBlock.outReceiving with
    | false =>
      simp only [hoffers.step_unanswered clock, Bool.false_eq_true, if_false, List.append_nil,
        and_true]
      exact .inr ⟨v, hoffers⟩
    | true =>
      obtain ⟨hat, hjob, -⟩ := senderAt_answered hoffers clock
      refine ⟨hat, ?_⟩
      obtain ⟨-, hdata, -, k, hfragment⟩ := hoffers
      simp only [hjob, if_true]
      rw [List.take_add_one, hfragment, hdata]
      simp

/-- One clock keeps the invariant and brings an answer that is awaited nearer. -/
theorem mergerInv_step (hsetup : MergerSetup pins port env fragments height)
    (h : MergerInv f pins port fragments rawMemory s) (clock : Nat) :
    MergerInv f pins port fragments rawMemory (s.step f pins port env fragments clock) ∧
      (s.merger.awaiting = true → s.controller.outCompleted port = false →
        (s.step f pins port env fragments clock).accessClocks port < s.accessClocks port) := by
  obtain ⟨hsender, htracked, ms, hfollows, hat⟩ := h
  obtain ⟨hsender', hreceived⟩ :=
    @received_step last size F f pins port env fragments s hsender clock
  have hanswer : s.merger.awaiting = true → s.controller.outCompleted port = true →
      ∀ earlier o, (ms.clients port).issued = earlier ++ [o] → s.controller.outData =
        (atomicMemory (stateAfter atomicMemory (initialMemory rawMemory) earlier) o).2 := by
    intro _ hcompleted earlier o hlast
    rw [← hfollows.controller] at hcompleted ⊢
    exact answer_of_completed hfollows.inv hfollows.writer hcompleted hlast
  obtain ⟨hat', hserves⟩ := OutputMerger.mergerAt_step hat htracked s.sender.ports.outSending
    s.sender.ports.outDataPorts hanswer
  rw [← hreceived] at hat' hserves
  have hin : ∀ fragment ∈ (s.step f pins port env fragments clock).received fragments,
      InFrame pins height fragment.x fragment.y := by
    intro fragment hmem
    apply hsetup.fragments
    unfold MergerSystem.received at hmem
    rw [List.map_take] at hmem
    exact List.mem_of_mem_take hmem
  obtain ⟨env', hfollows', hissued⟩ := @follows_step last size F f pins port env fragments rawMemory
    s ms clock hfollows htracked (hsetup.reads clock) (valid_serves hsetup.frame hin hserves)
  refine ⟨⟨hsender', (OutputMerger.step_spec htracked _ _ _ _ _).1, _, hfollows', ?_⟩, ?_⟩
  · rw [hissued]
    exact hat'
  · intro hwaits hlow
    rw [← hfollows.awaiting] at hwaits
    rw [← hfollows.controller] at hlow
    rw [hfollows'.accessClocks, hfollows.accessClocks]
    exact clocksToAnswer_step hfollows.inv hwaits hlow

/-! ## All fragments -/

/-- All fragments have been sent, and the output merger waits for another one. -/
def Finished (fragments : List (Nat × ShadedFragment)) (s : MergerSystem last size) : Prop :=
  fragments.length ≤ s.sender.job ∧ s.merger.awaiting = false

/-- A bound for the clocks to the end. Each fragment takes at most three accesses. -/
def clocksToFinish (port : Fin (last + 1)) (fragments : List (Nat × ShadedFragment))
    (s : MergerSystem last size) : Nat :=
  (fragments.length - s.sender.job) * (4 * (3 * (last + 1) + 4)) +
    ((fragments.drop (s.sender.job + 1)).map Prod.fst).sum + senderClocks s.sender +
    s.merger.stage * (3 * (last + 1) + 4) + if s.merger.awaiting then s.accessClocks port else 0

theorem accessClocks_le (port : Fin (last + 1)) (s : MergerSystem last size) :
    s.accessClocks port ≤ 3 * (last + 1) + 3 := by
  apply clocksToAnswer_le

/-- While the output merger works on a fragment the sender holds the next one back. -/
theorem sender_held (hsender : SenderAt fragments s.sender)
    (hreceiving : s.merger.previousBlock.outReceiving = false) (clock : Nat) :
    let s' := s.step f pins port env fragments clock
    s'.sender.job = s.sender.job ∧ senderClocks s'.sender ≤ senderClocks s.sender := by
  unfold MergerSystem.step
  dsimp only
  rw [hreceiving]
  obtain ⟨hquiet, hstop⟩ | ⟨v, hoffers⟩ := hsender
  · obtain ⟨-, hjob, hclocks, -⟩ := senderAt_quiet hquiet hstop clock false
    exact ⟨hjob, hclocks⟩
  · rw [hoffers.step_unanswered clock]
    exact ⟨rfl, Nat.le_refl _⟩

/-- A clock at which the output merger waits for an access. -/
theorem clocksToFinish_access (hsetup : MergerSetup pins port env fragments height)
    (h : MergerInv f pins port fragments rawMemory s) (clock : Nat)
    (hwaits : s.merger.awaiting = true) (hreceiving : s.merger.previousBlock.outReceiving = false) :
    clocksToFinish port fragments (s.step f pins port env fragments clock) <
      clocksToFinish port fragments s := by
  obtain ⟨hjob, hclocks⟩ :=
    @sender_held last size F f pins port env fragments s h.sender hreceiving clock
  have hnearer := (mergerInv_step hsetup h clock).2 hwaits
  have hle := accessClocks_le port (s.step f pins port env fragments clock)
  have hstage := @OutputMerger.stage_step F f pins s.merger hwaits s.sender.ports.outSending
    s.sender.ports.outDataPorts (s.controller.outCompleted port) s.controller.outData
  change if s.controller.outCompleted port = true
    then (s.step f pins port env fragments clock).merger.stage < s.merger.stage
    else (s.step f pins port env fragments clock).merger.stage = s.merger.stage at hstage
  unfold clocksToFinish
  rw [hjob, if_pos hwaits]
  cases hcompleted : s.controller.outCompleted port with
  | true =>
    -- a stage is worth more than any access: the next access of the fragment may begin
    rw [hcompleted, if_pos rfl] at hstage
    have hstages := Nat.mul_le_mul_right (3 * (last + 1) + 4) hstage
    rw [Nat.succ_mul] at hstages
    split <;> omega
  | false =>
    rw [hcompleted, if_neg (by decide)] at hstage
    -- the stage stays, the answer comes nearer
    have hnearer := hnearer hcompleted
    rw [hstage]
    split <;> omega

/-- A clock at which the output merger waits for a fragment. -/
theorem clocksToFinish_receive (h : MergerInv f pins port fragments rawMemory s) (clock : Nat)
    (hwaits : s.merger.awaiting = false) (hreceiving : s.merger.previousBlock.outReceiving = true)
    (hstage : s.merger.stage = 0) (hlt : s.sender.job < fragments.length) :
    clocksToFinish port fragments (s.step f pins port env fragments clock) <
      clocksToFinish port fragments s := by
  obtain ⟨ms, -, hat⟩ := h.follows
  obtain ⟨hquiet, hstop⟩ | ⟨v, hoffers⟩ := h.sender
  · -- nothing is offered: both sides wait, the sender for its next job
    obtain ⟨-, hjob, -, hclocks⟩ := senderAt_quiet hquiet hstop clock true
    obtain ⟨hwaits', hstage'⟩ := OutputMerger.step_silent hat hwaits s.sender.ports.outDataPorts
      (s.controller.outCompleted port) s.controller.outData
    have hclocks := hclocks hlt
    unfold clocksToFinish MergerSystem.step
    dsimp only
    rw [hreceiving, hquiet.1, hjob, hwaits', hstage', hwaits, hstage]
    simp only [Bool.false_eq_true, if_false]
    omega
  · -- a fragment is taken: its share pays for three stages and an access
    obtain ⟨-, hjob, hclocks⟩ := senderAt_answered hoffers clock
    have hsum := @idle_sum fragments (s.sender.job + 1)
    have hle := accessClocks_le port (s.step f pins port env fragments clock)
    have hstages := Nat.mul_le_mul_right (3 * (last + 1) + 4)
      (s.step f pins port env fragments clock).merger.stage_le
    have hjob' : (s.step f pins port env fragments clock).sender.job = s.sender.job + 1 := by
      unfold MergerSystem.step
      dsimp only
      rw [hreceiving, hjob]
    have hclocks' : senderClocks (s.step f pins port env fragments clock).sender ≤
        idleOf (rasterizerSends fragments) (s.sender.job + 1) := by
      unfold MergerSystem.step
      dsimp only
      rw [hreceiving]
      exact hclocks
    have hleft : fragments.length - s.sender.job = fragments.length - (s.sender.job + 1) + 1 := by
      omega
    unfold clocksToFinish
    rw [hjob', hleft, Nat.succ_mul (fragments.length - (s.sender.job + 1)), hsum, hwaits, hstage]
    generalize (fragments.length - (s.sender.job + 1)) * (4 * (3 * (last + 1) + 4)) = later
    simp only [Bool.false_eq_true, if_false]
    split <;> omega

theorem clocksToFinish_step (hsetup : MergerSetup pins port env fragments height)
    (h : MergerInv f pins port fragments rawMemory s) (hnot : ¬ Finished fragments s) (clock : Nat) :
    clocksToFinish port fragments (s.step f pins port env fragments clock) <
      clocksToFinish port fragments s := by
  obtain ⟨ms, -, hat⟩ := h.follows
  obtain ⟨hwaits, hreceiving, hstage, -⟩ | ⟨hwaits, hreceiving⟩ := OutputMerger.mergerAt_cases hat
  · apply clocksToFinish_receive h clock hwaits hreceiving hstage
    by_contra hge
    exact hnot ⟨Nat.le_of_not_lt hge, hwaits⟩
  · exact clocksToFinish_access hsetup h clock hwaits hreceiving

/-- What is finished stays so. -/
theorem finished_step (h : MergerInv f pins port fragments rawMemory s)
    (hfinished : Finished fragments s) (clock : Nat) :
    Finished fragments (s.step f pins port env fragments clock) := by
  obtain ⟨ms, -, hat⟩ := h.follows
  obtain ⟨hjob, hwaits⟩ := hfinished
  obtain ⟨hquiet, hstop⟩ | ⟨v, hoffers⟩ := h.sender
  · obtain ⟨-, hjob', -⟩ := senderAt_quiet hquiet hstop clock s.merger.previousBlock.outReceiving
    obtain ⟨hwaits', -⟩ := OutputMerger.step_silent hat hwaits s.sender.ports.outDataPorts
      (s.controller.outCompleted port) s.controller.outData
    unfold Finished MergerSystem.step
    dsimp only
    rw [hjob', hquiet.1]
    exact ⟨hjob, hwaits'⟩
  · -- there is no fragment left to offer
    obtain ⟨-, -, -, k, hfragment⟩ := hoffers
    rw [List.getElem?_eq_none hjob] at hfragment
    cases hfragment

theorem mergerInv_after (hsetup : MergerSetup pins port env fragments height)
    (rawMemory : Fin size → MemoryDataType) (n : Nat) :
    MergerInv f pins port fragments rawMemory
      (MergerSystem.after f pins port env fragments rawMemory n) := by
  apply run_always mergerInv_init
  intro n s h
  exact (mergerInv_step hsetup h n).1

/-- All fragments come to their end. -/
theorem finishes (f : Floats F) (hsetup : MergerSetup pins port env fragments height)
    (rawMemory : Fin size → MemoryDataType) :
    ∃ N, ∀ n, N ≤ n →
      Finished fragments (MergerSystem.after f pins port env fragments rawMemory n) := by
  have hstep : ∀ (n : Nat) s, MergerInv f pins port fragments rawMemory s →
      ¬ Finished fragments s →
      MergerInv f pins port fragments rawMemory (s.step f pins port env fragments n) ∧
        clocksToFinish port fragments (s.step f pins port env fragments n) <
          clocksToFinish port fragments s := by
    intro n s h hnot
    exact ⟨(mergerInv_step hsetup h n).1, clocksToFinish_step hsetup h hnot n⟩
  obtain ⟨N, -, -, hfinished⟩ := run_reaches hstep _ 0 mergerInv_init (Nat.le_refl _)
  rw [Nat.zero_add] at hfinished
  refine ⟨N, fun n hle => ?_⟩
  induction n, hle using Nat.le_induction with
  | base => exact hfinished
  | succ n hle ih => exact finished_step (mergerInv_after hsetup rawMemory n) ih n

/-! ## The image -/

variable {K : Type} [LinearOrder K] {key : Dword → K} {depths : Dword → Prop}

/-- All depths, those of the fragments and those in the depth buffer, are compared as a
    total order. -/
structure DepthSetup (f : Floats F) (key : Dword → K) (depths : Dword → Prop)
    (pins : OutputMergerPins) (height : Nat) (fragments : List (Nat × ShadedFragment))
    (rawMemory : Fin size → MemoryDataType) : Prop where
  order : DepthOrder f key depths
  fragments : ∀ fragment ∈ fragments.map Prod.snd, depths fragment.z
  memory : ∀ x y, InFrame pins height x y →
    depths (contents rawMemory (OutputMerger.depthDword pins x y))

/-- Where all fragments are finished, the memory shows their image. -/
theorem image_of_finished (hsetup : MergerSetup pins port env fragments height)
    (hdepth : pins.depthEnable = true → DepthSetup f key depths pins height fragments rawMemory)
    (h : MergerInv f pins port fragments rawMemory s) (hfinished : Finished fragments s) :
    Image key pins height (fragments.map Prod.snd) rawMemory s.memory.rawMemory := by
  obtain ⟨ms, hfollows, hat⟩ := h.follows
  obtain ⟨hjob, hfree⟩ := hfinished
  have hreceived : s.received fragments = fragments.map Prod.snd := by
    unfold MergerSystem.received
    rw [List.take_of_length_le hjob]
  obtain ⟨-, -, -, hmerged⟩ | ⟨hwaits, -⟩ := OutputMerger.mergerAt_cases hat
  · rw [hreceived] at hmerged
    have hholds := hfollows.inv.holds
    rw [state_of_free hfollows.inv hfollows.writer (hfollows.awaiting.trans hfree), hmerged,
      hfollows.memory] at hholds
    apply image_merged hsetup.frame hsetup.fragments
    · intro henable
      exact (hdepth henable).order
    · intro henable
      exact (hdepth henable).fragments
    · intro henable
      exact (hdepth henable).memory
    · exact hholds
    · intro i hi
      rw [← hfollows.memory]
      exact hfollows.unaddressed i hi
  · rw [hfree] at hwaits
    cases hwaits

/-- **The output merger is a Z-buffer.** Whenever the fragments come, however the other
    clients read and however the controller serves them, all fragments come to their end,
    and from then on the memory shows their image. With distinct depths at each pixel it
    is that of the fragments in any other order, in any other run. -/
theorem outputMerger_z_buffer (hsetup : MergerSetup pins port env fragments height)
    (hdepth : pins.depthEnable = true → DepthSetup f key depths pins height fragments rawMemory) :
    (∃ N, ∀ n, N ≤ n →
      let s := MergerSystem.after f pins port env fragments rawMemory n
      Finished fragments s ∧
        Image key pins height (fragments.map Prod.snd) rawMemory s.memory.rawMemory) ∧
    ∀ (env' : MemoryEnvironment last size) (fragments' : List (Nat × ShadedFragment)),
      MergerSetup pins port env' fragments' height → pins.depthEnable = true →
      (fragments.map Prod.snd).Perm (fragments'.map Prod.snd) →
      (∀ x y, InFrame pins height x y → ((fragmentsAt x y (fragments.map Prod.snd)).map
        fun fragment => key fragment.z).Nodup) →
      ∃ N, ∀ n, N ≤ n →
        (MergerSystem.after f pins port env' fragments' rawMemory n).memory.rawMemory =
          (MergerSystem.after f pins port env fragments rawMemory n).memory.rawMemory := by
  have himage : ∀ {env : MemoryEnvironment last size} {fragments : List (Nat × ShadedFragment)},
      MergerSetup pins port env fragments height →
      (pins.depthEnable = true → DepthSetup f key depths pins height fragments rawMemory) →
      ∃ N, ∀ n, N ≤ n →
        let s := MergerSystem.after f pins port env fragments rawMemory n
        Finished fragments s ∧
          Image key pins height (fragments.map Prod.snd) rawMemory s.memory.rawMemory := by
    intro env fragments hsetup hdepth
    obtain ⟨N, hN⟩ := finishes f hsetup rawMemory
    refine ⟨N, fun n hn => ⟨hN n hn, ?_⟩⟩
    exact image_of_finished hsetup hdepth (mergerInv_after hsetup rawMemory n) (hN n hn)
  refine ⟨himage hsetup hdepth, fun env' fragments' hsetup' henable hperm hdistinct => ?_⟩
  obtain ⟨order, hfragments, hmemory⟩ := hdepth henable
  obtain ⟨N, hN⟩ := himage hsetup hdepth
  obtain ⟨N', hN'⟩ := himage hsetup' fun _ =>
    ⟨order, fun fragment hmem => hfragments fragment (hperm.mem_iff.mpr hmem), hmemory⟩
  refine ⟨max N N', fun n hn => ?_⟩
  have h := (hN n (le_of_max_le_left hn)).2
  have h' := (hN' n (le_of_max_le_right hn)).2
  exact (h.perm h' henable hperm hdistinct).symm

/-- Depths that are compared like numbers. -/
def numberFloats : Floats Dword where
  ofBits := id
  bits := id
  ofInt := BitVec.setWidth 32
  zero := 0
  one := 1
  maxByte := 255
  sub := (· - ·)
  mul := (· * ·)
  div := (· / ·)
  lt := fun a b => decide (a.toNat < b.toNat)
  eq := fun a b => decide (a.toNat = b.toNat)
  toUint := id

/-- One pixel, and two fragments of it in either order. -/
theorem outputMerger_z_buffer_one_pixel :
    let pins : OutputMergerPins := ⟨0, 1, true, 4⟩
    let env : MemoryEnvironment 0 2 := ⟨fun _ _ => .rest .low, fun _ => false⟩
    let near : ShadedFragment := ⟨0, 0, 3, 7⟩
    let far : ShadedFragment := ⟨0, 0, 4, 8⟩
    let after := MergerSystem.after numberFloats pins 0 env
    (∃ N, ∀ n, N ≤ n → Finished [(0, near), (5, far)] (after [(0, near), (5, far)] (fun _ => 9) n) ∧
      Image BitVec.toNat pins 1 [near, far] (fun _ => 9)
        (after [(0, near), (5, far)] (fun _ => 9) n).memory.rawMemory) ∧
    ∃ N, ∀ n, N ≤ n →
      (after [(2, far), (0, near)] (fun _ => 9) n).memory.rawMemory =
        (after [(0, near), (5, far)] (fun _ => 9) n).memory.rawMemory := by
  intro pins env near far after
  have hfits : ∀ base : MemoryAddressType, base = 0 ∨ base = 4 → BufferFits 2 base 1 := by
    intro base hbase
    obtain rfl | rfl := hbase
    · exact ⟨rfl, by decide, by decide⟩
    · exact ⟨rfl, by decide, by decide⟩
  have hsetup : ∀ fragments : List (Nat × ShadedFragment),
      (∀ fragment ∈ fragments.map Prod.snd, fragment.x = 0 ∧ fragment.y = 0) →
      MergerSetup pins 0 env fragments 1 := by
    intro fragments hzero
    refine ⟨⟨hfits 0 (.inl rfl), fun _ => hfits 4 (.inr rfl), fun _ => .inl (by decide)⟩,
      fun fragment hmem => ?_, fun _ i hi => absurd (Fin.fin_one_eq_zero i) hi⟩
    obtain ⟨hx, hy⟩ := hzero fragment hmem
    rw [hx, hy]
    exact ⟨by decide, by decide⟩
  have hnumbers : DepthOrder numberFloats BitVec.toNat fun _ => True :=
    ⟨fun _ _ _ _ => rfl, fun _ _ _ _ => rfl, fun _ _ => rfl⟩
  obtain ⟨himage, horder⟩ := @outputMerger_z_buffer 0 2 Dword numberFloats pins 0 env
    [(0, near), (5, far)] (fun _ => 9) 1 Nat _ BitVec.toNat (fun _ => True)
    (hsetup _ (by decide)) fun _ => ⟨hnumbers, fun _ _ => trivial, fun _ _ _ => trivial⟩
  refine ⟨himage, horder env [(2, far), (0, near)] (hsetup _ (by decide)) rfl (List.Perm.swap _ _ _)
    fun x y _ => ?_⟩
  have hnodup : ([near, far].map fun fragment => fragment.z.toNat).Nodup := by decide
  exact hnodup.sublist ((List.filter_sublist).map _)

end

end PicoGpu
