import PicoGpu.FragmentOrder
import PicoGpu.SoleWriter

/- The memory of the `Gpu`, as its blocks see it. From a clock without work on, the run is
   followed by a `MemorySystem` with a client for each of the four blocks that access the
   memory; the clients do what the blocks do (`Behind`).

   What is proved:
     1. `Gpu.accesses_atomic`: the accesses of all blocks are those of an atomic memory.
     2. `Gpu.framebuffer_merged`: while no blit is launched, the memory holds what the depth
        test and the fragments make of it that came to the output merger.
   Both are for runs whose accesses are aligned and in range. -/
namespace PicoGpu
open Clocked Streams Atomic

/-! ## The data that the controller shows -/

namespace MemoryController
variable {last : Nat} {c : MemoryController last}

/-- Data is shown with a completed pulse only, and goes down behind it. -/
structure Clears (c : MemoryController last) : Prop where
  scanning : c.pc = .scanning → c.clientForOutputClear = none → c.outData = 0
  serving : c.pc ≠ .scanning → c.outData = 0

theorem clears_init (last : Nat) : (init last).Clears := ⟨fun _ _ => rfl, fun _ => rfl⟩

theorem clearOutput_outData (h : c.Clears) (hpc : c.pc = .scanning) : c.clearOutput.outData = 0 := by
  unfold clearOutput
  split
  · next hnone => exact h.scanning hpc hnone
  · rfl

theorem Clears.step (h : c.Clears) (listenLast : Bool) (clients : Fin (last + 1) → MemorySignals)
    (inpData : MemoryDataType) (inpCompleted : Bool) :
    (c.step listenLast clients inpData inpCompleted).Clears := by
  cases hpc : c.pc with
  | scanning =>
    obtain ⟨-, hdata, -, -⟩ := scan_cases c.clearOutput
    have hzero : (c.step listenLast clients inpData inpCompleted).outData = 0 := by
      rw [step_outData, main_scanning _ _ hpc, hdata]
      exact clearOutput_outData h hpc
    exact ⟨fun _ _ => hzero, fun _ => hzero⟩
  | issued w =>
    have hzero : (c.step listenLast clients inpData inpCompleted).outData = 0 := by
      rw [step_outData, main_issued _ _ hpc]
      exact h.serving (by rw [hpc]; intro hne; cases hne)
    exact ⟨fun _ _ => hzero, fun _ => hzero⟩
  | waiting w =>
    cases inpCompleted with
    | false =>
      have hzero : (c.step listenLast clients inpData false).outData = 0 := by
        rw [step_outData, main_pending hpc]
        exact h.serving (by rw [hpc]; intro hne; cases hne)
      exact ⟨fun _ _ => hzero, fun _ => hzero⟩
    | true =>
      have hmain := @main_waiting last c true inpData w hpc rfl
      constructor
      · intro _ hnone
        rw [step_clientForOutputClear, hmain] at hnone
        cases hnone
      · intro hne
        rw [step_pc, hmain] at hne
        exact absurd rfl hne

end MemoryController

/-! ## The memory system behind the blocks -/

namespace Gpu
variable {F : Type} {f : Floats F} {config : GpuConfig} {s : Gpu F} {rawMemory : Fin memorySize → MemoryDataType}
  {ms : MemorySystem 3 memorySize}

/-- The memory system goes the way of the controller and the memory, and its clients that of
    the blocks. -/
structure Behind (rawMemory : Fin memorySize → MemoryDataType) (s : Gpu F)
    (ms : MemorySystem 3 memorySize) : Prop where
  controller : ms.controller = s.memoryController
  memory : ms.memory = s.memory
  ports : ∀ i, (ms.clients i).ports = s.memoryClients i
  awaiting : ∀ i, (ms.clients i).awaiting = s.awaiting i
  inv : MemoryInv rawMemory ms

/-- Each of the four blocks obeys the rule of a client. -/
theorem obeys_step (h : s.Tracked f config) (alu : Alu Dword) (env : GpuEnvironment)
    (clock : Nat) (i : Fin 4) :
    Obeys (s.memoryController.outCompleted i) (s.awaiting i)
      ((s.step f alu config env clock).awaiting i)
      ((s.step f alu config env clock).memoryClients i).enable := by
  have hblitter : ({ s.blitter with userMemory := env.userWrites clock s.blitter.userMemory } :
      Blitter).Tracked := h.blitter
  match i with
  | 0 => exact (PrimitiveAssembler.step_spec h.primitiveAssembler _ _ _ _ _).2
  | 1 => exact (Blitter.step_spec hblitter _ _ _).2
  | 2 => exact (OutputMerger.step_spec h.outputMerger _ _ _ _ _).2
  | 3 => exact (ShaderFrontendBlock.step_spec h.shaderFrontend 2 2 (env.responseFirst clock)
      s.shaderFrontendInputs).2

/-- The memory system that begins at a clock without work. -/
def session (s : Gpu F) : MemorySystem 3 memorySize where
  clients := fun i => ⟨false, s.memoryClients i, [], []⟩
  controller := s.memoryController
  memory := s.memory
  served := []

theorem Idle.behind (h : s.Idle config) (hclears : s.memoryController.Clears) :
    Behind s.memory.rawMemory s s.session where
  controller := rfl
  memory := rfl
  ports := fun _ => rfl
  awaiting := fun i =>
    (awaiting_eq_false h.primitiveAssembler h.blitter h.outputMerger h.shaderFrontend i).symm
  inv := by
    have hports : ∀ i, (s.memoryClients i).enable = false := by
      intro i
      match i with
      | 0 => exact h.primitiveAssembler.enable
      | 1 => exact h.blitter.enable
      | 2 => exact h.outputMerger.enable
      | 3 => exact h.shaderFrontend.request.enable
    constructor
    · unfold ControllerAt session
      dsimp only
      rw [h.memoryController.pc]
      refine ⟨h.memoryController.enable, ?_, hclears.scanning h.memoryController.pc⟩
      intro i hi
      rw [h.memoryController.completed i] at hi
      cases hi
    · exact fun _ _ => rfl
    · intro i
      refine ⟨[], [], .idle rfl (hports i) (h.memoryController.latched i)
        (h.memoryController.completed i), ?_, rfl, rfl⟩
      intro o ho
      cases ho

/-- The accesses that the blocks ask for are aligned and in range. -/
def AccessesValid (s : Gpu F) : Prop :=
  ∀ i, ∀ o ∈ (s.memoryClients i).issues, ValidAddress memorySize o.address

instance (size : Nat) (address : MemoryAddressType) : Decidable (ValidAddress size address) :=
  decidable_of_iff (address.toNat % 4 = 0 ∧ addressIndex address < size)
    ⟨fun h => ⟨h.1, h.2⟩, fun h => ⟨h.aligned, h.inRange⟩⟩

instance (s : Gpu F) : Decidable s.AccessesValid :=
  inferInstanceAs (Decidable (∀ i, ∀ o ∈ (s.memoryClients i).issues,
    ValidAddress memorySize o.address))

/-- A clock of the chip is one of the memory system. -/
theorem Behind.step (h : Behind rawMemory s ms) (htracked : s.Tracked f config) (alu : Alu Dword)
    (env : GpuEnvironment) (clock : Nat)
    (hvalid : (s.step f alu config env clock).AccessesValid) :
    ∃ env', Behind rawMemory (s.step f alu config env clock) (ms.step env' clock) ∧
      ∀ i, ((ms.step env' clock).clients i).issued =
        (ms.clients i).issued ++ ((s.step f alu config env clock).memoryClients i).issues := by
  have hdoes : ∀ i, ∃ action : ClientAction memorySize,
      (((ms.clients i).hear (s.memoryController.outCompleted i) s.memoryController.outData).act
        action).ports = (s.step f alu config env clock).memoryClients i ∧
      (((ms.clients i).hear (s.memoryController.outCompleted i) s.memoryController.outData).act
        action).awaiting = (s.step f alu config env clock).awaiting i ∧
      (((ms.clients i).hear (s.memoryController.outCompleted i) s.memoryController.outData).act
        action).issued =
          (ms.clients i).issued ++ ((s.step f alu config env clock).memoryClients i).issues := by
    intro i
    have hobeys := obeys_step htracked alu env clock i
    rw [← h.awaiting i] at hobeys
    exact client_does s.memoryController.outData hobeys (hvalid i)
  choose actions hports hawaiting hissued using hdoes
  let env' : MemoryEnvironment 3 memorySize := ⟨fun _ => actions, env.listenLast⟩
  have hclient : ∀ i, (ms.step env' clock).clients i =
      ((ms.clients i).hear (s.memoryController.outCompleted i) s.memoryController.outData).act
        (actions i) := by
    intro i
    rw [step_clients, h.controller]
  refine ⟨env', ⟨?_, ?_, ?_, ?_, memoryInv_step h.inv⟩, ?_⟩
  · have hlines : (fun i => (ms.clients i).ports) = s.memoryClients := funext h.ports
    rw [step_controller, hlines, h.controller, h.memory]
    rfl
  · show ms.memory.work ms.controller.memory = s.memory.work s.memoryController.memory
    rw [h.controller, h.memory]
  · intro i
    rw [hclient]
    exact hports i
  · intro i
    rw [hclient]
    exact hawaiting i
  · intro i
    rw [hclient]
    exact hissued i

/-! ## The accesses of a run -/

/-- The operation that the memory performs at a clock, with the client it is for. -/
def serving (s : Gpu F) : List (Fin 4 × MemoryOperation) :=
  if s.memoryController.memory.enable then
    [(s.memoryController.currentClient, s.memoryController.memory.operation)]
  else []

/-- The data that a client is shown with `completed`. -/
def hearing (i : Fin 4) (s : Gpu F) : List MemoryDataType :=
  if s.memoryController.outCompleted i then [s.memoryController.outData] else []

section
variable (r : Run F) (n : Nat)

/-- Performed in the `d` clocks from clock `n` on. -/
def Run.served (d : Nat) : List (Fin 4 × MemoryOperation) :=
  upTo (fun e => (r.state (n + e)).serving) d

/-- What the block at port `i` asks for in these clocks. -/
def Run.asked (i : Fin 4) (d : Nat) : List MemoryOperation :=
  upTo (fun e => ((r.state (n + e + 1)).memoryClients i).issues) d

/-- What it is answered. -/
def Run.heard (i : Fin 4) (d : Nat) : List MemoryDataType :=
  upTo (fun e => (r.state (n + e)).hearing i) d

theorem clears_after : (r.state n).memoryController.Clears := by
  induction n with
  | zero => exact MemoryController.clears_init 3
  | succ n ih => exact ih.step _ _ _ _

/-- The memory system with the accesses of the run. -/
structure Follows (rawMemory : Fin memorySize → MemoryDataType) (d : Nat)
    (ms : MemorySystem 3 memorySize) : Prop where
  behind : Behind rawMemory (r.state (n + d)) ms
  served : ms.served = r.served n d
  issued : ∀ i, (ms.clients i).issued = r.asked n i d
  answers : ∀ i, (ms.clients i).answers = r.heard n i d

end

variable {r : Run F} {n d : Nat}

theorem follows_session (hidle : (r.state n).Idle r.config) :
    Follows r n (r.state n).memory.rawMemory 0 (r.state n).session where
  behind := hidle.behind (clears_after r n)
  served := rfl
  issued := fun _ => rfl
  answers := fun _ => rfl

theorem Follows.step {ms : MemorySystem 3 memorySize} (h : Follows r n rawMemory d ms)
    (hvalid : (r.state (n + d + 1)).AccessesValid) :
    ∃ env', Follows r n rawMemory (d + 1) (ms.step env' (n + d)) := by
  obtain ⟨env', hbehind, hissued⟩ := h.behind.step (r.tracked (n + d)) r.alu r.env (n + d) hvalid
  refine ⟨env', hbehind, ?_, ?_, ?_⟩
  · unfold Run.served
    rw [upTo_succ]
    show ms.served ++ _ = _
    rw [h.served, h.behind.controller]
    rfl
  · intro i
    unfold Run.asked
    rw [hissued, h.issued, upTo_succ]
    rfl
  · intro i
    have hbefore : upTo (fun e => (r.state (n + e)).hearing i) d = (ms.clients i).answers :=
      (h.answers i).symm
    unfold Run.heard
    rw [upTo_succ, hbefore, step_clients, MemoryClient.act_answers, h.behind.controller]
    unfold MemoryClient.hear hearing
    split
    · rfl
    · rw [List.append_nil]

theorem follows_after (hidle : (r.state n).Idle r.config)
    (hvalid : ∀ e < d, (r.state (n + e + 1)).AccessesValid) :
    ∃ ms, Follows r n (r.state n).memory.rawMemory d ms := by
  induction d with
  | zero => exact ⟨_, follows_session hidle⟩
  | succ d ih =>
    obtain ⟨ms, hfollows⟩ := ih fun e he => hvalid e (Nat.lt_succ_of_lt he)
    obtain ⟨env', hnext⟩ := hfollows.step (hvalid d (Nat.lt_succ_self d))
    exact ⟨_, hnext⟩

/-- A request is at one place at a time. -/
theorem clientAt_length {i : Fin 4} {pending : List MemoryOperation} {coming : List MemoryDataType}
    (h : ClientAt ms i pending coming) : pending.length + coming.length ≤ 1 := by
  cases h with
  | idle => exact Nat.zero_le 1
  | pulsing | queued | performed | answered => exact Nat.le_refl 1

/-- **The blocks of the chip see an atomic memory**: from a clock without work on, the
    operations that the memory performs are those that the blocks ask for, in the order in
    which each of them does and at most one behind, and each block is answered what the
    memory held at that point of the common order. -/
theorem accesses_atomic (r : Run F) (n d : Nat) (hidle : (r.state n).Idle r.config)
    (hvalid : ∀ e < d, (r.state (n + e + 1)).AccessesValid) :
    Holds (r.state (n + d)).memory.rawMemory
        (state atomicMemory (initialMemory (r.state n).memory.rawMemory) (r.served n d)) ∧
      ∀ i, ∃ (pending : List MemoryOperation) (coming : List MemoryDataType),
        pending.length + coming.length ≤ 1 ∧
        r.asked n i d = Atomic.ofClient i (r.served n d) ++ pending ∧
        Atomic.ofClient i (results atomicMemory (initialMemory (r.state n).memory.rawMemory)
          (r.served n d)) = r.heard n i d ++ coming := by
  obtain ⟨ms, hfollows⟩ := follows_after hidle hvalid
  have hinv := hfollows.behind.inv
  rw [← hfollows.served]
  constructor
  · rw [← hfollows.behind.memory]
    exact hinv.holds
  · intro i
    obtain ⟨pending, coming, hat, -, hissued, hanswers⟩ := hinv.clients i
    refine ⟨pending, coming, clientAt_length hat, ?_, ?_⟩
    · rw [← hfollows.issued]
      exact hissued
    · rw [← hfollows.answers]
      exact hanswers

/-- A draw, and nothing in the memory. -/
def drawRun : Run Dword where
  floats := dwordFloats
  alu := integerAlu
  config := pixelConfig
  env := {
    pushed := fun clock => if clock = 0 then [CommandStreamer.draw none] else []
    userWrites := fun _ userMemory => userMemory
    listenLast := fun _ => true
    responseFirst := fun _ => true }
  unit0 := pixelUnit
  unit1 := pixelUnit

/-- Two vertices have been read, and the answer for the second one is coming. -/
theorem accesses_atomic_draw :
    Holds (drawRun.state 10).memory.rawMemory
        (state atomicMemory (initialMemory (drawRun.state 0).memory.rawMemory)
          [(0, .read 256), (0, .read 260)]) ∧
      ∀ i, ∃ (pending : List MemoryOperation) (coming : List MemoryDataType),
        pending.length + coming.length ≤ 1 ∧
        drawRun.asked 0 i 10 = Atomic.ofClient i [(0, .read 256), (0, .read 260)] ++ pending ∧
        Atomic.ofClient i (results atomicMemory (initialMemory (drawRun.state 0).memory.rawMemory)
          [(0, .read 256), (0, .read 260)]) = drawRun.heard 0 i 10 ++ coming := by
  have hserved : drawRun.served 0 10 = [(0, .read 256), (0, .read 260)] := by decide +kernel
  have h := accesses_atomic drawRun 0 10 (idle_new _ _ _) (by decide +kernel)
  rw [hserved] at h
  exact h

/-! ## The framebuffer -/

/-- The fragments that come to the output merger in the `d` clocks from clock `n` on. -/
def Run.mergingFrom (r : Run F) (n d : Nat) : List ShadedFragment :=
  upTo (fun e => (r.state (n + e)).merging) d

/-- No blit is launched in these clocks. -/
def Run.WithoutBlits (r : Run F) (n d : Nat) : Prop :=
  ∀ e < d, ∀ command, r.launched (n + e) = some command → command.type ≠ .blit

instance (r : Run F) (n d : Nat) : Decidable (r.WithoutBlits n d) :=
  inferInstanceAs (Decidable (∀ e < d, ∀ command ∈ r.launched (n + e), command.type ≠ .blit))

/-- The blitter has nothing to do. -/
structure BlitterRests (s : Gpu F) : Prop where
  commandType : s.commandStreamer.bltBlock.commandType = .none
  blitter : s.blitter.Idle

theorem BlitterRests.step {env : GpuEnvironment} (h : s.BlitterRests) (alu : Alu Dword)
    {clock : Nat} (hblit : ∀ command, s.dispatched env clock = some command →
      command.type ≠ .blit) : (s.step f alu config env clock).BlitterRests where
  commandType := by
    obtain hsame | hlow | ⟨command, hdispatched, htype, -⟩ := CommandStreamer.step_bltBlock clock
      s.out.outBusyNoCs (s.commandStreamer.push (env.pushed clock))
    · exact (congrArg BlitterSignals.commandType hsame).trans h.commandType
    · exact congrArg BlitterSignals.commandType hlow
    · exact absurd htype (hblit command hdispatched)
  blitter := by
    have hsame : ({ s.blitter with userMemory := env.userWrites clock s.blitter.userMemory } :
        Blitter).Idle := ⟨h.blitter.pc, h.blitter.enable⟩
    have hstep := hsame.step h.commandType (s.memoryController.outCompleted 1)
      s.memoryController.outData
    unfold Gpu.step
    dsimp only
    rw [hstep]
    exact hsame

theorem blitterRests_after (hidle : (r.state n).Idle r.config)
    (hquiet : (r.state n).commandStreamer.Quiet) (hblits : r.WithoutBlits n d) :
    (r.state (n + d)).BlitterRests := by
  induction d with
  | zero => exact ⟨hquiet.2, hidle.blitter⟩
  | succ d ih =>
    have hrests := ih fun e he => hblits e (Nat.lt_succ_of_lt he)
    exact hrests.step r.alu (hblits d (Nat.lt_succ_self d))

theorem issues_isRead {ports : MemorySignals} (hwrite : ports.write = false) :
    ∀ o ∈ ports.issues, o.IsRead := by
  intro o ho
  unfold MemorySignals.issues MemorySignals.operation at ho
  rw [hwrite] at ho
  split at ho
  · rw [List.mem_singleton.mp ho]
    trivial
  · cases ho

/-- Only the output merger writes. -/
theorem asked_isRead (hidle : (r.state n).Idle r.config)
    (hquiet : (r.state n).commandStreamer.Quiet) (hblits : r.WithoutBlits n d) {i : Fin 4}
    (hi : i ≠ 2) : ∀ o ∈ r.asked n i d, o.IsRead := by
  intro o ho
  unfold Run.asked upTo at ho
  obtain ⟨e, he, ho⟩ := List.mem_flatMap.mp ho
  have hlt := List.mem_range.mp he
  have hreads := reads_after r (n + e + 1)
  match i with
  | 0 => exact issues_isRead hreads.primitiveAssembler o ho
  | 1 =>
    have hrests : (r.state (n + (e + 1))).BlitterRests := by
      apply blitterRests_after hidle hquiet
      intro e' he'
      exact hblits e' (by omega)
    rw [show ((r.state (n + e + 1)).memoryClients 1).issues = [] from
      issues_low hrests.blitter.enable] at ho
    cases ho
  | 2 => exact absurd rfl hi
  | 3 => exact issues_isRead hreads.shaderFrontend o ho

/-- The memory system with the output merger at its fragments. -/
theorem mergerAt_after (hidle : (r.state n).Idle r.config)
    (hquiet : (r.state n).commandStreamer.Quiet) (hblits : r.WithoutBlits n d)
    (hvalid : ∀ e < d, (r.state (n + e + 1)).AccessesValid) :
    ∃ ms, Follows r n (r.state n).memory.rawMemory d ms ∧ OnlyWriter 2 ms ∧
      OutputMerger.MergerAt r.floats r.config.outputMerger
        (initialMemory (r.state n).memory.rawMemory) (r.mergingFrom n d) (ms.clients 2).issued
        (r.state (n + d)).outputMerger := by
  induction d with
  | zero =>
    refine ⟨_, follows_session hidle, ?_, ?_⟩
    · intro i _ o ho
      cases ho
    · obtain ⟨call, hpc, -⟩ := hidle.outputMerger.pc
      have hlistens := (linked_after r n).outputMerger
      unfold OutputMerger.Listens at hlistens
      rw [hpc] at hlistens
      show OutputMerger.MergerAt _ _ _ _ _ (r.state n).outputMerger
      unfold OutputMerger.MergerAt
      rw [hpc]
      exact ⟨hlistens.1, hlistens.2, rfl⟩
  | succ d ih =>
    obtain ⟨ms, hfollows, hwriter, hat⟩ := ih (fun e he => hblits e (Nat.lt_succ_of_lt he))
      fun e he => hvalid e (Nat.lt_succ_of_lt he)
    obtain ⟨env', hnext⟩ := hfollows.step (hvalid d (Nat.lt_succ_self d))
    refine ⟨_, hnext, ?_, ?_⟩
    · intro i hi o ho
      rw [hnext.issued] at ho
      exact asked_isRead hidle hquiet hblits hi o ho
    · have hstep := @OutputMerger.mergerAt_step F r.floats r.config.outputMerger _ _ _ _ hat
        (r.tracked (n + d)).outputMerger (r.state (n + d)).fragments.perFragment.nextBlock.outSending
        (r.state (n + d)).fragments.perFragment.nextBlock.outDataPorts
        ((r.state (n + d)).memoryController.outCompleted 2) (r.state (n + d)).memoryController.outData ?_
      · rw [hnext.issued, Run.mergingFrom, Run.asked, upTo_succ, upTo_succ]
        rw [hfollows.issued, Run.mergingFrom, Run.asked] at hstep
        have htakes := (linked_after r (n + d)).outputMerger
        unfold Gpu.merging
        rw [OutputMerger.takes_eq htakes]
        exact hstep.1
      · intro _ hcompleted earlier o hlast
        rw [← hfollows.behind.controller] at hcompleted ⊢
        exact answer_of_completed hfollows.behind.inv hwriter hcompleted hlast

theorem receiving_after (r : Run F) (n : Nat)
    (h : (r.state n).outputMerger.previousBlock.outReceiving = true) :
    ∃ call, (r.state n).outputMerger.pc = .receiving call := by
  have hlistens := (linked_after r n).outputMerger
  exact hlistens.receiving h

/-- **While no blit is launched, the framebuffer is what the fragments make of it that come to
    the output merger**, one after the other, and no other dword changes. -/
theorem framebuffer_merged (r : Run F) (n d : Nat) (hidle : (r.state n).Idle r.config)
    (hquiet : (r.state n).commandStreamer.Quiet) (hblits : r.WithoutBlits n d)
    (hvalid : ∀ e < d, (r.state (n + e + 1)).AccessesValid)
    (hreceiving : ∃ call, (r.state (n + d)).outputMerger.pc = .receiving call) :
    Holds (r.state (n + d)).memory.rawMemory ((r.mergingFrom n d).foldl
      (mergeFragment r.floats r.config.outputMerger)
      (initialMemory (r.state n).memory.rawMemory)) := by
  obtain ⟨ms, hfollows, hwriter, hat⟩ := mergerAt_after hidle hquiet hblits hvalid
  obtain ⟨call, hpc⟩ := hreceiving
  have hfree : (ms.clients 2).awaiting = false := by
    rw [hfollows.behind.awaiting]
    show (r.state (n + d)).outputMerger.awaiting = false
    unfold OutputMerger.awaiting
    rw [hpc]
  have hstate := state_of_free hfollows.behind.inv hwriter hfree
  unfold OutputMerger.MergerAt at hat
  rw [hpc] at hat
  obtain ⟨-, -, hmerged⟩ := hat
  have hholds := hfollows.behind.inv.holds
  rw [hstate, hmerged, hfollows.behind.memory] at hholds
  exact hholds

/-- The draw is launched at clock 49, and its pixel is in the memory at clock 372. -/
theorem shadedRun_merged : (shadedRun.state 49).Running ∧ (shadedRun.launched 49).isSome = true ∧
    (shadedRun.state 48).fragments.perFragment.holdsFragments = false ∧
    (shadedRun.state 49).commandStreamer.paEnable = false ∧
    (shadedRun.state 49).commandStreamer.bltBlock.commandType = .none ∧
    shadedRun.WithoutBlits 49 323 ∧
    (∀ e < 323, (shadedRun.state (49 + e + 1)).AccessesValid) ∧
    (shadedRun.state (49 + 323)).outputMerger.previousBlock.outReceiving = true ∧
    shadedRun.mergingFrom 49 323 = [⟨0, 0, 0, 0xFF000000⟩] := by
  unfold Run.mergingFrom Run.WithoutBlits Run.launched Run.state
  rw [← evaluated_eq]
  decide +kernel

/-- The memory with the pixel of the draw. -/
theorem framebuffer_merged_draw : Holds (shadedRun.state (49 + 323)).memory.rawMemory
    (mergeFragment dwordFloats shadedRun.config.outputMerger
      (initialMemory (shadedRun.state 49).memory.rawMemory) ⟨0, 0, 0, 0xFF000000⟩) := by
  obtain ⟨hrunning, hlaunched, hempty, henable, htype, hblits, hvalid, hreceiving, hmerging⟩ :=
    shadedRun_merged
  have hidle : (shadedRun.state 49).Idle shadedRun.config :=
    idle_of_dispatches ⟨hrunning, hlaunched⟩ hempty
  have h := framebuffer_merged shadedRun 49 323 hidle ⟨henable, htype⟩ hblits hvalid
    (receiving_after shadedRun (49 + 323) hreceiving)
  rw [hmerging] at h
  exact h

end Gpu

end PicoGpu
