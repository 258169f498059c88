import PicoGpu.Blits

/- The blitter with its memory: wired to `Memory`, and behind a port of the memory
   controller, where the other clients only read. On its own the memory answers in the
   clock after the pulse; the controller takes longer, and its answer reaches the block
   through the completed pulse and the data of its port. -/
namespace PicoGpu
open Clocked Atomic BlitterSignals

variable {size : Nat}

/-! ## The memory on its own -/

structure DirectBlits (size : Nat) where
  blitter : Blitter
  memory : Memory size

namespace DirectBlits

def init (a : Arrays size) : DirectBlits size := ⟨.new a.host, ⟨a.memory, 0, false⟩⟩

def step (commands : Nat → BlitterSignals) (clock : Nat) (s : DirectBlits size) :
    DirectBlits size where
  blitter := s.blitter.step (commands clock) s.memory.outCompleted s.memory.outData
  memory := s.memory.work s.blitter.memory

def after (commands : Nat → BlitterSignals) (a : Arrays size) : Nat → DirectBlits size :=
  run (step commands) (init a)

end DirectBlits

/-- Where an access is: nowhere, on the ports, or answered. -/
inductive AccessDirect (initial : MemoryAddressType → MemoryDataType)
    (issued : List MemoryOperation) (s : DirectBlits size) : Prop
  | free (ha : s.blitter.awaiting = false) (he : s.blitter.memory.enable = false)
      (hc : s.memory.outCompleted = false)
      (hholds : Holds s.memory.rawMemory (stateAfter atomicMemory initial issued))
  | raised (ha : s.blitter.awaiting = true) (he : s.blitter.memory.enable = true)
      (hc : s.memory.outCompleted = false) (before : List MemoryOperation)
      (hlast : issued = before ++ [s.blitter.memory.operation])
      (hholds : Holds s.memory.rawMemory (stateAfter atomicMemory initial before))
  | answered (ha : s.blitter.awaiting = true) (he : s.blitter.memory.enable = false)
      (hc : s.memory.outCompleted = true) (before : List MemoryOperation) (o : MemoryOperation)
      (hlast : issued = before ++ [o])
      (hdata : s.memory.outData = (atomicMemory (stateAfter atomicMemory initial before) o).2)
      (hholds : Holds s.memory.rawMemory (stateAfter atomicMemory initial issued))

section
variable {initial : MemoryAddressType → MemoryDataType} {issued : List MemoryOperation}
  {s : DirectBlits size} {commands : Nat → BlitterSignals} {clock : Nat}

/-- A block that waits for nothing, or has its answer, goes on as it wants. -/
theorem accessDirect_next {s' : DirectBlits size} (hequal : s'.blitter.awaiting =
      s'.blitter.memory.enable) (hc : s'.memory.outCompleted = false)
    (hholds : Holds s'.memory.rawMemory (stateAfter atomicMemory initial issued)) :
    AccessDirect initial (issued ++ s'.blitter.memory.issues) s' := by
  cases henable : s'.blitter.memory.enable with
  | false =>
    rw [issues_low henable, List.append_nil]
    exact .free (hequal.trans henable) henable hc hholds
  | true =>
    rw [MemorySignals.issues, if_pos henable]
    exact .raised (hequal.trans henable) henable hc issued rfl hholds

theorem accessDirect_step (h : AccessDirect initial issued s) (hinv : BlitterInv size s.blitter) :
    AccessDirect initial (issued ++ (s.step commands clock).blitter.memory.issues)
      (s.step commands clock) := by
  have hobeys : Obeys s.memory.outCompleted s.blitter.awaiting
      (s.step commands clock).blitter.awaiting (s.step commands clock).blitter.memory.enable :=
    (Blitter.step_spec hinv.tracked _ _ _).2
  cases h with
  | free ha he hc hholds =>
    rw [Obeys, ha] at hobeys
    have hwork := s.memory.work_disabled he
    refine accessDirect_next hobeys ?_ ?_
    · rw [DirectBlits.step, hwork]
    · rw [DirectBlits.step, hwork]
      exact hholds
  | raised ha he hc before hlast hholds =>
    rw [Obeys, ha, hc] at hobeys
    have hvalid := hinv.valid s.blitter.memory.operation (by
      rw [MemorySignals.issues, if_pos he]
      exact List.mem_singleton_self _)
    obtain ⟨hholds', hdata, hcompleted⟩ := Memory.work_enabled hholds he hvalid
    have hnone : (s.step commands clock).blitter.memory.issues = [] := issues_low hobeys.2
    rw [hnone, List.append_nil]
    refine .answered hobeys.1 hobeys.2 hcompleted before _ hlast hdata ?_
    rw [hlast, stateAfter_concat]
    exact hholds'
  | answered ha he hc before o hlast hdata hholds =>
    rw [Obeys, ha, hc] at hobeys
    have hwork := s.memory.work_disabled he
    refine accessDirect_next hobeys ?_ ?_
    · rw [DirectBlits.step, hwork]
    · rw [DirectBlits.step, hwork]
      exact hholds

theorem AccessDirect.holds (h : AccessDirect initial issued s)
    (hfree : s.blitter.awaiting = false) :
    Holds s.memory.rawMemory (stateAfter atomicMemory initial issued) := by
  cases h with
  | free ha he hc hholds => exact hholds
  | raised ha => rw [hfree] at ha; cases ha
  | answered ha => rw [hfree] at ha; cases ha

theorem AccessDirect.answer (h : AccessDirect initial issued s)
    (hcompleted : s.memory.outCompleted = true) {before : List MemoryOperation}
    {o : MemoryOperation} (hlast : issued = before ++ [o]) :
    s.memory.outData = (atomicMemory (stateAfter atomicMemory initial before) o).2 := by
  cases h with
  | free ha he hc hholds => rw [hcompleted] at hc; cases hc
  | raised ha he hc before' hlast' hholds => rw [hcompleted] at hc; cases hc
  | answered ha he hc before' o' hlast' hdata hholds =>
    rw [hlast] at hlast'
    obtain ⟨rfl, hsame⟩ := List.append_inj' hlast' rfl
    cases hsame
    exact hdata

end

section
variable (commands : Nat → BlitterSignals) (a : Arrays size)

/-- The blitter of the run, and what the memory holds. -/
def directBlitter (n : Nat) : Blitter := (DirectBlits.after commands a n).blitter

def directMemory (n : Nat) : Fin size → MemoryDataType :=
  (DirectBlits.after commands a n).memory.rawMemory

/-- The ports of the blitter at clock `n` of the run. -/
def directSurroundings (n : Nat) : Blitter.Surroundings :=
  ⟨commands n, (DirectBlits.after commands a n).memory.outCompleted,
    (DirectBlits.after commands a n).memory.outData⟩

theorem directBlitter_eq :
    directBlitter commands a = Blitter.after (directSurroundings commands a) a.host := by
  funext n
  induction n with
  | zero => rfl
  | succ n ih =>
    have hstep : directBlitter commands a (n + 1) =
        Blitter.clock (directSurroundings commands a n) (directBlitter commands a n) := rfl
    rw [hstep, ih]
    rfl

end

section
variable {commands : Nat → BlitterSignals} {a : Arrays size}

theorem direct_at (hfits : TakesFitting size commands (directBlitter commands a)) (n : Nat) :
    ∃ issued, AccessDirect (initialMemory a.memory) issued (DirectBlits.after commands a n) ∧
      BlitsAt a.memory a.host (takenBefore commands (directBlitter commands a) n) issued
        (directBlitter commands a n) (directMemory commands a n) := by
  induction n with
  | zero =>
    refine ⟨[], .free rfl rfl rfl fun _ _ => rfl, ⟨blitterInv_new _, ⟨fun _ _ => rfl, rfl⟩,
      (fun c hc => nomatch hc), fun _ _ _ => rfl, fun _ _ => rfl⟩⟩
  | succ n ih =>
    obtain ⟨issued, haccess, hat⟩ := ih
    have haccess' := @accessDirect_step _ _ _ _ commands n haccess hat.inv
    refine ⟨_, haccess', ⟨?_, ?_, ?_, ?_, ?_⟩⟩
    · exact blitterInv_step hat.inv (directSurroundings commands a n) (hfits n)
    · rw [takenBefore_succ]
      exact @Blitter.blitterAt_step _ _ _ _ _ _ (directSurroundings commands a n) hat.done
        hat.inv.tracked (hfits n) fun _ hcompleted _ _ hlast => haccess.answer hcompleted hlast
    · intro c hc
      rw [takenBefore_succ, List.mem_append] at hc
      exact hc.elim (hat.fits c) (hfits n c)
    · intro hfree
      exact haccess'.holds hfree
    · intro i hi
      show ((DirectBlits.after commands a n).memory.work _).rawMemory i = _
      rw [work_unaddressed _ _ hi]
      exact hat.unaddressed i hi

theorem direct_answered (hfits : TakesFitting size commands (directBlitter commands a)) :
    Blitter.Answered (directSurroundings commands a) a.host := by
  intro n hwaits
  rw [← directBlitter_eq] at hwaits
  obtain ⟨issued, haccess, hat⟩ := direct_at hfits n
  cases haccess with
  | free ha => rw [directBlitter, ha] at hwaits; cases hwaits
  | raised ha he hc before hlast hholds =>
    -- the memory answers in the next clock
    refine ⟨n + 1, Nat.le_succ n, ?_⟩
    show ((DirectBlits.after commands a n).memory.work
      (DirectBlits.after commands a n).blitter.memory).outCompleted = true
    have hvalid := hat.inv.valid _ (by
      rw [MemorySignals.issues, directBlitter, if_pos he]
      exact List.mem_singleton_self _)
    exact (Memory.work_enabled hholds he hvalid).2.2
  | answered ha he hc => exact ⟨n, Nat.le_refl n, hc⟩

theorem direct_copies (hfits : TakesFitting size commands (directBlitter commands a)) :
    CopiesArrays commands a (directBlitter commands a) (directMemory commands a) := by
  have hcopied : ∀ n, (directBlitter commands a n).outBusy = false →
      ⟨directMemory commands a n, (directBlitter commands a n).userMemory⟩ =
        copies (takenBefore commands (directBlitter commands a) n) a := by
    intro n hbusy
    obtain ⟨issued, -, hat⟩ := direct_at hfits n
    exact hat.copied hbusy
  have hanswered := direct_answered hfits
  rw [directBlitter_eq] at hfits hcopied ⊢
  exact copiesArrays hfits hanswered hcopied

end

theorem direct_sequences (a : Arrays size) : CopiesSequences a
    (fun commands => directBlitter commands a) (fun commands => directMemory commands a) where
  copies := fun _ hfits => direct_copies hfits
  issues := by
    intro issued hissued
    have hagree : ∀ commands commands' n, (∀ m < n, commands m = commands' m) →
        directBlitter commands a n = directBlitter commands' a n := by
      intro commands commands' n hsame
      have hrun := @run_agree _ (DirectBlits.step commands) (DirectBlits.step commands')
        (DirectBlits.init a) n fun m hm => by
          funext s
          rw [DirectBlits.step, DirectBlits.step, hsame m hm]
      rw [directBlitter, directBlitter, DirectBlits.after, DirectBlits.after, hrun]
    obtain ⟨commands, n, hfits, hlow, htaken⟩ :=
      issues_all hagree (fun _ hfits => (direct_copies hfits).returns) hissued
    exact ⟨commands, n, hfits, fun m hm => (takenBefore_low hlow hm).trans htaken⟩

/-! ## Behind the controller -/

/-- The blitter with the controller, the memory and the clients at the other ports. -/
structure ControlledBlits (last size : Nat) where
  blitter : Blitter
  controller : MemoryController last
  memory : Memory size
  clients : Fin (last + 1) → MemoryClient

namespace ControlledBlits
variable {last : Nat}

def init (a : Arrays size) : ControlledBlits last size :=
  ⟨.new a.host, .init last, ⟨a.memory, 0, false⟩, fun _ => ⟨false, .low, [], []⟩⟩

def step (port : Fin (last + 1)) (env : MemoryEnvironment last size)
    (commands : Nat → BlitterSignals) (clock : Nat) (s : ControlledBlits last size) :
    ControlledBlits last size where
  blitter := s.blitter.step (commands clock) (s.controller.outCompleted port) s.controller.outData
  controller := s.controller.step (env.listenLast clock)
    (Function.update (fun i => (s.clients i).ports) port s.blitter.memory) s.memory.outData
    s.memory.outCompleted
  memory := s.memory.work s.controller.memory
  clients := fun i => ((s.clients i).hear (s.controller.outCompleted i) s.controller.outData).act
    (env.actions clock i)

def after (port : Fin (last + 1)) (env : MemoryEnvironment last size)
    (commands : Nat → BlitterSignals) (a : Arrays size) : Nat → ControlledBlits last size :=
  run (step port env commands) (init a)

/-- The memory system that goes the same way. -/
def Follows (port : Fin (last + 1)) (rawMemory : Fin size → MemoryDataType)
    (s : ControlledBlits last size) (ms : MemorySystem last size) : Prop :=
  StandsFor port rawMemory s.controller s.memory s.clients s.blitter.memory s.blitter.awaiting ms

end ControlledBlits

section
variable {last : Nat} (port : Fin (last + 1)) (env : MemoryEnvironment last size)
  (commands : Nat → BlitterSignals) (a : Arrays size)

/-- The blitter of the run, and what the memory holds. -/
def controlledBlitter (n : Nat) : Blitter := (ControlledBlits.after port env commands a n).blitter

def controlledMemory (n : Nat) : Fin size → MemoryDataType :=
  (ControlledBlits.after port env commands a n).memory.rawMemory

/-- The ports of the blitter at clock `n` of the run. -/
def controlledSurroundings (n : Nat) : Blitter.Surroundings :=
  ⟨commands n, (ControlledBlits.after port env commands a n).controller.outCompleted port,
    (ControlledBlits.after port env commands a n).controller.outData⟩

theorem controlledBlitter_eq : controlledBlitter port env commands a =
    Blitter.after (controlledSurroundings port env commands a) a.host := by
  funext n
  induction n with
  | zero => rfl
  | succ n ih =>
    have hstep : controlledBlitter port env commands a (n + 1) =
        Blitter.clock (controlledSurroundings port env commands a n)
          (controlledBlitter port env commands a n) := rfl
    rw [hstep, ih]
    rfl

end

section
variable {last : Nat} {port : Fin (last + 1)} {env : MemoryEnvironment last size}
  {commands : Nat → BlitterSignals} {a : Arrays size}
  (hreads : ∀ clock i, i ≠ port → (env.actions clock i).ReadsOnly)
  (hfits : TakesFitting size commands (controlledBlitter port env commands a))
include hreads hfits

/-- The memory system goes on with the blitter, which issues one operation more, or none. -/
theorem follows_clock {n : Nat} {ms : MemorySystem last size}
    (h : (ControlledBlits.after port env commands a n).Follows port a.memory ms)
    (hinv : BlitterInv size (controlledBlitter port env commands a n)) :
    ∃ ms', (ControlledBlits.after port env commands a (n + 1)).Follows port a.memory ms' ∧
      (ms'.clients port).issued = (ms.clients port).issued ++
        (controlledBlitter port env commands a (n + 1)).memory.issues ∧
      ((ms.clients port).awaiting = true → ms.controller.outCompleted port = false →
        clocksToAnswer port ms' < clocksToAnswer port ms) := by
  have hinv' : BlitterInv size (controlledBlitter port env commands a (n + 1)) :=
    blitterInv_step hinv (controlledSurroundings port env commands a n) (hfits n)
  obtain ⟨env', hnext, hissued⟩ := standsFor_step h
    (Blitter.step_spec hinv.tracked (commands n) _ _).2 (hreads n) hinv'.valid
  exact ⟨_, hnext, hissued, fun hwaits hlow => clocksToAnswer_step h.inv hwaits hlow⟩

theorem controlled_at (n : Nat) :
    ∃ ms, (ControlledBlits.after port env commands a n).Follows port a.memory ms ∧
      BlitsAt a.memory a.host (takenBefore commands (controlledBlitter port env commands a) n)
        (ms.clients port).issued (controlledBlitter port env commands a n)
        (controlledMemory port env commands a n) := by
  induction n with
  | zero =>
    refine ⟨_, standsFor_init port a.memory, ⟨blitterInv_new _, ⟨fun _ _ => rfl, rfl⟩,
      (fun c hc => nomatch hc), fun _ _ _ => rfl, fun _ _ => rfl⟩⟩
  | succ n ih =>
    obtain ⟨ms, hfollows, hat⟩ := ih
    obtain ⟨ms', hfollows', hissued, -⟩ := follows_clock hreads hfits hfollows hat.inv
    refine ⟨ms', hfollows', ⟨?_, ?_, ?_, ?_, ?_⟩⟩
    · exact blitterInv_step hat.inv (controlledSurroundings port env commands a n) (hfits n)
    · rw [takenBefore_succ, hissued]
      refine @Blitter.blitterAt_step _ _ _ _ _ _ (controlledSurroundings port env commands a n)
        hat.done hat.inv.tracked (hfits n) ?_
      intro _ hcompleted before o hlast
      have hcompleted' : ms.controller.outCompleted port = true := by
        rw [hfollows.controller]
        exact hcompleted
      have hdata := answer_of_completed hfollows.inv hfollows.writer hcompleted' hlast
      rw [hfollows.controller] at hdata
      exact hdata
    · intro c hc
      rw [takenBefore_succ, List.mem_append] at hc
      exact hc.elim (hat.fits c) (hfits n c)
    · intro hfree
      have hholds := hfollows'.inv.holds
      rw [state_of_free hfollows'.inv hfollows'.writer (hfollows'.awaiting.trans hfree),
        hfollows'.memory] at hholds
      exact hholds
    · intro i hi
      have hsame := hfollows'.unaddressed i hi
      rw [hfollows'.memory] at hsame
      exact hsame

theorem controlled_answered :
    Blitter.Answered (controlledSurroundings port env commands a) a.host := by
  -- the answer comes nearer with each clock
  have hnearer : ∀ clocks n ms,
      (ControlledBlits.after port env commands a n).Follows port a.memory ms →
      (controlledBlitter port env commands a n).awaiting = true →
      clocksToAnswer port ms < clocks →
      ∃ m ≥ n, (controlledSurroundings port env commands a m).inpCompleted = true := by
    intro clocks
    induction clocks with
    | zero =>
      intro n ms _ _ hclocks
      exact absurd hclocks (Nat.not_lt_zero _)
    | succ clocks ih =>
      intro n ms hfollows hwaits hclocks
      cases hcompleted : (controlledSurroundings port env commands a n).inpCompleted with
      | true => exact ⟨n, Nat.le_refl n, hcompleted⟩
      | false =>
        obtain ⟨_, -, hat⟩ := controlled_at hreads hfits n
        obtain ⟨ms', hfollows', -, hless⟩ := follows_clock hreads hfits hfollows hat.inv
        have hlow : ms.controller.outCompleted port = false := by
          rw [hfollows.controller]
          exact hcompleted
        have hnear := hless (hfollows.awaiting.trans hwaits) hlow
        -- the block goes on waiting
        have hobeys : Obeys (controlledSurroundings port env commands a n).inpCompleted
            (controlledBlitter port env commands a n).awaiting
            (controlledBlitter port env commands a (n + 1)).awaiting
            (controlledBlitter port env commands a (n + 1)).memory.enable :=
          (Blitter.step_spec hat.inv.tracked (commands n) _ _).2
        rw [Obeys, hcompleted, hwaits] at hobeys
        obtain ⟨m, hm, hanswer⟩ := ih (n + 1) ms' hfollows' hobeys.1 (by omega)
        exact ⟨m, by omega, hanswer⟩
  intro n hwaits
  rw [← controlledBlitter_eq] at hwaits
  obtain ⟨ms, hfollows, -⟩ := controlled_at hreads hfits n
  exact hnearer _ n ms hfollows hwaits (Nat.lt_succ_self _)

theorem controlled_copies : CopiesArrays commands a (controlledBlitter port env commands a)
    (controlledMemory port env commands a) := by
  have hcopied : ∀ n, (controlledBlitter port env commands a n).outBusy = false →
      ⟨controlledMemory port env commands a n,
        (controlledBlitter port env commands a n).userMemory⟩ =
        copies (takenBefore commands (controlledBlitter port env commands a) n) a := by
    intro n hbusy
    obtain ⟨ms, -, hat⟩ := controlled_at hreads hfits n
    exact hat.copied hbusy
  have hanswered := controlled_answered hreads hfits
  rw [controlledBlitter_eq] at hfits hcopied ⊢
  exact copiesArrays hfits hanswered hcopied

end

theorem controlled_sequences {last : Nat} {port : Fin (last + 1)}
    {env : MemoryEnvironment last size}
    (hreads : ∀ clock i, i ≠ port → (env.actions clock i).ReadsOnly) (a : Arrays size) :
    CopiesSequences a (fun commands => controlledBlitter port env commands a)
      (fun commands => controlledMemory port env commands a) where
  copies := fun _ hfits => controlled_copies hreads hfits
  issues := by
    intro issued hissued
    have hagree : ∀ commands commands' n, (∀ m < n, commands m = commands' m) →
        controlledBlitter port env commands a n = controlledBlitter port env commands' a n := by
      intro commands commands' n hsame
      have hrun := @run_agree _ (ControlledBlits.step port env commands)
        (ControlledBlits.step port env commands') (ControlledBlits.init a) n fun m hm => by
          funext s
          rw [ControlledBlits.step, ControlledBlits.step, hsame m hm]
      rw [controlledBlitter, controlledBlitter, ControlledBlits.after, ControlledBlits.after,
        hrun]
    obtain ⟨commands, n, hfits, hlow, htaken⟩ :=
      issues_all hagree (fun _ hfits => (controlled_copies hreads hfits).returns) hissued
    exact ⟨commands, n, hfits, fun m hm => (takenBefore_low hlow hm).trans htaken⟩

/-- Both with the memory alone and behind the controller, the blitter copies arrays. -/
theorem blits_copy_arrays {last : Nat} {port : Fin (last + 1)} {env : MemoryEnvironment last size}
    (hreads : ∀ clock i, i ≠ port → (env.actions clock i).ReadsOnly) (a : Arrays size) :
    CopiesSequences a (fun commands => directBlitter commands a)
        (fun commands => directMemory commands a) ∧
      CopiesSequences a (fun commands => controlledBlitter port env commands a)
        (fun commands => controlledMemory port env commands a) ∧
      CopyLaws size :=
  ⟨direct_sequences a, controlled_sequences hreads a, copyLaws size⟩

/-- One dword is written to the second place and read back. -/
def thereAndBack : List BlitterSignals := [⟨.copyToMem, 4, 8, 1⟩, ⟨.copyFromMem, 4, 16, 1⟩]

def oneDword : Arrays 2 := ⟨fun _ => 0, fun p => if p = 8 then 7 else 0⟩

/-- A controller with no other port. -/
def alone : MemoryEnvironment 0 2 := ⟨fun _ _ => .rest .low, fun _ => false⟩

theorem dword_read_back :
    (∃ commands n, ∀ m ≥ n, (directBlitter commands oneDword m).userMemory 16 = 7) ∧
    ∃ commands n, ∀ m ≥ n, (controlledBlitter 0 alone commands oneDword m).userMemory 16 = 7 := by
  have hreads : ∀ clock (i : Fin 1), i ≠ 0 → (alone.actions clock i).ReadsOnly :=
    fun _ _ _ => trivial
  obtain ⟨hdirect, hcontrolled, -⟩ := @blits_copy_arrays 2 0 0 alone hreads oneDword
  have hfits : ∀ c ∈ thereAndBack, c.commandType ≠ .none ∧ c.Fits 2 := by
    rintro c (_ | ⟨_, _ | ⟨_, ⟨⟩⟩⟩)
    · exact ⟨by decide, by decide, by decide, by decide, by decide⟩
    · exact ⟨by decide, by decide, by decide, by decide, by decide⟩
  have hcopied : (copies thereAndBack oneDword).host 16 = 7 := by decide
  constructor
  · obtain ⟨commands, n, htakes, htaken⟩ := hdirect.issues thereAndBack hfits
    obtain ⟨N, hfinal⟩ := (hdirect.copies commands htakes).final thereAndBack n htaken
    refine ⟨commands, N, fun m hm => ?_⟩
    rw [← hcopied, ← hfinal m hm]
  · obtain ⟨commands, n, htakes, htaken⟩ := hcontrolled.issues thereAndBack hfits
    obtain ⟨N, hfinal⟩ := (hcontrolled.copies commands htakes).final thereAndBack n htaken
    refine ⟨commands, N, fun m hm => ?_⟩
    rw [← hcopied, ← hfinal m hm]

end PicoGpu
