import PicoGpu.Gpu

/- The command streamer and `setBusyValue` in their feedback loop. A command is launched
   when the streamer reads `busyNoCs` low, the launch raises the streamer's own busy
   signal, and `setBusyValue` turns the busy signals into `busyNoCs` a clock later. Between
   two commands all busy signals are low for two clocks, which the history of three clocks
   behind `busy` covers. -/
namespace PicoGpu
open Clocked

/-! ## The streamer with setBusyValue -/

/-- What the user queues before a clock, and what the busy signals of the blocks show. -/
structure CommandEnvironment where
  pushed : Nat → List CommandStreamer.Command
  blocks : Nat → List Bool

structure CommandSystem where
  commandStreamer : CommandStreamer
  out : BusyValue

namespace CommandSystem

def new : CommandSystem := ⟨.new, .new⟩

def step (env : CommandEnvironment) (clock : Nat) (s : CommandSystem) : CommandSystem where
  commandStreamer :=
    (s.commandStreamer.push (env.pushed clock)).step clock s.out.outBusyNoCs
  out := s.out.step (env.blocks clock) s.commandStreamer.outBusy

/-- The state behind clock `n`. -/
def after (env : CommandEnvironment) : Nat → CommandSystem := run (step env) new

theorem after_succ (env : CommandEnvironment) (n : Nat) :
    after env (n + 1) = (after env n).step env n := rfl

end CommandSystem

open CommandSystem in
/-- In the whole `Gpu` the two run with the busy signals of its blocks. -/
theorem Gpu.after_commandSystem {F : Type} (f : Floats F) (alu : Alu Dword) (config : GpuConfig)
    (env : GpuEnvironment) (unit0 unit1 : ShaderUnit Dword) (n : Nat) :
    CommandSystem.after ⟨env.pushed, fun clock =>
        (Gpu.after f alu config env unit0 unit1 clock).getBlocksBusySignals⟩ n =
      ⟨(Gpu.after f alu config env unit0 unit1 n).commandStreamer,
        (Gpu.after f alu config env unit0 unit1 n).out⟩ := by
  induction n with
  | zero => rfl
  | succ n ih =>
    rw [after_succ, ih]
    rfl

/-! ## The history of setBusyValue -/

namespace BusyValue

/-- The outputs show the last bit and the last three bits of the history. -/
structure Shows (v : BusyValue) : Prop where
  outBusyNoCs : v.outBusyNoCs = v.busyNoCs.getLsbD 0
  outBusy : v.outBusy =
    (v.busyNoCs.getLsbD 0 || v.busyNoCs.getLsbD 1 || v.busyNoCs.getLsbD 2)

theorem and_seven (x : BitVec 32) : decide (x &&& 7 ≠ 0) =
    (x.getLsbD 0 || x.getLsbD 1 || x.getLsbD 2) := by
  have hmask : ∀ i, (x &&& 7).getLsbD i = (x.getLsbD i && decide (i < 3)) := by
    intro i
    rw [BitVec.getLsbD_and]
    congr 1
    exact Nat.testBit_two_pow_sub_one 3 i
  have hzeros : ∀ i, (0 : BitVec 32).getLsbD i = false := fun _ => BitVec.getLsbD_zero
  rw [Bool.eq_iff_iff, decide_eq_true_eq]
  constructor
  · intro hne
    by_contra hlow
    rw [Bool.not_eq_true, Bool.or_eq_false_iff, Bool.or_eq_false_iff] at hlow
    obtain ⟨⟨h0, h1⟩, h2⟩ := hlow
    apply hne
    apply BitVec.eq_of_getLsbD_eq
    intro i _
    rw [hmask, hzeros]
    by_cases hi : i < 3
    · obtain rfl | rfl | rfl : i = 0 ∨ i = 1 ∨ i = 2 := by omega
      · rw [h0, Bool.false_and]
      · rw [h1, Bool.false_and]
      · rw [h2, Bool.false_and]
    · rw [decide_eq_false hi, Bool.and_false]
  · intro h hzero
    have hbit : ∀ i < 3, x.getLsbD i = false := by
      intro i hi
      have hi' := hmask i
      rw [hzero, hzeros, decide_eq_true hi, Bool.and_true] at hi'
      exact hi'.symm
    rw [hbit 0 (by decide), hbit 1 (by decide), hbit 2 (by decide)] at h
    cases h

theorem shows_new : new.Shows := ⟨rfl, rfl⟩

theorem shows_step (blocks : List Bool) (commandStreamer : Bool) (v : BusyValue) :
    (v.step blocks commandStreamer).Shows where
  outBusyNoCs := by
    show decide (_ ≠ _) = _
    rw [Bool.eq_iff_iff, decide_eq_true_eq, and_one]
    rfl
  outBusy := and_seven _

/-- The history moves on by a bit. -/
theorem step_history (blocks : List Bool) (commandStreamer : Bool) (v : BusyValue) {i : Nat}
    (hi : i + 1 < 32) :
    (v.step blocks commandStreamer).busyNoCs.getLsbD (i + 1) = v.busyNoCs.getLsbD i := by
  have hone : (1 : BitVec 32).getLsbD (i + 1) = false := BitVec.getLsbD_one
  have hbit : ∀ b : Bool, (if b then (1 : BitVec 32) else 0).getLsbD (i + 1) = false := by
    intro b
    cases b with
    | false => exact BitVec.getLsbD_zero
    | true => exact hone
  unfold step
  dsimp only
  rw [BitVec.getLsbD_or, BitVec.getLsbD_or, BitVec.getLsbD_and, hone, hbit, Bool.and_false,
    Bool.or_false, Bool.or_false, BitVec.getLsbD_shiftLeft, decide_eq_true hi,
    decide_eq_false (by omega : ¬ i + 1 < 1)]
  rfl

end BusyValue

namespace CommandSystem

variable {env : CommandEnvironment}

theorem after_shows (n : Nat) : (after env n).out.Shows := by
  cases n with
  | zero => exact BusyValue.shows_new
  | succ n => exact BusyValue.shows_step _ _ _

theorem outBusyNoCs_succ (n : Nat) : (after env (n + 1)).out.outBusyNoCs =
    ((env.blocks n).any id || (after env n).commandStreamer.outBusy) :=
  BusyValue.step_outBusyNoCs _ _ _

/-- `busy` is `busyNoCs`, smoothed over three clocks. -/
theorem outBusy_smoothed (n : Nat) : (after env (n + 2)).out.outBusy =
    ((after env (n + 2)).out.outBusyNoCs || (after env (n + 1)).out.outBusyNoCs ||
      (after env n).out.outBusyNoCs) := by
  have hlast : (after env (n + 2)).out.busyNoCs.getLsbD 1 =
      (after env (n + 1)).out.busyNoCs.getLsbD 0 :=
    BusyValue.step_history _ _ _ (by decide)
  have hbefore : (after env (n + 2)).out.busyNoCs.getLsbD 2 =
      (after env n).out.busyNoCs.getLsbD 0 :=
    (BusyValue.step_history _ _ _ (by decide)).trans (BusyValue.step_history _ _ _ (by decide))
  rw [(after_shows (n + 2)).outBusy, hlast, hbefore, (after_shows (n + 2)).outBusyNoCs,
    (after_shows (n + 1)).outBusyNoCs, (after_shows n).outBusyNoCs]

/-! ## Dispatches -/

section
variable (env : CommandEnvironment)

/-- The command that is launched in clock `n`. -/
def dispatchedAt (n : Nat) : Option CommandStreamer.Command :=
  ((after env n).commandStreamer.push (env.pushed n)).dispatched (after env n).out.outBusyNoCs

def Dispatches (n : Nat) : Prop := (dispatchedAt env n).isSome = true

instance (n : Nat) : Decidable (Dispatches env n) :=
  inferInstanceAs (Decidable ((dispatchedAt env n).isSome = true))

/-- What was launched before clock `n`, in order. -/
def dispatchedBefore (n : Nat) : List CommandStreamer.Command :=
  (List.range n).flatMap fun clock => (dispatchedAt env clock).toList

/-- What the streamer was given before clock `n`, in order. -/
def pushedBefore (n : Nat) : List CommandStreamer.Command :=
  (List.range n).flatMap env.pushed

end

theorem dispatchedBefore_succ (n : Nat) : dispatchedBefore env (n + 1) =
    dispatchedBefore env n ++ (dispatchedAt env n).toList := by
  rw [dispatchedBefore, List.range_succ, List.flatMap_append, List.flatMap_singleton]
  rfl

theorem pushedBefore_succ (n : Nat) :
    pushedBefore env (n + 1) = pushedBefore env n ++ env.pushed n := by
  rw [pushedBefore, List.range_succ, List.flatMap_append, List.flatMap_singleton]
  rfl

/-- What a launch leaves behind. -/
theorem launch_spec (time : Nat) (command : CommandStreamer.Command) (s : CommandStreamer) :
    (s.launch time command).pc = .launched ∧ (s.launch time command).outBusy = true ∧
    (s.launch time command).command = command ∧ (s.launch time command).beginTime = time ∧
    (s.launch time command).commands = s.commands ∧
    (s.launch time command).timeTaken = s.timeTaken := by
  unfold CommandStreamer.launch
  dsimp only
  cases command.type with
  | draw => exact ⟨rfl, rfl, rfl, rfl, rfl, rfl⟩
  | blit => exact ⟨rfl, rfl, rfl, rfl, rfl, rfl⟩

/-- Lowering the launching signals changes nothing else. -/
theorem lower_spec (s : CommandStreamer) :
    s.lower.outBusy = s.outBusy ∧ s.lower.command = s.command ∧
    s.lower.beginTime = s.beginTime ∧ s.lower.commands = s.commands ∧
    s.lower.timeTaken = s.timeTaken := by
  unfold CommandStreamer.lower
  cases s.command.type with
  | draw => exact ⟨rfl, rfl, rfl, rfl, rfl⟩
  | blit => exact ⟨rfl, rfl, rfl, rfl, rfl⟩

/-- The three things that the streamer can do in a clock. -/
inductive Turn (env : CommandEnvironment) (n : Nat) : Prop
  | launches (command : CommandStreamer.Command) (rest : List CommandStreamer.Command)
      (hdispatched : dispatchedAt env n = some command)
      (hpc : (after env n).commandStreamer.pc = .start)
      (hlow : (after env n).out.outBusyNoCs = false)
      (hqueue : (after env n).commandStreamer.commands ++ env.pushed n = command :: rest)
      (hstep : (after env (n + 1)).commandStreamer =
        ((after env n).commandStreamer.push (env.pushed n)).launch n command)
  | lowers (hdispatched : dispatchedAt env n = none)
      (hpc : (after env n).commandStreamer.pc = .launched)
      (hstep : (after env (n + 1)).commandStreamer =
        { ((after env n).commandStreamer.push (env.pushed n)).lower with
          pc := .start
          commands := ((after env n).commandStreamer.commands ++ env.pushed n).tail })
  | idles (hdispatched : dispatchedAt env n = none)
      (hpc : (after env n).commandStreamer.pc = .start)
      (hno : (after env n).out.outBusyNoCs = true ∨
        (after env n).commandStreamer.commands ++ env.pushed n = [])
      (hstep : (after env (n + 1)).commandStreamer =
        ((after env n).commandStreamer.push (env.pushed n)).idle n)

theorem turn (env : CommandEnvironment) (n : Nat) : Turn env n := by
  have hstep : (after env (n + 1)).commandStreamer =
      ((after env n).commandStreamer.push (env.pushed n)).step n
        (after env n).out.outBusyNoCs := rfl
  cases hpc : (after env n).commandStreamer.pc with
  | launched =>
    have hpc' : ((after env n).commandStreamer.push (env.pushed n)).pc = .launched := hpc
    refine .lowers ?_ hpc ?_
    · rw [dispatchedAt, CommandStreamer.dispatched, hpc']
    · rw [hstep, CommandStreamer.step, hpc']
      rfl
  | start =>
    have hpc' : ((after env n).commandStreamer.push (env.pushed n)).pc = .start := hpc
    have hdispatched : dispatchedAt env n = if (after env n).out.outBusyNoCs then none
        else ((after env n).commandStreamer.commands ++ env.pushed n).head? := by
      rw [dispatchedAt, CommandStreamer.dispatched, hpc']
      rfl
    have hidle : dispatchedAt env n = none → (after env (n + 1)).commandStreamer =
        ((after env n).commandStreamer.push (env.pushed n)).idle n := by
      intro hnone
      rw [dispatchedAt] at hnone
      rw [hstep, CommandStreamer.step, hpc']
      dsimp only
      rw [hnone]
    cases hlow : (after env n).out.outBusyNoCs with
    | true =>
      rw [hlow, if_pos rfl] at hdispatched
      exact .idles hdispatched hpc (.inl hlow) (hidle hdispatched)
    | false =>
      rw [hlow, if_neg (by decide)] at hdispatched
      cases hqueue : (after env n).commandStreamer.commands ++ env.pushed n with
      | nil =>
        rw [hqueue] at hdispatched
        exact .idles hdispatched hpc (.inr hqueue) (hidle hdispatched)
      | cons command rest =>
        rw [hqueue] at hdispatched
        refine .launches command rest hdispatched hpc hlow hqueue ?_
        have hsome := hdispatched
        rw [dispatchedAt] at hsome
        rw [hstep, CommandStreamer.step, hpc']
        dsimp only
        rw [hsome]
        rfl

/-! ## First in, first out -/

/-- The commands that still wait; behind a launch, its command is still in the queue. -/
def waiting (s : CommandStreamer) : List CommandStreamer.Command :=
  match s.pc with
  | .start => s.commands
  | .launched => s.commands.tail

/-- What was given to the streamer was launched or waits. -/
structure Conserves (env : CommandEnvironment) (n : Nat) : Prop where
  balance : pushedBefore env n =
    dispatchedBefore env n ++ waiting (after env n).commandStreamer
  front : (after env n).commandStreamer.pc = .launched →
    (after env n).commandStreamer.commands ≠ []

theorem conserves (env : CommandEnvironment) (n : Nat) : Conserves env n := by
  induction n with
  | zero => exact ⟨rfl, fun h => nomatch h⟩
  | succ n ih =>
    obtain ⟨hbalance, hfront⟩ := ih
    cases turn env n with
    | launches command rest hdispatched hpc hlow hqueue hstep =>
      obtain ⟨hpc', -, -, -, hcommands, -⟩ := launch_spec n command
        ((after env n).commandStreamer.push (env.pushed n))
      have hcommands' : (after env (n + 1)).commandStreamer.commands = command :: rest := by
        rw [hstep, hcommands]
        exact hqueue
      rw [← hstep] at hpc'
      rw [waiting, hpc] at hbalance
      constructor
      · rw [pushedBefore_succ, hbalance, List.append_assoc, dispatchedBefore_succ, hdispatched,
          waiting, hpc']
        dsimp only
        rw [hqueue, hcommands', List.append_assoc]
        rfl
      · intro _
        rw [hcommands']
        exact List.cons_ne_nil _ _
    | lowers hdispatched hpc hstep =>
      rw [waiting, hpc] at hbalance
      have hpc' : (after env (n + 1)).commandStreamer.pc = .start := by rw [hstep]
      have hcommands' : (after env (n + 1)).commandStreamer.commands =
          (after env n).commandStreamer.commands.tail ++ env.pushed n := by
        rw [hstep]
        exact List.tail_append_of_ne_nil (hfront hpc)
      constructor
      · rw [pushedBefore_succ, hbalance, dispatchedBefore_succ, hdispatched, waiting, hpc']
        dsimp only
        rw [hcommands', Option.toList_none, List.append_nil, List.append_assoc]
      · intro hlaunched
        rw [hpc'] at hlaunched
        cases hlaunched
    | idles hdispatched hpc hno hstep =>
      rw [waiting, hpc] at hbalance
      have hpc' : (after env (n + 1)).commandStreamer.pc = .start := by
        rw [hstep]
        exact hpc
      have hcommands' : (after env (n + 1)).commandStreamer.commands =
          (after env n).commandStreamer.commands ++ env.pushed n := by
        rw [hstep]
        rfl
      constructor
      · rw [pushedBefore_succ, hbalance, dispatchedBefore_succ, hdispatched, waiting, hpc']
        dsimp only
        rw [hcommands', Option.toList_none, List.append_nil, List.append_assoc]
      · intro hlaunched
        rw [hpc'] at hlaunched
        cases hlaunched

theorem dispatched_in_order (n : Nat) : dispatchedBefore env n <+: pushedBefore env n := by
  rw [(conserves env n).balance]
  exact List.prefix_append _ _

theorem pushedBefore_mono {n m : Nat} (h : n ≤ m) : pushedBefore env n <+: pushedBefore env m := by
  induction h with
  | refl => exact List.prefix_refl _
  | step _ ih =>
    rw [pushedBefore_succ]
    exact ih.trans (List.prefix_append _ _)

theorem dispatchedBefore_mono {n m : Nat} (h : n ≤ m) :
    dispatchedBefore env n <+: dispatchedBefore env m := by
  induction h with
  | refl => exact List.prefix_refl _
  | step _ ih =>
    rw [dispatchedBefore_succ]
    exact ih.trans (List.prefix_append _ _)

theorem length_dispatchedBefore_succ {n : Nat} (h : Dispatches env n) :
    (dispatchedBefore env (n + 1)).length = (dispatchedBefore env n).length + 1 := by
  obtain ⟨command, hcommand⟩ := Option.isSome_iff_exists.mp h
  rw [dispatchedBefore_succ, hcommand, List.length_append]
  rfl

/-- Every launched command has its clock. -/
theorem dispatch_of_lt {n i : Nat} (hi : i < (dispatchedBefore env n).length) :
    ∃ t < n, Dispatches env t ∧ (dispatchedBefore env t).length = i := by
  induction n with
  | zero => exact absurd hi (Nat.not_lt_zero i)
  | succ n ih =>
    by_cases hbefore : i < (dispatchedBefore env n).length
    · obtain ⟨t, ht, hfound⟩ := ih hbefore
      exact ⟨t, by omega, hfound⟩
    · by_cases hnow : Dispatches env n
      · rw [length_dispatchedBefore_succ hnow] at hi
        exact ⟨n, Nat.lt_succ_self n, hnow, by omega⟩
      · have hnone : dispatchedAt env n = none := Option.not_isSome_iff_eq_none.mp hnow
        rw [dispatchedBefore_succ, hnone, Option.toList_none, List.append_nil] at hi
        exact absurd hi hbefore

/-- Behind the last command there is no launch. -/
theorem no_dispatch {n t : Nat}
    (hpushed : ∀ m, (pushedBefore env m).length ≤ (dispatchedBefore env n).length)
    (ht : n ≤ t) : ¬ Dispatches env t := by
  intro hdispatches
  have hbefore := (@dispatchedBefore_mono env n t ht).length_le
  have hprefix := (@dispatched_in_order env (t + 1)).length_le
  have hbound := hpushed (t + 1)
  rw [length_dispatchedBefore_succ hdispatches] at hprefix
  omega

/-! ## The signals around a launch -/

theorem busy_of_launched {n : Nat} (hpc : (after env n).commandStreamer.pc = .launched) :
    (after env n).commandStreamer.outBusy = true := by
  cases n with
  | zero => cases hpc
  | succ n =>
    cases turn env n with
    | launches command rest hdispatched hpc' hlow hqueue hstep =>
      rw [hstep]
      exact (launch_spec _ _ _).2.1
    | lowers hdispatched hpc' hstep =>
      rw [hstep] at hpc
      cases hpc
    | idles hdispatched hpc' hno hstep =>
      rw [hstep] at hpc
      have hstart : (after env n).commandStreamer.pc = .launched := hpc
      rw [hpc'] at hstart
      cases hstart

theorem start_of_none {n : Nat} (h : dispatchedAt env n = none) :
    (after env (n + 1)).commandStreamer.pc = .start := by
  cases turn env n with
  | launches command rest hdispatched hpc hlow hqueue hstep =>
    rw [h] at hdispatched
    cases hdispatched
  | lowers hdispatched hpc hstep => rw [hstep]
  | idles hdispatched hpc hno hstep =>
    rw [hstep]
    exact hpc

theorem quiet_of_none {n : Nat} (h : dispatchedAt env n = none)
    (hpc : (after env n).commandStreamer.pc = .start) :
    (after env (n + 1)).commandStreamer.outBusy = false := by
  cases turn env n with
  | launches command rest hdispatched hpc' hlow hqueue hstep =>
    rw [h] at hdispatched
    cases hdispatched
  | lowers hdispatched hpc' hstep =>
    rw [hpc] at hpc'
    cases hpc'
  | idles hdispatched hpc' hno hstep =>
    rw [hstep]
    rfl

theorem Dispatches.low {t : Nat} (h : Dispatches env t) :
    (after env t).out.outBusyNoCs = false ∧ (after env t).commandStreamer.pc = .start ∧
      (after env (t + 1)).commandStreamer.pc = .launched := by
  cases turn env t with
  | launches command rest hdispatched hpc hlow hqueue hstep =>
    refine ⟨hlow, hpc, ?_⟩
    rw [hstep]
    exact (launch_spec _ _ _).1
  | lowers hdispatched hpc hstep =>
    rw [Dispatches, hdispatched] at h
    cases h
  | idles hdispatched hpc hno hstep =>
    rw [Dispatches, hdispatched] at h
    cases h

/-- The streamer's own busy signal covers the clocks until the blocks are busy. -/
theorem Dispatches.busy {t : Nat} (h : Dispatches env t) :
    (after env (t + 2)).out.outBusyNoCs = true ∧ (after env (t + 3)).out.outBusyNoCs = true := by
  have hpc := h.low.2.2
  have hbusy := busy_of_launched hpc
  constructor
  · rw [outBusyNoCs_succ, hbusy, Bool.or_true]
  · have hstays : (after env (t + 2)).commandStreamer.outBusy = true := by
      cases turn env (t + 1) with
      | launches command rest hdispatched hpc' hlow hqueue hstep =>
        rw [hpc] at hpc'
        cases hpc'
      | lowers hdispatched hpc' hstep =>
        rw [hstep]
        exact (lower_spec _).1.trans hbusy
      | idles hdispatched hpc' hno hstep =>
        rw [hpc] at hpc'
        cases hpc'
    rw [outBusyNoCs_succ, hstays, Bool.or_true]

/-- From a launch to the next one it takes four clocks. -/
theorem Dispatches.apart {t u : Nat} (ht : Dispatches env t) (hu : Dispatches env u)
    (h : t < u) : t + 4 ≤ u := by
  by_contra hclose
  obtain ⟨hlow, hpc, -⟩ := hu.low
  obtain rfl | rfl | rfl : u = t + 1 ∨ u = t + 2 ∨ u = t + 3 := by omega
  · rw [ht.low.2.2] at hpc
    cases hpc
  · rw [ht.busy.1] at hlow
    cases hlow
  · rw [ht.busy.2] at hlow
    cases hlow

/-! ## Commands that take their time -/

/-- The busy signals of the blocks are up from two clocks after a launch until the command
    that was launched in clock `t` has completed in clock `completed t`. -/
def Timed (env : CommandEnvironment) (completed : Nat → Nat) : Prop :=
  ∀ n, (env.blocks n).any id = true ↔ ∃ t, Dispatches env t ∧ t + 2 ≤ n ∧ n < completed t

/-- Command `i` of the queue has completed in clock `n`. -/
def Completed (env : CommandEnvironment) (completed : Nat → Nat) (i n : Nat) : Prop :=
  ∃ t < n, Dispatches env t ∧ (dispatchedBefore env t).length = i ∧ completed t ≤ n

/-- The loop of `waitForIdle`; it is left behind a clock, or the fuel is too little. -/
def pollIdle (env : CommandEnvironment) : Nat → Nat → Option Nat
  | 0, _ => none
  | fuel + 1, n =>
    if (after env (n + 1)).out.outBusy then pollIdle env fuel (n + 1) else some (n + 1)

/-- A call of `waitForIdle` behind clock `n`. -/
def waitForIdle (env : CommandEnvironment) (fuel n : Nat) : Option Nat :=
  pollIdle env fuel (n + 4)

theorem pollIdle_some {fuel n m : Nat} (h : pollIdle env fuel n = some m) :
    n < m ∧ (after env m).out.outBusy = false := by
  induction fuel generalizing n with
  | zero => cases h
  | succ fuel ih =>
    rw [pollIdle] at h
    split at h
    · obtain ⟨hm, hidle⟩ := ih h
      exact ⟨by omega, hidle⟩
    · next hidle =>
      cases h
      exact ⟨Nat.lt_succ_self n, Bool.eq_false_of_not_eq_true hidle⟩

/-- One command at a time, in order, each once, and `busy` while one of them is pending: a
    command that was queued for clock `n` or before is covered from clock `n + 2` on, which
    is at the latest two clocks after it could be launched. -/
structure Bridges (env : CommandEnvironment) (completed : Nat → Nat) : Prop where
  order : ∀ n, dispatchedBefore env n <+: pushedBefore env n
  all : ∀ n, ∃ m, pushedBefore env n <+: dispatchedBefore env m
  separate : ∀ t u, t < u → Dispatches env t → Dispatches env u → completed t < u
  busy : ∀ n m i, i < (pushedBefore env (n + 1)).length → n + 2 ≤ m →
    ¬ Completed env completed i m → (after env m).out.outBusy = true
  waits : ∀ n fuel m i, waitForIdle env fuel n = some m → i < (pushedBefore env (n + 1)).length →
    Completed env completed i m

section
variable {completed : Nat → Nat} (htimed : Timed env completed)
include htimed

theorem Timed.separate {t u : Nat} (h : t < u) (ht : Dispatches env t) (hu : Dispatches env u) :
    completed t < u := by
  have hapart := ht.apart hu h
  obtain ⟨k, rfl⟩ : ∃ k, u = k + 1 := ⟨u - 1, by omega⟩
  have hlow := hu.low.1
  rw [outBusyNoCs_succ, Bool.or_eq_false_iff] at hlow
  by_contra hlate
  have hblocks := (htimed k).mpr ⟨t, ht, by omega, by omega⟩
  rw [hlow.1] at hblocks
  cases hblocks

/-- Between two commands `busyNoCs` is low for two clocks only. -/
theorem Timed.busy {n m i : Nat} (hi : i < (pushedBefore env (n + 1)).length) (hm : n + 2 ≤ m)
    (hpending : ¬ Completed env completed i m) : (after env m).out.outBusy = true := by
  obtain ⟨k, rfl⟩ : ∃ k, m = k + 2 := ⟨m - 2, by omega⟩
  by_contra hidle
  rw [Bool.not_eq_true, outBusy_smoothed, Bool.or_eq_false_iff, Bool.or_eq_false_iff] at hidle
  obtain ⟨⟨hlast, hbefore⟩, hfirst⟩ := hidle
  cases turn env k with
  | launches command rest hdispatched hpc hlow hqueue hstep =>
    have hdispatches : Dispatches env k := by rw [Dispatches, hdispatched]; rfl
    rw [hdispatches.busy.1] at hlast
    cases hlast
  | lowers hdispatched hpc hstep =>
    rw [outBusyNoCs_succ, busy_of_launched hpc, Bool.or_true] at hbefore
    cases hbefore
  | idles hdispatched hpc hno hstep =>
    -- the queue is empty, so the command has been launched
    have hempty : (after env k).commandStreamer.commands ++ env.pushed k = [] := by
      rcases hno with hbusy | hempty
      · rw [hfirst] at hbusy
        cases hbusy
      · exact hempty
    have hall : pushedBefore env (k + 1) = dispatchedBefore env (k + 1) := by
      have hwaiting : waiting (after env k).commandStreamer ++ env.pushed k = [] := by
        rw [waiting, hpc]
        exact hempty
      rw [pushedBefore_succ, (conserves env k).balance, List.append_assoc, hwaiting,
        dispatchedBefore_succ, hdispatched]
      rfl
    have hlength := (@pushedBefore_mono env (n + 1) (k + 1) (by omega)).length_le
    rw [hall] at hlength
    obtain ⟨t, ht, hdispatches, hindex⟩ := dispatch_of_lt (Nat.lt_of_lt_of_le hi hlength)
    have hne : t ≠ k := by
      rintro rfl
      rw [Dispatches, hdispatched] at hdispatches
      cases hdispatches
    have hlate : ¬ completed t ≤ k + 2 :=
      fun hdone => hpending ⟨t, by omega, hdispatches, hindex, hdone⟩
    have hblocks := (htimed (k + 1)).mpr ⟨t, hdispatches, by omega, by omega⟩
    rw [outBusyNoCs_succ, hblocks, Bool.true_or] at hlast
    cases hlast

omit htimed in
theorem completed_bounded (completed : Nat → Nat) (n : Nat) :
    ∃ bound, ∀ t < n, completed t ≤ bound := by
  induction n with
  | zero => exact ⟨0, fun t ht => absurd ht (Nat.not_lt_zero t)⟩
  | succ n ih =>
    obtain ⟨bound, hbound⟩ := ih
    refine ⟨max bound (completed n), ?_⟩
    intro t ht
    rcases Nat.lt_succ_iff_lt_or_eq.mp ht with hlt | rfl
    · exact Nat.le_trans (hbound t hlt) (Nat.le_max_left _ _)
    · exact Nat.le_max_right _ _

/-- A waiting command is not left waiting. -/
theorem Timed.dispatches_again {n : Nat}
    (hwaits : (dispatchedBefore env n).length < (pushedBefore env n).length) :
    ∃ m ≥ n, Dispatches env m := by
  by_contra hnever
  have hnone : ∀ m ≥ n, dispatchedAt env m = none := by
    intro m hm
    by_contra hsome
    exact hnever ⟨m, hm, Option.isSome_iff_ne_none.mpr hsome⟩
  have hsame : ∀ d, dispatchedBefore env (n + d) = dispatchedBefore env n := by
    intro d
    induction d with
    | zero => rfl
    | succ d ih =>
      rw [← Nat.add_assoc, dispatchedBefore_succ, hnone _ (by omega), ih]
      exact List.append_nil _
  obtain ⟨bound, hbound⟩ := completed_bounded completed n
  -- all commands have completed, and the streamer has lowered its own signal
  obtain ⟨k, hk, hlate⟩ : ∃ k, n + 1 ≤ k ∧ bound ≤ k := ⟨n + 1 + bound, by omega, by omega⟩
  have hblocks : (env.blocks (k + 1)).any id = false := by
    rw [← Bool.not_eq_true, htimed]
    rintro ⟨t, ht, -, hlt⟩
    have htn : t < n := by
      by_contra hge
      rw [Dispatches, hnone t (by omega)] at ht
      cases ht
    have := hbound t htn
    omega
  have hpc : ∀ m ≥ n + 1, (after env m).commandStreamer.pc = .start := by
    intro m hm
    obtain ⟨j, rfl⟩ : ∃ j, m = j + 1 := ⟨m - 1, by omega⟩
    exact start_of_none (hnone j (by omega))
  have hlow : (after env (k + 2)).out.outBusyNoCs = false := by
    rw [outBusyNoCs_succ, hblocks, quiet_of_none (hnone k (by omega)) (hpc k hk)]
    rfl
  cases turn env (k + 2) with
  | launches command rest hdispatched hstart hlow' hqueue hstep =>
    rw [hnone (k + 2) (by omega)] at hdispatched
    cases hdispatched
  | lowers hdispatched hlaunched hstep =>
    rw [hpc (k + 2) (by omega)] at hlaunched
    cases hlaunched
  | idles hdispatched hstart hno hstep =>
    rcases hno with hbusy | hempty
    · rw [hlow] at hbusy
      cases hbusy
    · have hbalance := (conserves env (k + 2)).balance
      have hlength := (@pushedBefore_mono env n (k + 2) (by omega)).length_le
      obtain ⟨d, hd⟩ : ∃ d, k + 2 = n + d := ⟨k + 2 - n, by omega⟩
      rw [waiting, hstart, (List.append_eq_nil_iff.mp hempty).1, List.append_nil] at hbalance
      rw [hbalance, hd, hsame] at hlength
      omega

theorem Timed.all (n : Nat) : ∃ m, pushedBefore env n <+: dispatchedBefore env m := by
  have hreach : ∀ k ≤ (pushedBefore env n).length,
      ∃ m ≥ n, k ≤ (dispatchedBefore env m).length := by
    intro k hk
    induction k with
    | zero => exact ⟨n, Nat.le_refl n, Nat.zero_le _⟩
    | succ k ih =>
      obtain ⟨m, hm, hlength⟩ := ih (by omega)
      by_cases hmore : k + 1 ≤ (dispatchedBefore env m).length
      · exact ⟨m, hm, hmore⟩
      · have hpushed := (@pushedBefore_mono env n m hm).length_le
        obtain ⟨u, hu, hdispatches⟩ := htimed.dispatches_again (n := m) (by omega)
        refine ⟨u + 1, by omega, ?_⟩
        have hbefore := (@dispatchedBefore_mono env m u hu).length_le
        rw [length_dispatchedBefore_succ hdispatches]
        omega
  obtain ⟨m, hm, hlength⟩ := hreach _ (Nat.le_refl _)
  exact ⟨m, List.prefix_of_prefix_length_le (pushedBefore_mono hm) (dispatched_in_order m) hlength⟩

/-- **Busy smoothing bridges the gaps between commands.** -/
theorem Timed.bridges : Bridges env completed where
  order := dispatched_in_order
  all := htimed.all
  separate := fun _ _ h ht hu => htimed.separate h ht hu
  busy := fun _ _ _ hi hm hpending => htimed.busy hi hm hpending
  waits := by
    intro n fuel m i hreturns hi
    obtain ⟨hm, hidle⟩ := pollIdle_some hreturns
    by_contra hpending
    rw [htimed.busy hi (by omega) hpending] at hidle
    cases hidle

end

/-- A draw and a blit that are queued at once; they take the clocks 2 to 4 and 8 to 9. -/
def twoCommands : CommandEnvironment where
  pushed
    | 0 => [CommandStreamer.draw (some 0), CommandStreamer.blit .fillMem 0 0 1 (some 1)]
    | _ + 1 => []
  blocks := fun n => [decide ((2 ≤ n ∧ n < 5) ∨ (8 ≤ n ∧ n < 10))]

def twoCompleted (t : Nat) : Nat := if t = 0 then 5 else 10

theorem twoCommands_pushed (m : Nat) : (pushedBefore twoCommands m).length ≤ 2 := by
  have hlater : ∀ n, (pushedBefore twoCommands (n + 1)).length = 2 := by
    intro n
    induction n with
    | zero => rfl
    | succ n ih => rw [pushedBefore_succ, List.length_append, ih]; rfl
  cases m with
  | zero => exact Nat.zero_le 2
  | succ m => exact Nat.le_of_eq (hlater m)

theorem twoCommands_dispatches {t : Nat} (h : Dispatches twoCommands t) : t = 0 ∨ t = 6 := by
  have hsmall : ∀ t < 7, Dispatches twoCommands t → t = 0 ∨ t = 6 := by decide
  have hall : (dispatchedBefore twoCommands 7).length = 2 := by decide
  by_cases ht : t < 7
  · exact hsmall t ht h
  · exact absurd h (no_dispatch (n := 7) (hall ▸ twoCommands_pushed) (Nat.le_of_not_lt ht))

theorem twoCommands_timed : Timed twoCommands twoCompleted := by
  intro n
  have hblocks : (twoCommands.blocks n).any id = true ↔
      (2 ≤ n ∧ n < 5) ∨ (8 ≤ n ∧ n < 10) := by
    rw [twoCommands, List.any_cons, List.any_nil, Bool.or_false, id, decide_eq_true_eq]
  rw [hblocks]
  constructor
  · rintro (hfirst | hsecond)
    · exact ⟨0, by decide, hfirst⟩
    · exact ⟨6, by decide, hsecond⟩
  · rintro ⟨t, ht, hstart, hend⟩
    rcases twoCommands_dispatches ht with rfl | rfl
    · exact .inl ⟨hstart, hend⟩
    · exact .inr ⟨hstart, hend⟩

theorem twoCommands_bridged : Bridges twoCommands twoCompleted := twoCommands_timed.bridges

end CommandSystem

end PicoGpu
