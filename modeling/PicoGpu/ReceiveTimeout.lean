import PicoGpu.FragmentLink

/- How long `Transfer::receiveWithTimeout` waits. The loop on `inpSending` gives up
   when the timeout is *at least* the clocks it has waited, so a timeout of two or
   more is over at the first test, in the second clock, and a timeout of one is not
   over before the counter has turned around. -/
namespace PicoGpu
open Clocked

variable {α : Type}

/-! ## A call and its clocks -/

/-- One clock of a receive call; one that has returned stays so. -/
def receiveClock (args : ReceiveArgs) (sending : Nat → Bool) (data : Nat → Nat → α) (clock : Nat)
    (s : ReceiveOutcome α × ReceivePorts) : ReceiveOutcome α × ReceivePorts :=
  match s.1 with
  | .suspended call => call.resume args (sending clock) (data clock) s.2
  | .returned _ _ => s

/-- The call returns with `success = false` within so many clocks. At clock `n`, counted
    from 0, `inpSending` shows `sending n` and the ports show `data n`. -/
def Cancelled (args : ReceiveArgs) (sending : Nat → Bool) (data : Nat → Nat → α)
    (ports : ReceivePorts) (clocks : Nat) : Prop :=
  ∃ call ports0 received ports', receiveArrayImpl args ports = .ok (call, ports0) ∧
    run (receiveClock args sending data) (.suspended call, ports0) clocks =
      (.returned false received, ports')

/-- A call waits as long as its timeout says: it is cancelled only after as many clocks
    without the signal, and when the signal never comes it is cancelled at most
    `constant` clocks later. -/
structure WaitsFor (constant timeout : Nat) (sending : Nat → Bool) (data : Nat → Nat → α)
    (ports : ReceivePorts) : Prop where
  late : ∀ clocks, Cancelled (Transfer.receiveWithTimeout timeout) sending data ports clocks →
    timeout ≤ clocks ∧ ∀ clock < timeout, sending clock = false
  silent : (∀ clock, sending clock = false) → ∃ clocks ≤ timeout + constant,
    Cancelled (Transfer.receiveWithTimeout timeout) sending data ports clocks

section
variable {timeout : Nat} {sending : Nat → Bool} {data : Nat → Nat → α} {ports : ReceivePorts}

/-- The state of a call with this timeout after some clocks. -/
def receiveRun (timeout : Nat) (sending : Nat → Bool) (data : Nat → Nat → α)
    (ports : ReceivePorts) : Nat → ReceiveOutcome α × ReceivePorts :=
  run (receiveClock (Transfer.receiveWithTimeout timeout) sending data)
    (.suspended (.acknowledge 1), { ports with outReceiving := true })

theorem cancelled_iff {clocks : Nat} :
    Cancelled (Transfer.receiveWithTimeout timeout) sending data ports clocks ↔
      ∃ received ports', receiveRun timeout sending data ports clocks =
        (.returned false received, ports') := by
  constructor
  · rintro ⟨call, ports0, received, ports', hcall, hrun⟩
    cases hcall
    exact ⟨received, ports', hrun⟩
  · rintro ⟨received, ports', hrun⟩
    exact ⟨_, _, received, ports', rfl, hrun⟩

theorem receiveRun_succ (clocks : Nat) : receiveRun timeout sending data ports (clocks + 1) =
    receiveClock (Transfer.receiveWithTimeout timeout) sending data clocks
      (receiveRun timeout sending data ports clocks) := rfl

/-! ## The first clocks -/

/-- A sender that is there in the first clock is heard. -/
theorem heard_at_once (hfirst : sending 0 = true) (clocks : Nat) :
    ∃ received ports', receiveRun timeout sending data ports (clocks + 1) =
      (.returned true received, ports') := by
  induction clocks with
  | zero =>
    rw [receiveRun_succ, receiveRun, run_zero]
    simp only [receiveClock, hfirst]
    rw [resume_receive_offered]
    exact ⟨_, _, rfl⟩
  | succ clocks ih =>
    obtain ⟨received, ports', hrun⟩ := ih
    rw [receiveRun_succ, hrun]
    exact ⟨received, ports', rfl⟩

theorem not_cancelled_at_first :
    ¬ Cancelled (Transfer.receiveWithTimeout timeout) sending data ports 0 := by
  rw [cancelled_iff]
  rintro ⟨received, ports', hrun⟩
  cases hrun

theorem stalled_after_first (hfirst : sending 0 = false) :
    ∃ ports', receiveRun timeout sending data ports 1 = (.suspended (.stalled 1), ports') := by
  rw [receiveRun_succ, receiveRun, run_zero]
  simp only [receiveClock, ReceiveCall.resume, hfirst]
  exact ⟨_, rfl⟩

/-- Only a call that missed the sender in the first clock is cancelled. -/
theorem cancelled_first {clocks : Nat}
    (h : Cancelled (Transfer.receiveWithTimeout timeout) sending data ports clocks) :
    2 ≤ clocks ∧ sending 0 = false := by
  have hzero : clocks ≠ 0 := by
    rintro rfl
    exact not_cancelled_at_first h
  obtain ⟨n, rfl⟩ := Nat.exists_eq_succ_of_ne_zero hzero
  obtain ⟨received, ports', hrun⟩ := cancelled_iff.mp h
  have hfirst : sending 0 = false := by
    rw [← Bool.not_eq_true]
    intro hsending
    obtain ⟨received', ports'', hheard⟩ := @heard_at_once α timeout sending data ports hsending n
    rw [hheard] at hrun
    cases hrun
  refine ⟨?_, hfirst⟩
  by_contra hlt
  have hn : n = 0 := by omega
  subst hn
  obtain ⟨ports'', hstalled⟩ := @stalled_after_first α timeout sending data ports hfirst
  rw [hstalled] at hrun
  cases hrun

/-- With a timeout of two or more the first test cancels. -/
theorem cancelled_at_second (htimeout : 2 ≤ timeout) (hfirst : sending 0 = false) :
    Cancelled (Transfer.receiveWithTimeout timeout) sending data ports 2 := by
  obtain ⟨ports', hstalled⟩ := @stalled_after_first α timeout sending data ports hfirst
  rw [cancelled_iff, receiveRun_succ, hstalled]
  have htest : (1 + 1) % sizeRange ≤ timeout := by
    rw [Nat.mod_eq_of_lt (by decide)]
    exact htimeout
  simp only [receiveClock, ReceiveCall.resume, Transfer.receiveWithTimeout, htest, if_true]
  exact ⟨_, _, rfl⟩

/-- With a timeout of one no test cancels before the counter turns around. -/
theorem stalled_until_turn (hsilent : ∀ clock, sending clock = false) (clocks : Nat)
    (hturn : clocks + 1 < sizeRange) :
    ∃ ports', receiveRun 1 sending data ports (clocks + 1) =
      (.suspended (.stalled (clocks + 1)), ports') := by
  induction clocks with
  | zero => exact stalled_after_first (hsilent 0)
  | succ clocks ih =>
    obtain ⟨ports', hstalled⟩ := ih (Nat.lt_of_succ_lt hturn)
    rw [receiveRun_succ, hstalled]
    have htest : ¬ clocks + 1 + 1 ≤ 1 := by omega
    simp only [receiveClock, ReceiveCall.resume, Transfer.receiveWithTimeout,
      Nat.mod_eq_of_lt hturn, htest, if_false, awaitSending, hsilent]
    exact ⟨_, rfl⟩

end

/-! ## How long a call waits -/

section
variable {constant timeout : Nat} {sending : Nat → Bool} {data : Nat → Nat → α}
  {ports : ReceivePorts}

/-- A call whose sender is there in the first clock is never cancelled. -/
theorem waitsFor_heard (hfirst : sending 0 = true) :
    WaitsFor constant timeout sending data ports where
  late := by
    intro clocks h
    have hmissed := (cancelled_first h).2
    rw [hfirst] at hmissed
    cases hmissed
  silent := by
    intro hsilent
    rw [hsilent] at hfirst
    cases hfirst

theorem waitsFor_one (hturn : constant + 1 < sizeRange) :
    WaitsFor constant 1 sending data ports ↔ ∃ clock, sending clock = true := by
  constructor
  · intro h
    by_contra hnever
    have hsilent : ∀ clock, sending clock = false := by
      intro clock
      rw [← Bool.not_eq_true]
      intro hsending
      exact hnever ⟨clock, hsending⟩
    obtain ⟨clocks, hle, hcancelled⟩ := h.silent hsilent
    have htwo := (cancelled_first hcancelled).1
    obtain ⟨n, rfl⟩ := Nat.exists_eq_succ_of_ne_zero (show clocks ≠ 0 by omega)
    obtain ⟨received, ports', hrun⟩ := cancelled_iff.mp hcancelled
    obtain ⟨ports'', hstalled⟩ := @stalled_until_turn α sending data ports hsilent n (by omega)
    rw [hstalled] at hrun
    cases hrun
  · rintro ⟨clock, hsending⟩
    constructor
    · intro clocks h
      obtain ⟨htwo, hfirst⟩ := cancelled_first h
      refine ⟨by omega, fun clock hclock => ?_⟩
      rw [Nat.lt_one_iff.mp hclock, hfirst]
    · intro hsilent
      rw [hsilent] at hsending
      cases hsending

theorem waitsFor_two (hfirst : sending 0 = false) (htimeout : 2 ≤ timeout) :
    WaitsFor constant timeout sending data ports ↔ timeout = 2 ∧ sending 1 = false := by
  have hcancelled := @cancelled_at_second α timeout sending data ports htimeout hfirst
  constructor
  · intro h
    obtain ⟨hle, hsilent⟩ := h.late 2 hcancelled
    exact ⟨by omega, hsilent 1 (by omega)⟩
  · rintro ⟨rfl, hsecond⟩
    constructor
    · intro clocks h
      refine ⟨(cancelled_first h).1, fun clock hclock => ?_⟩
      obtain rfl | rfl : clock = 0 ∨ clock = 1 := by omega
      · exact hfirst
      · exact hsecond
    · intro _
      exact ⟨2, by omega, hcancelled⟩

/-- **`receiveWithTimeout` waits as long as it says exactly when it has nothing to wait
    for, when a timeout of one is not needed, or when a timeout of two is.** The constant
    is anything short of a turn of the counter. -/
theorem receiveWithTimeout_waits_iff (htimeout : 1 ≤ timeout) (hturn : constant + 1 < sizeRange) :
    WaitsFor constant timeout sending data ports ↔
      sending 0 = true ∨ (timeout = 1 ∧ ∃ clock, sending clock = true) ∨
        (timeout = 2 ∧ sending 1 = false) := by
  cases hfirst : sending 0 with
  | true =>
    constructor
    · intro _
      exact .inl rfl
    · intro _
      exact waitsFor_heard hfirst
  | false =>
    obtain rfl | htwo : timeout = 1 ∨ 2 ≤ timeout := by omega
    · rw [waitsFor_one hturn]
      simp
    · rw [waitsFor_two hfirst htwo]
      have hone : timeout ≠ 1 := by omega
      simp [hone]

end

/-- The fragment shader's call, with nobody there: it gives up in the second clock of
    five. With a timeout of one it does not give up. -/
theorem receiveWithTimeout_impatient :
    (¬ ∃ constant, WaitsFor constant fragmentTimeout (fun _ => false) (fun _ _ => 0)
      ⟨false, false⟩) ∧
    ¬ ∃ constant, constant + 1 < sizeRange ∧
      WaitsFor constant 1 (fun _ => false) (fun _ _ => 0) ⟨false, false⟩ := by
  constructor
  · rintro ⟨constant, h⟩
    have hsecond := @cancelled_at_second Nat fragmentTimeout (fun _ => false) (fun _ _ => 0)
      ⟨false, false⟩ (by decide) rfl
    exact absurd (h.late 2 hsecond).1 (by decide)
  · rintro ⟨constant, hturn, h⟩
    obtain ⟨clock, hclock⟩ := (@waitsFor_one Nat constant _ _ _ hturn).mp h
    cases hclock

theorem receiveWithTimeout_waits_one :
    WaitsFor 0 1 (fun clock => decide (7 ≤ clock)) (fun _ _ => 0) ⟨false, false⟩ :=
  (@receiveWithTimeout_waits_iff Nat 0 1 _ _ _ (by decide) (by decide)).mpr
    (.inr (.inl ⟨rfl, 7, rfl⟩))

end PicoGpu
