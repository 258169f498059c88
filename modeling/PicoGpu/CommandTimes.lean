import PicoGpu.CommandQueue

/- The times that commands report. The branch of `CommandStreamer::main` for clocks without
   a launch writes the time since the last launch, in busy and in idle clocks alike. So the
   variable of the last command grows as long as the streamer is idle, and a command that
   is followed at once is left with the time of the clock before the one in which the
   streamer saw the others idle. -/
namespace PicoGpu

namespace CommandSystem

/-- Behind a launch in clock `t`, the streamer sees the others idle in clock `f` for the
    first time; in clock `t + 1` it lowers the launching signals and does not look. -/
structure FirstIdle (env : CommandEnvironment) (t f : Nat) : Prop where
  later : t + 2 ≤ f
  low : (after env f).out.outBusyNoCs = false
  first : ∀ n, t + 2 ≤ n → n < f → (after env n).out.outBusyNoCs = true

/-- From clock `f` on, variable `v` of the user holds the time from clock `t` to clock `f`. -/
def Reports (env : CommandEnvironment) (t f v : Nat) : Prop :=
  ∀ n > f, (after env n).commandStreamer.timeTaken v = some (f - t)

/-- No command waits in clock `f`, one is launched in the next clock, and from then on no
    command uses variable `v`. -/
structure LeftAlone (env : CommandEnvironment) (f v : Nat) : Prop where
  empty : (after env f).commandStreamer.commands ++ env.pushed f = []
  next : Dispatches env (f + 1)
  others : ∀ u > f, ∀ command, dispatchedAt env u = some command → command.outTimeTaken ≠ some v

variable {env : CommandEnvironment} {t f n v : Nat} {command : CommandStreamer.Command}

/-! ## One clock -/

theorem current_of_dispatch (h : dispatchedAt env t = some command) :
    (after env (t + 1)).commandStreamer.command = command ∧
      (after env (t + 1)).commandStreamer.beginTime = t ∧
      (after env (t + 1)).commandStreamer.timeTaken = (after env t).commandStreamer.timeTaken := by
  cases turn env t with
  | launches command' rest hdispatched hpc hlow hqueue hstep =>
    rw [h] at hdispatched
    cases hdispatched
    obtain ⟨-, -, hcommand, htime, -, htaken⟩ := launch_spec t command
      ((after env t).commandStreamer.push (env.pushed t))
    rw [hstep]
    exact ⟨hcommand, htime, htaken⟩
  | lowers hdispatched hpc hstep =>
    rw [h] at hdispatched
    cases hdispatched
  | idles hdispatched hpc hno hstep =>
    rw [h] at hdispatched
    cases hdispatched

/-- Without a launch the command stays, and outside the branch for them no time is written. -/
theorem current_of_none (h : dispatchedAt env n = none) :
    (after env (n + 1)).commandStreamer.command = (after env n).commandStreamer.command ∧
      (after env (n + 1)).commandStreamer.beginTime = (after env n).commandStreamer.beginTime ∧
      (after env (n + 1)).commandStreamer.timeTaken v =
        if (after env n).commandStreamer.pc = .start ∧
            (after env n).commandStreamer.command.outTimeTaken = some v then
          some (n - (after env n).commandStreamer.beginTime)
        else (after env n).commandStreamer.timeTaken v := by
  cases turn env n with
  | launches command rest hdispatched hpc hlow hqueue hstep =>
    rw [h] at hdispatched
    cases hdispatched
  | lowers hdispatched hpc hstep =>
    obtain ⟨-, hcommand, htime, -, htaken⟩ :=
      lower_spec ((after env n).commandStreamer.push (env.pushed n))
    rw [hstep, hpc, if_neg (fun hstart => nomatch hstart.1)]
    exact ⟨hcommand, htime, congrFun htaken v⟩
  | idles hdispatched hpc hno hstep =>
    rw [hstep, hpc]
    refine ⟨rfl, rfl, ?_⟩
    show (if (after env n).commandStreamer.command.outTimeTaken = some v then _ else _) = _
    simp only [true_and]
    rfl

/-! ## From a launch to the next one -/

/-- As long as no other command is launched, the streamer has the command. -/
theorem current_until (h : dispatchedAt env t = some command) (hlater : t < n)
    (hnone : ∀ u, t < u → u < n → dispatchedAt env u = none) :
    (after env n).commandStreamer.command = command ∧
      (after env n).commandStreamer.beginTime = t := by
  induction hlater with
  | refl =>
    obtain ⟨hcommand, htime, -⟩ := current_of_dispatch h
    exact ⟨hcommand, htime⟩
  | @step m hm ih =>
    obtain ⟨hcommand, htime⟩ := ih fun u hu hlt => hnone u hu (Nat.lt_succ_of_lt hlt)
    obtain ⟨hcommand', htime', -⟩ := @current_of_none env m 0 (hnone m hm (Nat.lt_succ_self m))
    exact ⟨hcommand'.trans hcommand, htime'.trans htime⟩

/-- Every clock without a launch writes the time that has gone by. -/
theorem time_written (h : dispatchedAt env t = some command)
    (hpointer : command.outTimeTaken = some v) (hlater : t + 2 ≤ n)
    (hnone : ∀ u, t < u → u ≤ n → dispatchedAt env u = none) :
    (after env (n + 1)).commandStreamer.timeTaken v = some (n - t) := by
  obtain ⟨hcommand, htime⟩ :=
    current_until h (by omega) fun u hu hlt => hnone u hu (Nat.le_of_lt hlt)
  obtain ⟨k, rfl⟩ : ∃ k, n = k + 1 := ⟨n - 1, by omega⟩
  have hpc := start_of_none (hnone k (by omega) (by omega))
  rw [(current_of_none (hnone (k + 1) (by omega) (Nat.le_refl _))).2.2, hcommand, htime,
    if_pos ⟨hpc, hpointer⟩]

theorem dispatches_of_some (h : dispatchedAt env t = some command) : Dispatches env t := by
  rw [Dispatches, h]
  rfl

/-- The first idle clock comes four clocks behind the launch at the earliest. -/
theorem FirstIdle.apart (hidle : FirstIdle env t f) (h : Dispatches env t) : t + 4 ≤ f := by
  have hlater := hidle.later
  by_contra hclose
  obtain rfl | rfl : f = t + 2 ∨ f = t + 3 := by omega
  · have hlow := hidle.low
    rw [h.busy.1] at hlow
    cases hlow
  · have hlow := hidle.low
    rw [h.busy.2] at hlow
    cases hlow

/-- Until then no other command is launched. -/
theorem FirstIdle.none_between (hidle : FirstIdle env t f) (h : Dispatches env t) {u : Nat}
    (hu : t < u) (hf : u < f) : dispatchedAt env u = none := by
  by_contra hsome
  have hdispatches : Dispatches env u := Option.isSome_iff_ne_none.mpr hsome
  have hapart := h.apart hdispatches hu
  have hlow := hdispatches.low.1
  rw [hidle.first u (by omega) hf] at hlow
  cases hlow

/-- A launch of a command with the variable overwrites it with a shorter time. -/
theorem overwritten (h : dispatchedAt env t = some command)
    (hpointer : command.outTimeTaken = some v) :
    (after env (t + 3)).commandStreamer.timeTaken v = some 2 := by
  have hdispatches := dispatches_of_some h
  have hnone : ∀ u, t < u → u ≤ t + 2 → dispatchedAt env u = none := by
    intro u hu hle
    by_contra hsome
    have hapart := hdispatches.apart (Option.isSome_iff_ne_none.mpr hsome) hu
    omega
  rw [time_written h hpointer (Nat.le_refl _) hnone, Nat.add_sub_cancel_left]

/-! ## When the time is right -/

section
variable (h : dispatchedAt env t = some command) (hpointer : command.outTimeTaken = some v)
  (hidle : FirstIdle env t f)
include h hpointer hidle

theorem Reports.leftAlone (hreports : Reports env t f v) : LeftAlone env f v := by
  have hdispatches := dispatches_of_some h
  have hapart := hidle.apart hdispatches
  have hnone : ∀ u, t < u → u < f → dispatchedAt env u = none :=
    fun u hu hf => hidle.none_between hdispatches hu hf
  have hempty : dispatchedAt env f = none ∧
      (after env f).commandStreamer.commands ++ env.pushed f = [] := by
    cases turn env f with
    | launches command' rest hdispatched hpc hlow hqueue hstep =>
      -- the time of the clock before was the last one written
      obtain ⟨k, rfl⟩ : ∃ k, f = k + 1 := ⟨f - 1, by omega⟩
      have hwritten := time_written h hpointer (n := k) (by omega)
        fun u hu hle => hnone u hu (by omega)
      have htime := hreports (k + 2) (by omega)
      rw [(current_of_dispatch hdispatched).2.2, hwritten] at htime
      have := Option.some.inj htime
      omega
    | lowers hdispatched hpc hstep =>
      obtain ⟨k, rfl⟩ : ∃ k, f = k + 1 := ⟨f - 1, by omega⟩
      rw [start_of_none (hnone k (by omega) (by omega))] at hpc
      cases hpc
    | idles hdispatched hpc hno hstep =>
      refine ⟨hdispatched, hno.resolve_left ?_⟩
      rw [hidle.low]
      decide
  refine ⟨hempty.2, ?_, ?_⟩
  · by_contra hnext
    -- the next idle clock counts on
    have hnone' : ∀ u, t < u → u ≤ f + 1 → dispatchedAt env u = none := by
      intro u hu hle
      obtain hlt | rfl | rfl : u < f ∨ u = f ∨ u = f + 1 := by omega
      · exact hnone u hu hlt
      · exact hempty.1
      · exact Option.not_isSome_iff_eq_none.mp hnext
    have hwritten := time_written h hpointer (n := f + 1) (by omega) hnone'
    rw [hreports (f + 2) (by omega)] at hwritten
    have := Option.some.inj hwritten
    omega
  · intro u hu command' hdispatched hpointer'
    have htime := hreports (u + 3) (by omega)
    rw [overwritten hdispatched hpointer'] at htime
    have := Option.some.inj htime
    omega

theorem LeftAlone.reports (halone : LeftAlone env f v) : Reports env t f v := by
  have hdispatches := dispatches_of_some h
  have hf : dispatchedAt env f = none := by
    by_contra hsome
    have hapart := Dispatches.apart (Option.isSome_iff_ne_none.mpr hsome) halone.next
      (Nat.lt_succ_self f)
    omega
  have hwritten := time_written h hpointer (n := f) hidle.later (by
    intro u hu hle
    rcases Nat.lt_or_eq_of_le hle with hlt | rfl
    · exact hidle.none_between hdispatches hu hlt
    · exact hf)
  obtain ⟨command', hcommand'⟩ := Option.isSome_iff_exists.mp halone.next
  -- behind the next launch the streamer has commands that do not use the variable
  have hstays : ∀ d, (after env (f + 2 + d)).commandStreamer.timeTaken v = some (f - t) ∧
      (after env (f + 2 + d)).commandStreamer.command.outTimeTaken ≠ some v := by
    intro d
    induction d with
    | zero =>
      obtain ⟨hcommand, -, htaken⟩ := current_of_dispatch hcommand'
      refine ⟨(congrFun htaken v).trans hwritten, ?_⟩
      rw [Nat.add_zero, hcommand]
      exact halone.others (f + 1) (Nat.lt_succ_self f) command' hcommand'
    | succ d ih =>
      obtain ⟨htime, hother⟩ := ih
      cases hdispatched : dispatchedAt env (f + 2 + d) with
      | none =>
        obtain ⟨hcommand, -, htaken⟩ := @current_of_none env (f + 2 + d) v hdispatched
        rw [if_neg fun hboth => hother hboth.2] at htaken
        refine ⟨htaken.trans htime, ?_⟩
        rw [← Nat.add_assoc, hcommand]
        exact hother
      | some command'' =>
        obtain ⟨hcommand, -, htaken⟩ := current_of_dispatch hdispatched
        refine ⟨(congrFun htaken v).trans htime, ?_⟩
        rw [← Nat.add_assoc, hcommand]
        exact halone.others (f + 2 + d) (by omega) command'' hdispatched
  intro n hn
  obtain rfl | hlater : n = f + 1 ∨ f + 2 ≤ n := by omega
  · exact hwritten
  · obtain ⟨d, rfl⟩ := Nat.exists_eq_add_of_le hlater
    exact (hstays d).1

/-- **When a reported time is the duration of its command**: exactly if the streamer is idle
    for one clock and then never has another command with the variable. -/
theorem reports_iff : Reports env t f v ↔ LeftAlone env f v :=
  ⟨Reports.leftAlone h hpointer hidle, LeftAlone.reports h hpointer hidle⟩

end

/-- One draw; its blocks are busy in the clocks 2 to 4. -/
def oneCommand : CommandEnvironment where
  pushed
    | 0 => [CommandStreamer.draw (some 0)]
    | _ + 1 => []
  blocks := fun n => [decide (2 ≤ n ∧ n < 5)]

/-- The time of the only command grows in the idle clocks behind it, and the time of a
    command that is followed at once is that of the clock before. -/
theorem times_not_durations :
    (dispatchedAt oneCommand 0 = some (CommandStreamer.draw (some 0)) ∧
      FirstIdle oneCommand 0 6 ∧ ¬ Reports oneCommand 0 6 0 ∧
      (after oneCommand 7).commandStreamer.timeTaken 0 = some 6 ∧
      (after oneCommand 8).commandStreamer.timeTaken 0 = some 7) ∧
    (dispatchedAt twoCommands 0 = some (CommandStreamer.draw (some 0)) ∧
      FirstIdle twoCommands 0 6 ∧ ¬ Reports twoCommands 0 6 0 ∧
      (after twoCommands 7).commandStreamer.timeTaken 0 = some 5) := by
  have hone : ∀ n < 6, 2 ≤ n → (after oneCommand n).out.outBusyNoCs = true := by decide
  have htwo : ∀ n < 6, 2 ≤ n → (after twoCommands n).out.outBusyNoCs = true := by decide
  refine ⟨⟨rfl, ⟨by decide, rfl, fun n h2 h6 => hone n h6 h2⟩, ?_, rfl, rfl⟩,
    ⟨rfl, ⟨by decide, rfl, fun n h2 h6 => htwo n h6 h2⟩, ?_, rfl⟩⟩
  · intro hreports
    have htime := hreports 8 (by decide)
    exact absurd htime (by decide)
  · intro hreports
    have htime := hreports 7 (by decide)
    exact absurd htime (by decide)

/-- A draw, and a blit that is queued when the streamer has been idle for a clock. -/
def lateCommand : CommandEnvironment where
  pushed
    | 0 => [CommandStreamer.draw (some 0)]
    | 7 => [CommandStreamer.blit .fillMem 0 0 1 (some 1)]
    | _ => []
  blocks := fun n => [decide ((2 ≤ n ∧ n < 5) ∨ (9 ≤ n ∧ n < 11))]

theorem lateCommand_pushed (m : Nat) : (pushedBefore lateCommand m).length ≤ 2 := by
  have hlater : ∀ n, (pushedBefore lateCommand (n + 8)).length = 2 := by
    intro n
    induction n with
    | zero => rfl
    | succ n ih =>
      rw [Nat.add_right_comm, pushedBefore_succ, List.length_append, ih]
      rfl
  have hbefore := (@pushedBefore_mono lateCommand m (m + 8) (by omega)).length_le
  rw [hlater] at hbefore
  exact hbefore

theorem lateCommand_reports : Reports lateCommand 0 6 0 := by
  have hfirst : ∀ n < 6, 2 ≤ n → (after lateCommand n).out.outBusyNoCs = true := by decide
  have hall : (dispatchedBefore lateCommand 8).length = 2 := by decide
  refine (@reports_iff lateCommand 0 6 0 (CommandStreamer.draw (some 0)) rfl rfl
    ⟨by decide, rfl, fun n h2 h6 => hfirst n h6 h2⟩).mpr ⟨rfl, by decide, ?_⟩
  intro u hu command hdispatched
  obtain rfl | hlater : u = 7 ∨ 8 ≤ u := by omega
  · cases hdispatched
    decide
  · exact absurd (dispatches_of_some hdispatched)
      (no_dispatch (n := 8) (hall ▸ lateCommand_pushed) hlater)

end CommandSystem

end PicoGpu
