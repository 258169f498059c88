import PicoGpu.Link

/- The rasterizer-to-fragment-shader link. `Rasterizer::rasterize` calls
   `Transfer::send` for each fragment and `FragmentShader::perFragmentThread`
   calls `Transfer::receiveWithTimeout` with a timeout of 5 over and over.

   `receiveArrayImpl` gives up in the second clock after it raised
   `outReceiving`, without looking at `inpSending` again. A send call made one
   clock after the receive call therefore finds `inpReceiving` up in the clock
   in which the receiver gives up, and returns although nobody took its data.
   `fragments_delivered_iff` says that this is the only way to lose a fragment:
   as long as no send call starts there, both sides finish together. -/
namespace PicoGpu
open Clocked

variable {α : Type}

/-- The fragments to send, each with the clocks the rasterizer lets pass before it. -/
def rasterizerSends (fragments : List (Nat × α)) (i : Nat) : Option (Job (SendArgs α)) :=
  fragments[i]?.map fun f => ⟨f.1, Transfer.send f.2⟩

/-- `FragmentShader::perFragmentThread`'s `timeout`. -/
def fragmentTimeout : Nat := 5

/-- The receive calls, `idles i` clocks before the `i`-th one. -/
def fragmentShaderReceives (idles : Nat → Nat) (i : Nat) : Option (Job ReceiveArgs) :=
  some ⟨idles i, Transfer.receiveWithTimeout fragmentTimeout⟩

def fragmentLink [Inhabited α] (fragments : List (Nat × α)) (idles : Nat → Nat) : Nat → Link α :=
  Link.after (rasterizerSends fragments) (fragmentShaderReceives idles)

/-- The fragments received with `success = true` are those whose send call has
    returned, in order. -/
def Delivered (l : Link α) : Prop :=
  l.receiver.received.map Prod.snd = l.sender.returned.map Prod.snd

/-- The next send call starts in this clock, and in this clock the receiver makes
    the one test of `inpSending` that a call with this timeout makes, and fails it. -/
def SendsIntoTimeout (fragments : List (Nat × α)) (l : Link α) : Prop :=
  (∃ clocksWaiting, l.receiver.pc = .calling (.acknowledge clocksWaiting)) ∧
  l.sender.ports.outSending = false ∧ l.sender.pc = .idle 0 ∧ l.sender.job < fragments.length

/-! ## One call -/

theorem resume_send_waits [Inhabited α] (v : α) (ports : SendPorts α) :
    (SendCall.acknowledge 1 1).resume (Transfer.send v) false ports =
      (some (.acknowledge 1 1), ports) := rfl

theorem resume_send_returns [Inhabited α] (v : α) (ports : SendPorts α) :
    ∃ ports', (SendCall.acknowledge 1 1).resume (Transfer.send v) true ports = (none, ports') ∧
      ports'.outSending = false := by
  have hpkg : (Transfer.send v).packagesCount = 1 := packagesCount_one
  simp [SendCall.resume, sendPackages, hpkg]

theorem resume_receive_offered (timeout : Nat) (data : Nat → α) (ports : ReceivePorts) :
    (ReceiveCall.acknowledge 1).resume (Transfer.receiveWithTimeout timeout) true data ports =
      (.returned true [data 0], ⟨false, ports.outBusinessSignal⟩) := by
  have hpkg : (Transfer.receiveWithTimeout timeout).packagesCount = 1 := packagesCount_one
  simp only [ReceiveCall.resume, awaitSending, receivePackages, hpkg]
  rfl

/-! ## The processes between two clocks -/

section
variable (fragments : List (Nat × α))

/-- The sender is not in a call. -/
def Sender.Quiet (s : Sender α) : Prop :=
  s.ports.outSending = false ∧ (s.pc = .finished ∨ ∃ k, s.pc = .idle k)

/-- The sender offers `v` and waits for the acknowledgement. -/
def Sender.Offers (v : α) (s : Sender α) : Prop :=
  s.ports.outSending = true ∧ s.ports.outDataPorts 0 = v ∧ s.pc = .calling (.acknowledge 1 1) ∧
  ∃ k, fragments[s.job]? = some (k, v)

def Receiver.Away (r : Receiver α) : Prop := r.ports.outReceiving = false ∧ ∃ k, r.pc = .idle k

/-- The receiver has raised `outReceiving` in the clock before. -/
def Receiver.Waits (r : Receiver α) : Prop :=
  r.ports.outReceiving = true ∧ r.pc = .calling (.acknowledge 1)

/-- The receiver has failed its test and gives up next. -/
def Receiver.GivesUp (r : Receiver α) : Prop :=
  r.ports.outReceiving = true ∧ r.pc = .calling (.stalled 1)

variable {fragments}

theorem rasterizerSends_eq {i k : Nat} {v : α} (h : fragments[i]? = some (k, v)) :
    rasterizerSends fragments i = some ⟨k, Transfer.send v⟩ := by
  unfold rasterizerSends; rw [h]; rfl

theorem Sender.start_offers {s : Sender α} (h : s.job < fragments.length) :
    ∃ v, (s.start (rasterizerSends fragments) 0).Offers fragments v := by
  unfold Sender.start rasterizerSends
  have hf := List.getElem?_eq_getElem h
  rw [hf]
  exact ⟨fragments[s.job].2, rfl, rfl, rfl, fragments[s.job].1, hf⟩

/-- A sender with its signal low begins to offer only when no clock is left to
    pass and there is a fragment left. -/
theorem Sender.start_cases (s : Sender α) (h : s.ports.outSending = false) (k : Nat) :
    (s.start (rasterizerSends fragments) k).Quiet ∨
    (k = 0 ∧ s.job < fragments.length ∧
      ∃ v, (s.start (rasterizerSends fragments) k).Offers fragments v) := by
  by_cases hlt : s.job < fragments.length
  · cases k with
    | zero => exact Or.inr ⟨rfl, hlt, Sender.start_offers hlt⟩
    | succ k =>
      unfold Sender.start rasterizerSends
      rw [List.getElem?_eq_getElem hlt]
      exact Or.inl ⟨h, Or.inr ⟨k, rfl⟩⟩
  · unfold Sender.start rasterizerSends
    rw [List.getElem?_eq_none (Nat.le_of_not_lt hlt)]
    exact Or.inl ⟨h, Or.inl rfl⟩

theorem Receiver.start_cases {idles : Nat → Nat} {r : Receiver α} (h : r.ports.outReceiving = false)
    (k : Nat) : (r.start (fragmentShaderReceives idles) k).Away ∨
      (r.start (fragmentShaderReceives idles) k).Waits := by
  cases k with
  | succ k => exact Or.inl ⟨h, k, rfl⟩
  | zero => exact Or.inr ⟨rfl, rfl⟩

theorem Sender.Quiet.step [Inhabited α] (fragments : List (Nat × α)) {s : Sender α} (h : s.Quiet) (clock : Nat) (inp : Bool) :
    (s.step (rasterizerSends fragments) clock inp).returned = s.returned ∧
    ((s.step (rasterizerSends fragments) clock inp).Quiet ∨
      (s.pc = .idle 0 ∧ s.job < fragments.length ∧
        ∃ v, (s.step (rasterizerSends fragments) clock inp).Offers fragments v)) := by
  obtain ⟨hs, hpc | ⟨k, hpc⟩⟩ := h
  · rw [Sender.step_finished hpc]
    exact ⟨rfl, Or.inl ⟨hs, Or.inl hpc⟩⟩
  · rw [Sender.step_idle hpc]
    refine ⟨(Sender.start_frame _ k s).2, ?_⟩
    rcases Sender.start_cases s hs k with hq | ⟨rfl, hv⟩
    · exact Or.inl hq
    · exact Or.inr ⟨hpc, hv⟩

theorem Sender.Offers.step_unanswered [Inhabited α] {s : Sender α} {v : α} (h : s.Offers fragments v)
    (clock : Nat) : s.step (rasterizerSends fragments) clock false = s := by
  obtain ⟨-, -, hpc, k, hf⟩ := h
  rw [Sender.step_calling hpc (rasterizerSends_eq hf), resume_send_waits]
  exact Sender.proceed_same hpc

theorem Sender.Offers.step_answered [Inhabited α] {s : Sender α} {v : α}
    (h : s.Offers fragments v) (clock : Nat) :
    (s.step (rasterizerSends fragments) clock true).returned = s.returned ++ [(clock, [v])] ∧
    ((s.step (rasterizerSends fragments) clock true).Quiet ∨
      ∃ w, (s.step (rasterizerSends fragments) clock true).Offers fragments w) := by
  obtain ⟨-, -, hpc, k, hf⟩ := h
  obtain ⟨ports', hr, hlow⟩ := resume_send_returns v s.ports
  have he : s.step (rasterizerSends fragments) clock true =
      s.finish (rasterizerSends fragments) clock (Transfer.send v) ports' := by
    rw [Sender.step_calling hpc (rasterizerSends_eq hf), hr]
    rfl
  rw [he]
  refine ⟨(Sender.start_frame _ _ _).2, ?_⟩
  rcases Sender.start_cases { s with job := s.job + 1, ports := ports', returned := _ } hlow
    (idleOf (rasterizerSends fragments) (s.job + 1)) with hq | ⟨_, _, hw⟩
  · exact Or.inl hq
  · exact Or.inr hw

theorem Receiver.Away.step (idles : Nat → Nat) {r : Receiver α} (h : r.Away) (clock : Nat)
    (inp : Bool) (data : Nat → α) :
    (r.step (fragmentShaderReceives idles) clock inp data).received = r.received ∧
    ((r.step (fragmentShaderReceives idles) clock inp data).Away ∨
      (r.step (fragmentShaderReceives idles) clock inp data).Waits) := by
  obtain ⟨hr, k, hpc⟩ := h
  rw [Receiver.step_idle hpc]
  exact ⟨(Receiver.start_frame _ k r).2, Receiver.start_cases hr k⟩

theorem Receiver.Waits.step_silent (idles : Nat → Nat) {r : Receiver α} (h : r.Waits)
    (clock : Nat) (data : Nat → α) :
    (r.step (fragmentShaderReceives idles) clock false data).received = r.received ∧
    (r.step (fragmentShaderReceives idles) clock false data).GivesUp := by
  obtain ⟨hr, hpc⟩ := h
  have he : r.step (fragmentShaderReceives idles) clock false data =
      { r with pc := .calling (.stalled 1) } := by
    unfold Receiver.step
    simp only [hpc]
    rfl
  rw [he]
  exact ⟨rfl, hr, rfl⟩

theorem Receiver.Waits.step_offered (idles : Nat → Nat) {r : Receiver α} (h : r.Waits)
    (clock : Nat) (data : Nat → α) :
    (r.step (fragmentShaderReceives idles) clock true data).received =
      r.received ++ [(clock, [data 0])] ∧
    ((r.step (fragmentShaderReceives idles) clock true data).Away ∨
      (r.step (fragmentShaderReceives idles) clock true data).Waits) := by
  have he : r.step (fragmentShaderReceives idles) clock true data =
      r.finish (fragmentShaderReceives idles) clock true [data 0] ⟨false, r.ports.outBusinessSignal⟩ := by
    have hj : fragmentShaderReceives idles r.job =
      some ⟨idles r.job, Transfer.receiveWithTimeout fragmentTimeout⟩ := rfl
    rw [Receiver.step_calling h.2 hj, resume_receive_offered]
    rfl
  rw [he]
  exact ⟨(Receiver.start_frame _ _ _).2, Receiver.start_cases rfl _⟩

/-- The wait inside the loop ends in a cancellation, whatever `inpSending` shows. -/
theorem Receiver.GivesUp.step (idles : Nat → Nat) {r : Receiver α} (h : r.GivesUp)
    (clock : Nat) (inp : Bool) (data : Nat → α) :
    (r.step (fragmentShaderReceives idles) clock inp data).received = r.received ∧
    ((r.step (fragmentShaderReceives idles) clock inp data).Away ∨
      (r.step (fragmentShaderReceives idles) clock inp data).Waits) := by
  have he : r.step (fragmentShaderReceives idles) clock inp data =
      r.finish (fragmentShaderReceives idles) clock false [] ⟨false, r.ports.outBusinessSignal⟩ := by
    unfold Receiver.step
    simp only [h.2]
    rfl
  rw [he]
  refine ⟨?_, Receiver.start_cases rfl _⟩
  exact (Receiver.start_frame _ _ _).2.trans (List.append_nil _)

/-! ## The invariant -/

/-- What holds between two clocks while no send call has started into a timeout:
    a sender that offers never faces a receiver that gives up. -/
def LinkInv (fragments : List (Nat × α)) (l : Link α) : Prop :=
  Delivered l ∧
  (((l.sender.Quiet ∨ ∃ v, l.sender.Offers fragments v) ∧ (l.receiver.Away ∨ l.receiver.Waits)) ∨
    (l.sender.Quiet ∧ l.receiver.GivesUp))

theorem delivered_of_eq {l l' : Link α} (h : Delivered l)
    (hs : l'.sender.returned = l.sender.returned) (hr : l'.receiver.received = l.receiver.received) :
    Delivered l' := by
  unfold Delivered
  rw [hs, hr]
  exact h

theorem linkInv_init [Inhabited α] (idles : Nat → Nat) :
    LinkInv fragments (Link.init (rasterizerSends fragments) (fragmentShaderReceives idles)) :=
  ⟨rfl, Or.inl ⟨Or.inl ⟨rfl, Or.inr ⟨_, rfl⟩⟩, Or.inl ⟨rfl, _, rfl⟩⟩⟩

theorem linkInv_step [Inhabited α] {idles : Nat → Nat} {l : Link α} (clock : Nat)
    (h : LinkInv fragments l) (hsafe : ¬ SendsIntoTimeout fragments l) :
    LinkInv fragments
      (l.step (rasterizerSends fragments) (fragmentShaderReceives idles) clock) := by
  obtain ⟨hd, ⟨hq | ⟨v, ho⟩, ha | hw⟩ | ⟨hq, hg⟩⟩ := h
  · -- nobody is in a call
    obtain ⟨hret, hs⟩ := hq.step fragments clock l.receiver.ports.outReceiving
    obtain ⟨hrec, hr⟩ := ha.step idles clock l.sender.ports.outSending
      l.sender.ports.outDataPorts
    exact ⟨delivered_of_eq hd hret hrec, Or.inl ⟨hs.imp_right fun h => h.2.2, hr⟩⟩
  · -- the receiver's test fails: a send call may not start in this clock
    obtain ⟨hret, hs⟩ := hq.step fragments clock l.receiver.ports.outReceiving
    obtain ⟨hrec, hr⟩ := hw.step_silent idles clock l.sender.ports.outDataPorts
    rw [← Link.step_receiver (rasterizerSends fragments) _ hq.1] at hrec hr
    refine ⟨delivered_of_eq hd hret hrec, Or.inr ⟨?_, hr⟩⟩
    rcases hs with hs | ⟨hpc, hlt, -⟩
    · exact hs
    · exact absurd ⟨⟨1, hw.2⟩, hq.1, hpc, hlt⟩ hsafe
  · -- the sender waits for a receiver
    have hs := ho.step_unanswered clock
    obtain ⟨hrec, hr⟩ := ha.step idles clock l.sender.ports.outSending
      l.sender.ports.outDataPorts
    rw [← Link.step_sender _ (fragmentShaderReceives idles) ha.1] at hs
    refine ⟨delivered_of_eq hd (by rw [hs]) hrec, Or.inl ⟨Or.inr ⟨v, by rw [hs]; exact ho⟩, hr⟩⟩
  · -- both sides see each other's signal
    obtain ⟨hret, hs⟩ := ho.step_answered clock
    obtain ⟨hrec, hr⟩ := hw.step_offered idles clock l.sender.ports.outDataPorts
    rw [← Link.step_sender _ (fragmentShaderReceives idles) hw.1] at hret hs
    rw [← Link.step_receiver (rasterizerSends fragments) _ ho.1] at hrec hr
    refine ⟨?_, Or.inl ⟨hs, hr⟩⟩
    unfold Delivered
    rw [hret, hrec, List.map_append, List.map_append, ho.2.1, hd]
  · -- the receiver gives up, and the sender has not seen it yet
    obtain ⟨hret, hs⟩ := hq.step fragments clock l.receiver.ports.outReceiving
    obtain ⟨hrec, hr⟩ := hg.step idles clock l.sender.ports.outSending
      l.sender.ports.outDataPorts
    exact ⟨delivered_of_eq hd hret hrec, Or.inl ⟨hs.imp_right fun h => h.2.2, hr⟩⟩

/-- A send call that starts into a timeout returns two clocks later, and its
    fragment is not received. -/
theorem lost_after [Inhabited α] {idles : Nat → Nat} {l : Link α} (clock : Nat)
    (h : LinkInv fragments l) (hinto : SendsIntoTimeout fragments l) :
    let next := Link.step (rasterizerSends fragments) (fragmentShaderReceives idles)
    ¬ Delivered (next (clock + 1) (next clock l)) := by
  intro next hdel
  obtain ⟨⟨c, hc⟩, hlow, hpc, hlt⟩ := hinto
  have hw : l.receiver.Waits := by
    obtain ⟨-, ⟨-, ⟨-, k, hk⟩ | hw⟩ | ⟨-, -, hk⟩⟩ := h
    · simp [hk] at hc
    · exact hw
    · simp [hk] at hc
  -- the first clock: the offer goes out, the test fails
  obtain ⟨v, ho⟩ := Sender.start_offers hlt
  have hs : (next clock l).sender = l.sender.start (rasterizerSends fragments) 0 :=
    Sender.step_idle hpc clock l.receiver.ports.outReceiving
  obtain ⟨hrec, hg⟩ := hw.step_silent idles clock l.sender.ports.outDataPorts
  rw [← Link.step_receiver (rasterizerSends fragments) _ hlow] at hrec hg
  rw [← hs] at ho
  -- the second clock: the sender is acknowledged by a receiver that gives up
  obtain ⟨hret, -⟩ := ho.step_answered (clock + 1)
  rw [← Link.step_sender _ (fragmentShaderReceives idles) hg.1] at hret
  obtain ⟨hrec', -⟩ := hg.step idles (clock + 1) (next clock l).sender.ports.outSending
    (next clock l).sender.ports.outDataPorts
  have hlen := congrArg List.length hdel
  have hlen' := congrArg List.length h.1
  simp only [List.length_map] at hlen hlen'
  have hr2 : (next (clock + 1) (next clock l)).receiver.received = l.receiver.received :=
    hrec'.trans hrec
  have hs1 : (next clock l).sender.returned = l.sender.returned := by
    rw [hs]; exact (Sender.start_frame _ _ _).2
  rw [hr2, hret, hs1, List.length_append, List.length_singleton] at hlen
  omega

/-! ## Whole runs -/

/-- **No fragment is lost exactly when no send call starts into a timeout.** -/
theorem fragments_delivered_iff [Inhabited α] (fragments : List (Nat × α)) (idles : Nat → Nat) :
    (∀ n, Delivered (fragmentLink fragments idles n)) ↔
      ∀ n, ¬ SendsIntoTimeout fragments (fragmentLink fragments idles n) := by
  have hinv : ∀ n, (∀ m < n, ¬ SendsIntoTimeout fragments (fragmentLink fragments idles m)) →
      LinkInv fragments (fragmentLink fragments idles n) :=
    run_inv (linkInv_init idles) fun clock l h hsafe => linkInv_step clock h hsafe
  constructor
  · intro hdel n
    induction n using Nat.strongRecOn with
    | _ n ih =>
      intro hinto
      exact lost_after n (hinv n ih) hinto (hdel (n + 2))
  · intro hsafe n
    exact (hinv n fun m _ => hsafe m).1

/-- One fragment, sent two clocks into the run by a rasterizer that finds the
    fragment shader in the receive call it started in clock 1. -/
theorem fragment_lost :
    (fragmentLink [(2, 7)] (fun _ => 1) 4).sender.returned = [(3, [7])] ∧
    (fragmentLink [(2, 7)] (fun _ => 1) 4).receiver.received = [] ∧
    ¬ ∀ n, Delivered (fragmentLink [(2, 7)] (fun _ => 1) n) := by
  refine ⟨by decide, by decide, fun h => ?_⟩
  have h4 := h 4
  revert h4
  unfold Delivered
  decide

end

end PicoGpu
