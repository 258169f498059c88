import PicoGpu.Link

/- Streams of transfers over one link: `sendArrayImpl` on one side and
   `receiveArrayImpl` without a timeout on the other, with the same lengths, the
   same number of parallel ports and any number of idle clocks on either side
   before a handshake. A handshake transfer may be followed at once, on both
   sides, by transfers without a handshake, as in the stream of commands and
   inputs that ShaderFrontend sends to a ShaderUnit.

   The invariant (`InStep`) says where the two calls stand relative to each
   other. Before the handshake each side is either idle or raises its signal and
   waits. From the clock in which both see the other's signal the calls move
   together: package `p` is on the ports in the clock in which the receiver
   holds the packages before it. `agree_step` is the step lemma; the index of
   `InStep` counts the clocks the current transfer still needs. -/
namespace PicoGpu
open Clocked

variable {α : Type}

/-- What a transfer carries and the number of parallel ports it goes through. -/
structure Payload (α : Type) where
  data : List α
  ports : Nat
  data_pos : 0 < data.length
  ports_pos : 0 < ports

/-- A handshake transfer, the clocks either side lets pass before it, and the
    transfers without a handshake that follow it at once. -/
structure Burst (α : Type) where
  sendIdle : Nat
  receiveIdle : Nat
  first : Payload α
  rest : List (Payload α)

/-- One transfer of a stream. Only a handshake transfer has idle clocks before it. -/
inductive Xfer (α : Type) where
  | handshake (sendIdle receiveIdle : Nat) (payload : Payload α)
  | continued (payload : Payload α)

namespace Xfer

def payload : Xfer α → Payload α
  | handshake _ _ d | continued d => d

def data (x : Xfer α) : List α := x.payload.data

def ports (x : Xfer α) : Nat := x.payload.ports

def performHandshake : Xfer α → Bool
  | handshake .. => true
  | continued _ => false

def sendIdle : Xfer α → Nat
  | handshake k _ _ => k
  | continued _ => 0

def receiveIdle : Xfer α → Nat
  | handshake _ k _ => k
  | continued _ => 0

/-- Packages of a transfer. -/
def packages (x : Xfer α) : Nat := packagesCount x.data.length x.ports

def sendArgs (x : Xfer α) : SendArgs α where
  dataToSend := x.data
  dataPortsCount := x.ports
  performHandshake := x.performHandshake

def receiveArgs (outBusinessSignal : Bool) (x : Xfer α) : ReceiveArgs where
  dataPortsCount := x.ports
  dataToReceiveCount := x.data.length
  outBusinessSignal := outBusinessSignal
  timeout := none
  performHandshake := x.performHandshake

end Xfer

def Burst.transfers (b : Burst α) : List (Xfer α) :=
  .handshake b.sendIdle b.receiveIdle b.first :: b.rest.map .continued

def streamSends (script : List (Xfer α)) (i : Nat) : Option (Job (SendArgs α)) :=
  script[i]?.map fun x => ⟨x.sendIdle, x.sendArgs⟩

/-- `business i` tells whether the `i`-th receive call has a business signal. -/
def streamReceives (business : Nat → Bool) (script : List (Xfer α)) (i : Nat) :
    Option (Job ReceiveArgs) :=
  script[i]?.map fun x => ⟨x.receiveIdle, x.receiveArgs (business i)⟩

/-- The link after `n` clocks of a stream of bursts. -/
def stream [Inhabited α] (business : Nat → Bool) (bursts : List (Burst α)) : Nat → Link α :=
  Link.after (streamSends (bursts.flatMap Burst.transfers))
    (streamReceives business (bursts.flatMap Burst.transfers))

/-! ## Packages -/

/-- Package `p` exists when elements are left for it. -/
theorem lt_packagesCount {count ports p : Nat} (hp : 0 < ports) :
    p < packagesCount count ports ↔ p * ports < count := by
  unfold packagesCount
  rw [← Nat.succ_le_iff, Nat.le_div_iff_mul_le hp, Nat.succ_mul]
  omega

section
variable {x : Xfer α} {p : Nat}

/-- Package `p` of `x` is on the data ports. -/
def Xfer.Shown (x : Xfer α) (p : Nat) (dataPorts : Nat → α) : Prop :=
  ∀ port < x.ports, ∀ h : p * x.ports + port < x.data.length,
    dataPorts port = x.data[p * x.ports + port]

theorem shown_writePackage (x : Xfer α) (p : Nat) (dataPorts : Nat → α) :
    x.Shown p (x.sendArgs.writePackage (p * x.ports) dataPorts) := by
  intro port hport hlt
  simp [SendArgs.writePackage, Xfer.sendArgs, hport, List.getElem?_eq_getElem hlt]

/-- A receiver that holds the packages before `p` and reads package `p` holds the
    packages up to it. -/
theorem readPackage_shown (b : Bool) {dataPorts : Nat → α} (h : x.Shown p dataPorts) :
    (x.receiveArgs b).readPackage dataPorts (x.data.take (p * x.ports)) =
      x.data.take ((p + 1) * x.ports) := by
  have hpkg : (List.range (min x.ports (x.data.length - (x.data.take (p * x.ports)).length))).map
      dataPorts = (x.data.drop (p * x.ports)).take x.ports := by
    apply List.ext_getElem
    · simp; omega
    · intro port hport _
      simp only [List.length_map, List.length_range, List.length_take] at hport
      have hlt : p * x.ports + port < x.data.length := by omega
      simp [h port (by omega) hlt]
  rw [Nat.succ_mul, List.take_add]
  exact congrArg (x.data.take (p * x.ports) ++ ·) hpkg

/-- After package `p` the sender writes package `p + 1` if there is one. -/
theorem sendPackages_next [Inhabited α] (hmore : p + 1 < x.packages) (sp : SendPorts α) :
    ∃ sp', sendPackages x.sendArgs (x.sendArgs.packageEnd (p * x.ports)) (p + 1) sp =
        (some (.package (x.sendArgs.packageEnd ((p + 1) * x.ports)) (p + 1)), sp') ∧
      sp'.outSending = sp.outSending ∧ x.Shown (p + 1) sp'.outDataPorts := by
  have hlt : (p + 1) * x.ports < x.data.length := (lt_packagesCount x.payload.ports_pos).mp hmore
  have hend : x.sendArgs.packageEnd (p * x.ports) = (p + 1) * x.ports := by
    rw [Nat.succ_mul] at hlt ⊢
    exact Nat.min_eq_right (Nat.le_of_lt hlt)
  refine ⟨⟨sp.outSending, x.sendArgs.writePackage ((p + 1) * x.ports) sp.outDataPorts⟩, ?_,
    rfl, shown_writePackage x (p + 1) sp.outDataPorts⟩
  rw [hend]
  exact if_pos hmore

/-- After the last package the sender clears its data ports and returns. -/
theorem sendPackages_last [Inhabited α] (hlast : ¬ p + 1 < x.packages) (dataSent : Nat)
    (sp : SendPorts α) :
    ∃ sp', sendPackages x.sendArgs dataSent (p + 1) sp = (none, sp') ∧
      sp'.outSending = sp.outSending :=
  ⟨⟨sp.outSending, _⟩, if_neg hlast, rfl⟩

theorem take_all (hlast : ¬ p + 1 < x.packages) : x.data.take ((p + 1) * x.ports) = x.data :=
  List.take_of_length_le
    (Nat.le_of_not_lt fun h => hlast ((lt_packagesCount x.payload.ports_pos).mpr h))

end

/-! ## Where the two sides stand -/

/-- The sender before the handshake of `x`: `k` clocks from its call, or, with
    none left, in the call with the first package on the ports. -/
def Sender.Approaches (x : Xfer α) : Nat → Sender α → Prop
  | 0, s => s.pc = .calling (.acknowledge (x.sendArgs.packageEnd (0 * x.ports)) 1) ∧
      s.ports.outSending = true ∧ x.Shown 0 s.ports.outDataPorts
  | k + 1, s => s.pc = .idle k ∧ s.ports.outSending = false

def Receiver.Approaches : Nat → Receiver α → Prop
  | 0, r => (∃ c, r.pc = .calling (.acknowledge c) ∨ r.pc = .calling (.stalled c)) ∧
      r.ports.outReceiving = true
  | k + 1, r => r.pc = .idle k ∧ r.ports.outReceiving = false

/-- The sender has package `p` of `x` on the ports, without a handshake going on. -/
def Sender.Moves (x : Xfer α) (p : Nat) (s : Sender α) : Prop :=
  s.pc = .calling (.package (x.sendArgs.packageEnd (p * x.ports)) p) ∧
  s.ports.outSending = false ∧ x.Shown p s.ports.outDataPorts

/-- The receiver holds the packages before `p` and reads package `p` next. -/
def Receiver.Moves (x : Xfer α) (p : Nat) (r : Receiver α) : Prop :=
  r.pc = .calling (.package (x.data.take (p * x.ports)) p) ∧ r.ports.outReceiving = false

section
variable {script : List (Xfer α)} {business : Nat → Bool}

/-- The relative position of the two sides, with the clocks that the current
    transfer still needs. -/
inductive InStep (script : List (Xfer α)) : Nat → Sender α → Receiver α → Prop
  | done {s r} (hjob : script[s.job]? = none) (hs : s.pc = .finished ∨ ∃ k, s.pc = .idle k)
      (hr : r.pc = .finished ∨ ∃ k, r.pc = .idle k) : InStep script 0 s r
  | meeting {s r} (x : Xfer α) (hjob : script[s.job]? = some x) (hx : x.performHandshake = true)
      (a b : Nat) (hs : s.Approaches x a) (hr : r.Approaches b) :
      InStep script (a + b + x.packages) s r
  | moving {s r} (x : Xfer α) (hjob : script[s.job]? = some x) (p : Nat) (hp : p < x.packages)
      (hs : s.Moves x p) (hr : r.Moves x p) : InStep script (x.packages - p) s r

theorem sendArrayImpl_xfer (x : Xfer α) (sp : SendPorts α) :
    ∃ sp', sendArrayImpl x.sendArgs sp = .ok (if x.performHandshake then
        .acknowledge (x.sendArgs.packageEnd (0 * x.ports)) 1
        else .package (x.sendArgs.packageEnd (0 * x.ports)) 0, sp') ∧
      sp'.outSending = (x.performHandshake || sp.outSending) ∧ x.Shown 0 sp'.outDataPorts := by
  have hlen : x.sendArgs.dataToSendCount ≠ 0 := Nat.ne_of_gt x.payload.data_pos
  have hp : x.sendArgs.dataPortsCount ≠ 0 := Nat.ne_of_gt x.payload.ports_pos
  refine ⟨⟨x.performHandshake || sp.outSending,
    x.sendArgs.writePackage (0 * x.ports) sp.outDataPorts⟩, ?_, rfl, shown_writePackage x 0 _⟩
  unfold sendArrayImpl
  rw [if_neg hlen, if_neg hp, Nat.zero_mul]
  cases x <;> rfl

theorem receiveArrayImpl_xfer (b : Bool) (x : Xfer α) (rp : ReceivePorts) :
    ∃ rp', receiveArrayImpl (x.receiveArgs b) rp = .ok (if x.performHandshake then
        .acknowledge 1 else .package (x.data.take (0 * x.ports)) 0, rp') ∧
      rp'.outReceiving = (x.performHandshake || rp.outReceiving) := by
  have hlen : (x.receiveArgs b).dataToReceiveCount ≠ 0 := Nat.ne_of_gt x.payload.data_pos
  have hp : (x.receiveArgs b).dataPortsCount ≠ 0 := Nat.ne_of_gt x.payload.ports_pos
  refine ⟨{ rp with outReceiving := x.performHandshake || rp.outReceiving }, ?_, rfl⟩
  unfold receiveArrayImpl
  rw [if_neg hlen, if_neg hp, Nat.zero_mul, List.take_zero]
  cases x <;> rfl

theorem streamSends_eq {i : Nat} {x : Xfer α} (h : script[i]? = some x) :
    streamSends script i = some ⟨x.sendIdle, x.sendArgs⟩ := by
  unfold streamSends; rw [h]; rfl

theorem streamReceives_eq {i : Nat} {x : Xfer α} (h : script[i]? = some x) :
    streamReceives business script i = some ⟨x.receiveIdle, x.receiveArgs (business i)⟩ := by
  unfold streamReceives; rw [h]; rfl

theorem streamSends_none {i : Nat} (h : script[i]? = none) : streamSends script i = none := by
  unfold streamSends; rw [h]; rfl

theorem streamReceives_none (business : Nat → Bool) {i : Nat} (h : script[i]? = none) :
    streamReceives business script i = none := by
  unfold streamReceives; rw [h]; rfl

theorem Sender.start_approaches {s : Sender α} {x : Xfer α} (hjob : script[s.job]? = some x)
    (hx : x.performHandshake = true) (hlow : s.ports.outSending = false) (k : Nat) :
    (s.start (streamSends script) k).Approaches x k := by
  unfold Sender.start
  rw [streamSends_eq hjob]
  cases k with
  | succ k => exact ⟨rfl, hlow⟩
  | zero =>
    obtain ⟨sp', hcall, hup, hshow⟩ := sendArrayImpl_xfer x s.ports
    rw [hx] at hcall hup
    simp only [hcall]
    exact ⟨rfl, hup, hshow⟩

theorem Receiver.start_approaches {r : Receiver α} {x : Xfer α} (hjob : script[r.job]? = some x)
    (hx : x.performHandshake = true) (hlow : r.ports.outReceiving = false) (k : Nat) :
    (r.start (streamReceives business script) k).Approaches k := by
  unfold Receiver.start
  rw [streamReceives_eq hjob]
  cases k with
  | succ k => exact ⟨rfl, hlow⟩
  | zero =>
    obtain ⟨rp', hcall, hup⟩ := receiveArrayImpl_xfer (business r.job) x r.ports
    rw [hx] at hcall hup
    simp only [hcall]
    exact ⟨⟨1, Or.inl rfl⟩, hup⟩

theorem Sender.start_moves {s : Sender α} {x : Xfer α} (hjob : script[s.job]? = some x)
    (hx : x.performHandshake = false) (hlow : s.ports.outSending = false) :
    (s.start (streamSends script) 0).Moves x 0 := by
  unfold Sender.start
  rw [streamSends_eq hjob]
  obtain ⟨sp', hcall, hup, hshow⟩ := sendArrayImpl_xfer x s.ports
  rw [hx] at hcall hup
  simp only [hcall]
  exact ⟨rfl, hup.trans hlow, hshow⟩

theorem Receiver.start_moves {r : Receiver α} {x : Xfer α} (hjob : script[r.job]? = some x)
    (hx : x.performHandshake = false) (hlow : r.ports.outReceiving = false) :
    (r.start (streamReceives business script) 0).Moves x 0 := by
  unfold Receiver.start
  rw [streamReceives_eq hjob]
  obtain ⟨rp', hcall, hup⟩ := receiveArrayImpl_xfer (business r.job) x r.ports
  rw [hx] at hcall hup
  simp only [hcall]
  exact ⟨rfl, hup.trans hlow⟩

/-- When both sides come to the same job with their signals low, they are in step. -/
theorem start_inStep (script : List (Xfer α)) (business : Nat → Bool) (s : Sender α)
    (r : Receiver α) (hjobs : r.job = s.job)
    (hs : s.ports.outSending = false) (hr : r.ports.outReceiving = false) :
    ∃ left, InStep script left
      (s.start (streamSends script) (idleOf (streamSends script) s.job))
      (r.start (streamReceives business script)
        (idleOf (streamReceives business script) r.job)) := by
  cases hx : script[s.job]? with
  | none =>
    have hxr : script[r.job]? = none := by rw [hjobs, hx]
    refine ⟨0, .done ?_ ?_ ?_⟩
    · rw [(Sender.start_frame _ _ s).1, hx]
    · rw [Sender.start_none (streamSends_none hx)]; exact Or.inl rfl
    · rw [Receiver.start_none (streamReceives_none business hxr)]; exact Or.inl rfl
  | some x =>
    have hxr : script[r.job]? = some x := by rw [hjobs, hx]
    have hks : idleOf (streamSends script) s.job = x.sendIdle := by
      unfold idleOf; rw [streamSends_eq hx]; rfl
    have hkr : idleOf (streamReceives business script) r.job = x.receiveIdle := by
      unfold idleOf; rw [streamReceives_eq hxr]; rfl
    have hsj : script[(s.start (streamSends script) x.sendIdle).job]? = some x := by
      rw [(Sender.start_frame _ _ s).1, hx]
    rw [hks, hkr]
    cases x with
    | handshake a b d =>
      exact ⟨_, .meeting _ hsj rfl _ _ (Sender.start_approaches hx rfl hs _)
        (Receiver.start_approaches hxr rfl hr _)⟩
    | continued d =>
      exact ⟨_, .moving _ hsj 0 (packagesCount_pos d.data_pos d.ports_pos)
        (Sender.start_moves hx rfl hs) (Receiver.start_moves hxr rfl hr)⟩

/-! ## The joint invariant -/

/-- Both sides are at the same job, in step, and every transfer that has returned
    returned on both sides in the same clock with the array that was sent. -/
structure Agree (script : List (Xfer α)) (left : Nat) (l : Link α) : Prop where
  jobs : l.receiver.job = l.sender.job
  received : l.receiver.received = l.sender.returned
  arrays : l.sender.returned.map Prod.snd = (script.take l.sender.job).map Xfer.data
  inStep : InStep script left l.sender l.receiver

/-- What one clock does to a link in step: nothing more to do, one clock less of
    the current transfer, or on to the next transfer. -/
def Advances (script : List (Xfer α)) (left : Nat) (l l' : Link α) : Prop :=
  (left = 0 ∧ Agree script 0 l' ∧ l'.sender.job = l.sender.job) ∨
  (∃ left' < left, Agree script left' l' ∧ l'.sender.job = l.sender.job) ∨
  (0 < left ∧ ∃ left', Agree script left' l' ∧ l'.sender.job = l.sender.job + 1)

/-- Both calls return in this clock. -/
theorem agree_finish {left : Nat} {l l' : Link α} {x : Xfer α} {sp : SendPorts α}
    {rp : ReceivePorts} (h : Agree script left l) (hjob : script[l.sender.job]? = some x)
    (hsp : sp.outSending = false) (hrp : rp.outReceiving = false) (clock : Nat)
    (hs : l'.sender = l.sender.finish (streamSends script) clock x.sendArgs sp)
    (hr : l'.receiver =
      l.receiver.finish (streamReceives business script) clock true x.data rp) :
    ∃ left', Agree script left' l' ∧ l'.sender.job = l.sender.job + 1 := by
  obtain ⟨hsjob, hsret⟩ := Sender.start_frame (streamSends script)
    (idleOf (streamSends script) (l.sender.job + 1))
    ⟨l.sender.job + 1, l.sender.pc, sp, l.sender.returned ++ [(clock, x.data)]⟩
  obtain ⟨hrjob, hrret⟩ := Receiver.start_frame (streamReceives business script)
    (idleOf (streamReceives business script) (l.receiver.job + 1))
    ⟨l.receiver.job + 1, l.receiver.pc, rp, l.receiver.received ++ [(clock, x.data)]⟩
  obtain ⟨left', hstep⟩ := start_inStep script business
    ⟨l.sender.job + 1, l.sender.pc, sp, l.sender.returned ++ [(clock, x.data)]⟩
    ⟨l.receiver.job + 1, l.receiver.pc, rp, l.receiver.received ++ [(clock, x.data)]⟩
    (congrArg (· + 1) h.jobs) hsp hrp
  have hs' : l'.sender.job = l.sender.job + 1 ∧
      l'.sender.returned = l.sender.returned ++ [(clock, x.data)] := by
    rw [hs]; exact ⟨hsjob, hsret⟩
  have hr' : l'.receiver.job = l.receiver.job + 1 ∧
      l'.receiver.received = l.receiver.received ++ [(clock, x.data)] := by
    rw [hr]; exact ⟨hrjob, hrret⟩
  refine ⟨left', ⟨?_, ?_, ?_, ?_⟩, hs'.1⟩
  · rw [hr'.1, hs'.1, h.jobs]
  · rw [hr'.2, hs'.2, h.received]
  · rw [hs'.1, hs'.2, List.take_add_one, hjob, List.map_append, List.map_append, h.arrays]
    rfl
  · rw [hs, hr]
    exact hstep

/-- Both calls stand in the loop over the packages with package `p` handled. -/
theorem agree_packages [Inhabited α] {left : Nat} {l l' : Link α} {x : Xfer α} {p : Nat}
    (business : Nat → Bool) (sp : SendPorts α) (rp : ReceivePorts) (h : Agree script left l)
    (hjob : script[l.sender.job]? = some x) (hp : p < x.packages)
    (hleft : x.packages - p ≤ left) (hsp : sp.outSending = false) (hrp : rp.outReceiving = false)
    (clock : Nat) (b : Bool)
    (hs : l'.sender = l.sender.proceed (streamSends script) clock x.sendArgs
      (sendPackages x.sendArgs (x.sendArgs.packageEnd (p * x.ports)) (p + 1) sp))
    (hr : l'.receiver = l.receiver.proceed (streamReceives business script) clock
      (receivePackages (x.receiveArgs b) (x.data.take ((p + 1) * x.ports)) (p + 1), rp)) :
    Advances script left l l' := by
  by_cases hmore : p + 1 < x.packages
  · -- a further package on both sides
    obtain ⟨sp', hcall, hlow, hshow⟩ := sendPackages_next hmore sp
    have hrecv : receivePackages (x.receiveArgs b) (x.data.take ((p + 1) * x.ports)) (p + 1) =
        .suspended (.package (x.data.take ((p + 1) * x.ports)) (p + 1)) := if_pos hmore
    rw [hcall] at hs
    rw [hrecv] at hr
    simp only [Sender.proceed] at hs
    simp only [Receiver.proceed] at hr
    have hmove : InStep script (x.packages - (p + 1)) l'.sender l'.receiver := by
      refine .moving x ?_ (p + 1) hmore ?_ ?_
      · rw [hs]; exact hjob
      · rw [hs]; exact ⟨rfl, hlow.trans hsp, hshow⟩
      · rw [hr]; exact ⟨rfl, hrp⟩
    refine Or.inr (Or.inl ⟨x.packages - (p + 1), by omega, ⟨?_, ?_, ?_, hmove⟩, by rw [hs]⟩)
    · rw [hs, hr]; exact h.jobs
    · rw [hs, hr]; exact h.received
    · rw [hs]; exact h.arrays
  · -- the last package: both calls return
    obtain ⟨sp', hcall, hlow⟩ := sendPackages_last hmore (x.sendArgs.packageEnd (p * x.ports)) sp
    have hrecv : receivePackages (x.receiveArgs b) (x.data.take ((p + 1) * x.ports)) (p + 1) =
        .returned true x.data := by
      rw [take_all hmore]; exact if_neg hmore
    rw [hcall] at hs
    rw [hrecv] at hr
    exact Or.inr (Or.inr ⟨by omega, agree_finish h hjob (hlow.trans hsp) hrp clock hs hr⟩)

/-! ## One side before the handshake -/

theorem Sender.Approaches.waits [Inhabited α] {s : Sender α} {x : Xfer α} {a : Nat}
    (h : s.Approaches x a) (hjob : script[s.job]? = some x) (hx : x.performHandshake = true)
    (clock : Nat) :
    (s.step (streamSends script) clock false).Approaches x (a - 1) ∧
    (s.step (streamSends script) clock false).job = s.job ∧
    (s.step (streamSends script) clock false).returned = s.returned := by
  cases a with
  | zero =>
    have hsame : s.step (streamSends script) clock false = s := by
      rw [Sender.step_calling h.1 (streamSends_eq hjob)]
      exact Sender.proceed_same h.1
    rw [hsame]
    exact ⟨h, rfl, rfl⟩
  | succ k =>
    rw [Sender.step_idle h.1]
    exact ⟨Sender.start_approaches hjob hx h.2 k, Sender.start_frame _ k s⟩

theorem Sender.Approaches.idles [Inhabited α] {s : Sender α} {x : Xfer α} {a : Nat}
    (h : s.Approaches x (a + 1)) (hjob : script[s.job]? = some x) (hx : x.performHandshake = true)
    (clock : Nat) (inp : Bool) :
    (s.step (streamSends script) clock inp).Approaches x a ∧
    (s.step (streamSends script) clock inp).job = s.job ∧
    (s.step (streamSends script) clock inp).returned = s.returned := by
  rw [Sender.step_idle h.1]
  exact ⟨Sender.start_approaches hjob hx h.2 a, Sender.start_frame _ a s⟩

theorem Receiver.Approaches.idles {r : Receiver α} {x : Xfer α} {b : Nat}
    (h : r.Approaches (b + 1)) (hjob : script[r.job]? = some x) (hx : x.performHandshake = true)
    (clock : Nat) (inp : Bool) (data : Nat → α) :
    (r.step (streamReceives business script) clock inp data).Approaches b ∧
    (r.step (streamReceives business script) clock inp data).job = r.job ∧
    (r.step (streamReceives business script) clock inp data).received = r.received := by
  rw [Receiver.step_idle h.1]
  exact ⟨Receiver.start_approaches hjob hx h.2 b, Receiver.start_frame _ b r⟩

/-- Without a timeout, a receiver in either of its waits takes the same step. -/
theorem Receiver.Approaches.tests (business : Nat → Bool) {r : Receiver α} {x : Xfer α} (h : r.Approaches 0)
    (hjob : script[r.job]? = some x) (clock : Nat) (inp : Bool) (data : Nat → α) :
    ∃ c, r.step (streamReceives business script) clock inp data =
      r.proceed (streamReceives business script) clock
        (awaitSending (x.receiveArgs (business r.job)) inp data c r.ports) := by
  obtain ⟨⟨c, hpc | hpc⟩, -⟩ := h <;>
    exact ⟨c, by rw [Receiver.step_calling hpc (streamReceives_eq hjob)]; rfl⟩

theorem Receiver.Approaches.waits {r : Receiver α} {x : Xfer α} {b : Nat}
    (h : r.Approaches b) (hjob : script[r.job]? = some x) (hx : x.performHandshake = true)
    (clock : Nat) (data : Nat → α) :
    (r.step (streamReceives business script) clock false data).Approaches (b - 1) ∧
    (r.step (streamReceives business script) clock false data).job = r.job ∧
    (r.step (streamReceives business script) clock false data).received = r.received := by
  cases b with
  | zero =>
    obtain ⟨c, hstep⟩ := h.tests business hjob clock false data
    rw [hstep]
    exact ⟨⟨⟨c, Or.inr rfl⟩, h.2⟩, rfl, rfl⟩
  | succ k => exact h.idles hjob hx clock false data

/-- A clock before the handshake brings the two calls nearer. -/
theorem agree_approach (a b : Nat) {left : Nat} {l l' : Link α} {x : Xfer α} (h : Agree script left l)
    (hjob : script[l.sender.job]? = some x) (hx : x.performHandshake = true)
    (hleft : a + b + x.packages < left)
    (hs : l'.sender.Approaches x a ∧ l'.sender.job = l.sender.job ∧
      l'.sender.returned = l.sender.returned)
    (hr : l'.receiver.Approaches b ∧ l'.receiver.job = l.receiver.job ∧
      l'.receiver.received = l.receiver.received) : Advances script left l l' := by
  obtain ⟨hs, hsjob, hsret⟩ := hs
  obtain ⟨hr, hrjob, hrret⟩ := hr
  refine Or.inr (Or.inl ⟨_, hleft, ⟨?_, ?_, ?_, .meeting x ?_ hx a b hs hr⟩, hsjob⟩)
  · rw [hrjob, hsjob, h.jobs]
  · rw [hrret, hsret, h.received]
  · rw [hsjob, hsret, h.arrays]
  · rw [hsjob, hjob]

/-- One clock of a link in step. -/
theorem agree_step [Inhabited α] (business : Nat → Bool) {left : Nat} {l : Link α} (h : Agree script left l)
    (clock : Nat) :
    Advances script left l (l.step (streamSends script) (streamReceives business script) clock) := by
  have hin := h.inStep
  generalize hls : l.sender = s at hin
  generalize hlr : l.receiver = r at hin
  cases hin with
  | done hjob hs hr =>
    subst hls hlr
    obtain ⟨hspc, hsjob, hsret⟩ := Sender.step_over (streamSends_none hjob) hs clock
      l.receiver.ports.outReceiving
    obtain ⟨hrpc, hrjob, hrret⟩ := Receiver.step_over
      (streamReceives_none business (h.jobs ▸ hjob)) hr clock
      l.sender.ports.outSending l.sender.ports.outDataPorts
    refine Or.inl ⟨rfl, ⟨?_, ?_, ?_, .done ?_ (Or.inl hspc) (Or.inl hrpc)⟩, hsjob⟩
    · exact hrjob.trans (h.jobs.trans hsjob.symm)
    · exact hrret.trans (h.received.trans hsret.symm)
    · show (l.sender.step _ clock _).returned.map Prod.snd =
        (script.take (l.sender.step _ clock _).job).map Xfer.data
      rw [hsjob, hsret, h.arrays]
    · exact hsjob ▸ hjob
  | meeting x hjob hx a b hs hr =>
    subst hls hlr
    have hrjob : script[l.receiver.job]? = some x := by rw [h.jobs, hjob]
    match a, b with
    | 0, 0 =>
      -- each side finds the other's signal up
      obtain ⟨c, hrstep⟩ := hr.tests business hrjob clock true
        l.sender.ports.outDataPorts
      have hread : (x.receiveArgs (business l.receiver.job)).readPackage l.sender.ports.outDataPorts
          [] = x.data.take ((0 + 1) * x.ports) := by
        rw [← readPackage_shown _ hs.2.2, Nat.zero_mul, List.take_zero]
      refine agree_packages (p := 0) business { l.sender.ports with outSending := false }
        ((x.receiveArgs (business l.receiver.job)).leaveHandshake l.receiver.ports) h hjob (packagesCount_pos x.payload.data_pos x.payload.ports_pos)
        (Nat.le_add_left _ _) rfl rfl clock (business l.receiver.job) ?_ ?_
      · rw [Link.step_sender _ _ hr.2, Sender.step_calling hs.1 (streamSends_eq hjob)]
        rfl
      · rw [Link.step_receiver _ _ hs.2.1, hrstep, ← hread]
        rfl
    | 0, b + 1 =>
      refine agree_approach 0 b h hjob hx (by omega) ?_
        (hr.idles hrjob hx clock l.sender.ports.outSending l.sender.ports.outDataPorts)
      rw [Link.step_sender _ _ hr.2]
      exact hs.waits hjob hx clock
    | a + 1, 0 =>
      refine agree_approach a 0 h hjob hx (by omega)
        (hs.idles hjob hx clock l.receiver.ports.outReceiving) ?_
      rw [Link.step_receiver _ _ hs.2]
      exact hr.waits hrjob hx clock l.sender.ports.outDataPorts
    | a + 1, b + 1 =>
      exact agree_approach a b h hjob hx (by omega)
        (hs.idles hjob hx clock l.receiver.ports.outReceiving)
        (hr.idles hrjob hx clock l.sender.ports.outSending l.sender.ports.outDataPorts)
  | moving x hjob p hp hs hr =>
    subst hls hlr
    have hrjob : script[l.receiver.job]? = some x := by rw [h.jobs, hjob]
    refine agree_packages business l.sender.ports l.receiver.ports h hjob hp
      (Nat.le_refl _) hs.2.1 hr.2 clock (business l.receiver.job) ?_ ?_
    · rw [Link.step_sender _ _ hr.2, Sender.step_calling hs.1 (streamSends_eq hjob)]
      rfl
    · rw [Link.step_receiver _ _ hs.2.1, Receiver.step_calling hr.1 (streamReceives_eq hrjob),
        ← readPackage_shown (business l.receiver.job) hs.2.2]
      rfl

theorem Agree.left_eq_zero {left : Nat} {l : Link α} (h : Agree script left l)
    (hjob : script[l.sender.job]? = none) : left = 0 := by
  have hin := h.inStep
  generalize l.sender = s at hin hjob
  cases hin with
  | done => rfl
  | meeting x hx => simp [hx] at hjob
  | moving x hx => simp [hx] at hjob

theorem Agree.left_pos {left : Nat} {l : Link α} {x : Xfer α} (h : Agree script left l)
    (hjob : script[l.sender.job]? = some x) : 0 < left := by
  have hin := h.inStep
  generalize l.sender = s at hin hjob
  cases hin with
  | done hnone => simp [hnone] at hjob
  | meeting y _ _ a b =>
    exact Nat.lt_of_lt_of_le (packagesCount_pos y.payload.data_pos y.payload.ports_pos)
      (Nat.le_add_left _ _)
  | moving y _ p hp => omega

/-- When both sides have called, the transfer needs no more clocks than it has packages. -/
theorem Agree.left_le {left : Nat} {l : Link α} {x : Xfer α} (h : Agree script left l)
    (hjob : script[l.sender.job]? = some x) {call : SendCall} {call' : ReceiveCall α}
    (hs : l.sender.pc = .calling call) (hr : l.receiver.pc = .calling call') :
    left ≤ x.packages := by
  have hin := h.inStep
  generalize l.sender = s at hin hjob hs
  generalize l.receiver = r at hin hr
  cases hin with
  | done => omega
  | meeting y hy _ a b ha hb =>
    obtain rfl : y = x := Option.some.inj (hy.symm.trans hjob)
    cases a with
    | succ k => simp [ha.1] at hs
    | zero =>
      cases b with
      | succ k => simp [hb.1] at hr
      | zero => omega
  | moving y hy p =>
    obtain rfl : y = x := Option.some.inj (hy.symm.trans hjob)
    omega

end

/-! ## Whole runs -/

section
variable [Inhabited α] (business : Nat → Bool) (bursts : List (Burst α))

/-- The first transfer of a stream is a handshake one, so both sides may let
    clocks pass before it. -/
theorem agree_init :
    ∃ left, Agree (bursts.flatMap Burst.transfers) left (stream business bursts 0) := by
  cases bursts with
  | nil => exact ⟨0, rfl, rfl, rfl, .done rfl (Or.inr ⟨_, rfl⟩) (Or.inr ⟨_, rfl⟩)⟩
  | cons b rest =>
    exact ⟨_, rfl, rfl, rfl, .meeting (.handshake b.sendIdle b.receiveIdle b.first) rfl rfl
      (b.sendIdle + 1) (b.receiveIdle + 1) ⟨rfl, rfl⟩ ⟨rfl, rfl⟩⟩

theorem stream_agree (n : Nat) :
    ∃ left, Agree (bursts.flatMap Burst.transfers) left (stream business bursts n) := by
  refine @run_always _ _ (fun l => ∃ left, Agree (bursts.flatMap Burst.transfers) left l) _
    (agree_init business bursts) ?_ n
  rintro clock l ⟨left, h⟩
  obtain ⟨-, h', -⟩ | ⟨left', -, h', -⟩ | ⟨-, left', h', -⟩ :=
    agree_step business h clock
  · exact ⟨0, h'⟩
  · exact ⟨left', h'⟩
  · exact ⟨left', h'⟩

/-- The transfer that is due returns within the clocks it still needs. -/
theorem agree_returns {x : Xfer α} : ∀ left n,
    Agree (bursts.flatMap Burst.transfers) left (stream business bursts n) →
    (bursts.flatMap Burst.transfers)[(stream business bursts n).sender.job]? = some x →
    ∃ d ≤ left, (stream business bursts (n + d)).sender.job =
      (stream business bursts n).sender.job + 1 := by
  intro left
  induction left using Nat.strongRecOn with
  | _ left ih =>
    intro n h hjob
    have hpos := h.left_pos hjob
    obtain ⟨hzero, -, -⟩ | ⟨left', hlt, h', hsame⟩ | ⟨-, left', -, hnext⟩ :=
      agree_step business h n
    · omega
    · have hsame : (stream business bursts (n + 1)).sender.job =
          (stream business bursts n).sender.job := hsame
      obtain ⟨d, hd, hret⟩ := ih left' hlt (n + 1) h' (by rw [hsame, hjob])
      refine ⟨d + 1, by omega, ?_⟩
      rw [← Nat.add_assoc, Nat.add_right_comm, hret, hsame]
    · exact ⟨1, hpos, hnext⟩

theorem stream_reaches : ∀ k ≤ (bursts.flatMap Burst.transfers).length,
    ∃ n, (stream business bursts n).sender.job = k := by
  intro k hk
  induction k with
  | zero => exact ⟨0, rfl⟩
  | succ k ih =>
    obtain ⟨n, hn⟩ := ih (by omega)
    obtain ⟨left, h⟩ := stream_agree business bursts n
    have hjob := List.getElem?_eq_getElem (l := bursts.flatMap Burst.transfers) (i := k) (by omega)
    obtain ⟨d, -, hd⟩ := agree_returns business bursts left n h (by rw [hn]; exact hjob)
    exact ⟨n + d, by rw [hd, hn]⟩

/-- After the last transfer nothing moves any more. -/
theorem stream_over {n : Nat}
    (h : (stream business bursts n).sender.job = (bursts.flatMap Burst.transfers).length) :
    ∀ d, (stream business bursts (n + d)).sender.job = (bursts.flatMap Burst.transfers).length := by
  intro d
  induction d with
  | zero => exact h
  | succ d ih =>
    obtain ⟨left, ha⟩ := stream_agree business bursts (n + d)
    have hzero := ha.left_eq_zero (by rw [ih]; exact List.getElem?_eq_none (Nat.le_refl _))
    obtain ⟨-, -, hsame⟩ | ⟨left', hlt, -⟩ | ⟨hpos, -⟩ :=
      agree_step business ha (n + d)
    · exact hsame.trans ih
    · omega
    · omega

/-- **Handshake transfers deliver exactly.** At every clock the transfers that have
    returned have returned on both sides, in the same clock, with the arrays that
    were to be sent, in order. Once both sides have called, the transfer returns
    within as many clocks as it has packages, and in the end all have returned. -/
theorem transfers_delivered :
    (∀ n, (stream business bursts n).receiver.received = (stream business bursts n).sender.returned ∧
      (stream business bursts n).sender.returned.map Prod.snd =
        ((bursts.flatMap Burst.transfers).take (stream business bursts n).sender.job).map Xfer.data) ∧
    (∀ n x call call',
      (bursts.flatMap Burst.transfers)[(stream business bursts n).sender.job]? = some x →
      (stream business bursts n).sender.pc = .calling call →
      (stream business bursts n).receiver.pc = .calling call' →
      ∃ d ≤ x.packages, (stream business bursts (n + d)).sender.job =
        (stream business bursts n).sender.job + 1) ∧
    ∃ n, ∀ d, (stream business bursts (n + d)).receiver.received.map Prod.snd =
      (bursts.flatMap Burst.transfers).map Xfer.data := by
  have hall : ∀ n, (stream business bursts n).receiver.received =
        (stream business bursts n).sender.returned ∧
      (stream business bursts n).sender.returned.map Prod.snd =
        ((bursts.flatMap Burst.transfers).take (stream business bursts n).sender.job).map
          Xfer.data := by
    intro n
    obtain ⟨left, h⟩ := stream_agree business bursts n
    exact ⟨h.received, h.arrays⟩
  refine ⟨hall, ?_, ?_⟩
  · intro n x call call' hjob hs hr
    obtain ⟨left, h⟩ := stream_agree business bursts n
    obtain ⟨d, hd, hret⟩ := agree_returns business bursts left n h hjob
    exact ⟨d, Nat.le_trans hd (h.left_le hjob hs hr), hret⟩
  · obtain ⟨n, hn⟩ := stream_reaches business bursts _ (Nat.le_refl _)
    refine ⟨n, fun d => ?_⟩
    rw [(hall (n + d)).1, (hall (n + d)).2, stream_over business bursts hn d, List.take_length]

end

end PicoGpu
