import PicoGpu.Lib.Clocked
import PicoGpu.Transfer

/- One link: a process that only sends and a process that only receives, joined
   by the registered signals `sending`, `receiving` and the data ports. Each
   process works through its jobs; before a job it lets a number of clocks
   pass. With none, the next call starts in the clock in which the one before
   returned, so a `write(0)` followed by a `write(1)` leaves the signal up. -/
namespace PicoGpu
open Clocked

/-- Where a process stands: clocks still to pass before its job, inside the
    call of its job, out of jobs, or stopped by a fatal error. -/
inductive Pc (Call : Type) where
  | idle (clocks : Nat)
  | calling (call : Call)
  | finished
  | aborted (error : FatalError)

/-- A transfer call and the clocks its process lets pass before it. -/
structure Job (Args : Type) where
  idle : Nat
  args : Args

/-- A sending process: the job it is at, its ports, and the transfers whose send
    call has returned, each with the clock of the return. -/
structure Sender (α : Type) where
  job : Nat
  pc : Pc SendCall
  ports : SendPorts α
  returned : List (Nat × List α)

/-- A receiving process: `received` holds the transfers whose receive call has
    returned with `success = true`. -/
structure Receiver (α : Type) where
  job : Nat
  pc : Pc (ReceiveCall α)
  ports : ReceivePorts
  received : List (Nat × List α)

section
variable {α : Type} [Inhabited α]

/-- The sender with `clocks` clocks to pass before its job. -/
def Sender.start (jobs : Nat → Option (Job (SendArgs α))) (clocks : Nat) (s : Sender α) :
    Sender α :=
  match clocks, jobs s.job with
  | _, none => { s with pc := .finished }
  | clocks + 1, some _ => { s with pc := .idle clocks }
  | 0, some job =>
    match sendArrayImpl job.args s.ports with
    | .ok (call, ports) => { s with pc := .calling call, ports := ports }
    | .error e => { s with pc := .aborted e }

/-- The idle clocks of a job. -/
def idleOf {Args : Type} (jobs : Nat → Option (Job Args)) (i : Nat) : Nat :=
  ((jobs i).map Job.idle).getD 0

/-- The sender in the clock in which the call of its job returns. -/
def Sender.finish (jobs : Nat → Option (Job (SendArgs α))) (clock : Nat) (args : SendArgs α)
    (ports : SendPorts α) (s : Sender α) : Sender α :=
  Sender.start jobs (idleOf jobs (s.job + 1))
    { s with job := s.job + 1, ports := ports, returned := s.returned ++ [(clock, args.dataToSend)] }

/-- The sender after its call ran to its next `wait()` or to its return. -/
def Sender.proceed (jobs : Nat → Option (Job (SendArgs α))) (clock : Nat) (args : SendArgs α)
    (s : Sender α) : Option SendCall × SendPorts α → Sender α
  | (some call, ports) => { s with pc := .calling call, ports := ports }
  | (none, ports) => s.finish jobs clock args ports

def Sender.step (jobs : Nat → Option (Job (SendArgs α))) (clock : Nat) (inpReceiving : Bool)
    (s : Sender α) : Sender α :=
  match s.pc, jobs s.job with
  | .idle clocks, _ => s.start jobs clocks
  | .calling call, some job =>
    s.proceed jobs clock job.args (call.resume job.args inpReceiving s.ports)
  | _, _ => s

def Receiver.start (jobs : Nat → Option (Job ReceiveArgs)) (clocks : Nat) (r : Receiver α) :
    Receiver α :=
  match clocks, jobs r.job with
  | _, none => { r with pc := .finished }
  | clocks + 1, some _ => { r with pc := .idle clocks }
  | 0, some job =>
    match receiveArrayImpl job.args r.ports with
    | .ok (call, ports) => { r with pc := .calling call, ports := ports }
    | .error e => { r with pc := .aborted e }

/-- The receiver in the clock in which the call of its job returns. -/
def Receiver.finish (jobs : Nat → Option (Job ReceiveArgs)) (clock : Nat) (success : Bool)
    (data : List α) (ports : ReceivePorts) (r : Receiver α) : Receiver α :=
  Receiver.start jobs (idleOf jobs (r.job + 1))
    { r with job := r.job + 1, ports := ports,
             received := r.received ++ if success then [(clock, data)] else [] }

/-- The receiver after its call ran to its next `wait()` or to its return. -/
def Receiver.proceed (jobs : Nat → Option (Job ReceiveArgs)) (clock : Nat) (r : Receiver α) :
    ReceiveOutcome α × ReceivePorts → Receiver α
  | (.suspended call, ports) => { r with pc := .calling call, ports := ports }
  | (.returned success data, ports) => r.finish jobs clock success data ports

def Receiver.step (jobs : Nat → Option (Job ReceiveArgs)) (clock : Nat) (inpSending : Bool)
    (inpDataPorts : Nat → α) (r : Receiver α) : Receiver α :=
  match r.pc, jobs r.job with
  | .idle clocks, _ => r.start jobs clocks
  | .calling call, some job =>
    r.proceed jobs clock (call.resume job.args inpSending inpDataPorts r.ports)
  | _, _ => r

structure Link (α : Type) where
  sender : Sender α
  receiver : Receiver α

/-- One clock of the link: both processes read the signals of the old state. -/
def Link.step (sends : Nat → Option (Job (SendArgs α))) (receives : Nat → Option (Job ReceiveArgs))
    (clock : Nat) (l : Link α) : Link α where
  sender := l.sender.step sends clock l.receiver.ports.outReceiving
  receiver := l.receiver.step receives clock l.sender.ports.outSending l.sender.ports.outDataPorts

/-- Before the first clock all signals are low. -/
def Link.init (sends : Nat → Option (Job (SendArgs α)))
    (receives : Nat → Option (Job ReceiveArgs)) : Link α where
  sender := ⟨0, .idle (idleOf sends 0), ⟨false, fun _ => default⟩, []⟩
  receiver := ⟨0, .idle (idleOf receives 0), ⟨false, false⟩, []⟩

/-- The link after `n` clocks. -/
def Link.after (sends : Nat → Option (Job (SendArgs α)))
    (receives : Nat → Option (Job ReceiveArgs)) : Nat → Link α :=
  run (Link.step sends receives) (Link.init sends receives)

end

/-! ## What a clock does to one side -/

section
variable {α : Type}

theorem Sender.start_frame (jobs : Nat → Option (Job (SendArgs α))) (k : Nat) (s : Sender α) :
    (s.start jobs k).job = s.job ∧ (s.start jobs k).returned = s.returned := by
  unfold Sender.start
  split
  · exact ⟨rfl, rfl⟩
  · exact ⟨rfl, rfl⟩
  · split <;> exact ⟨rfl, rfl⟩

theorem Receiver.start_frame (jobs : Nat → Option (Job ReceiveArgs)) (k : Nat) (r : Receiver α) :
    (r.start jobs k).job = r.job ∧ (r.start jobs k).received = r.received := by
  unfold Receiver.start
  split
  · exact ⟨rfl, rfl⟩
  · exact ⟨rfl, rfl⟩
  · split <;> exact ⟨rfl, rfl⟩

theorem Sender.start_none {jobs : Nat → Option (Job (SendArgs α))} {s : Sender α}
    (h : jobs s.job = none) (k : Nat) : s.start jobs k = { s with pc := .finished } := by
  unfold Sender.start; rw [h]

theorem Receiver.start_none {jobs : Nat → Option (Job ReceiveArgs)} {r : Receiver α}
    (h : jobs r.job = none) (k : Nat) : r.start jobs k = { r with pc := .finished } := by
  unfold Receiver.start; rw [h]

variable [Inhabited α]

theorem Sender.step_idle {jobs : Nat → Option (Job (SendArgs α))} {s : Sender α} {k : Nat}
    (h : s.pc = .idle k) (clock : Nat) (inp : Bool) : s.step jobs clock inp = s.start jobs k := by
  unfold Sender.step; rw [h]

theorem Sender.step_calling {jobs : Nat → Option (Job (SendArgs α))} {s : Sender α}
    {call : SendCall} {job : Job (SendArgs α)} (h : s.pc = .calling call)
    (hj : jobs s.job = some job) (clock : Nat) (inp : Bool) :
    s.step jobs clock inp = s.proceed jobs clock job.args (call.resume job.args inp s.ports) := by
  unfold Sender.step; rw [h, hj]

omit [Inhabited α] in
theorem Sender.proceed_same {jobs : Nat → Option (Job (SendArgs α))} {s : Sender α}
    {call : SendCall} {clock : Nat} {args : SendArgs α} (h : s.pc = .calling call) :
    s.proceed jobs clock args (some call, s.ports) = s := by
  obtain ⟨job, pc, ports, returned⟩ := s
  cases h
  rfl

theorem Sender.step_finished {jobs : Nat → Option (Job (SendArgs α))} {s : Sender α}
    (h : s.pc = .finished) (clock : Nat) (inp : Bool) : s.step jobs clock inp = s := by
  unfold Sender.step; rw [h]

omit [Inhabited α] in
theorem Receiver.step_idle {jobs : Nat → Option (Job ReceiveArgs)} {r : Receiver α} {k : Nat}
    (h : r.pc = .idle k) (clock : Nat) (inp : Bool) (data : Nat → α) :
    r.step jobs clock inp data = r.start jobs k := by
  unfold Receiver.step; rw [h]

omit [Inhabited α] in
theorem Receiver.step_calling {jobs : Nat → Option (Job ReceiveArgs)} {r : Receiver α}
    {call : ReceiveCall α} {job : Job ReceiveArgs} (h : r.pc = .calling call)
    (hj : jobs r.job = some job) (clock : Nat) (inp : Bool) (data : Nat → α) :
    r.step jobs clock inp data =
      r.proceed jobs clock (call.resume job.args inp data r.ports) := by
  unfold Receiver.step; rw [h, hj]

omit [Inhabited α] in
theorem Receiver.step_finished {jobs : Nat → Option (Job ReceiveArgs)} {r : Receiver α}
    (h : r.pc = .finished) (clock : Nat) (inp : Bool) (data : Nat → α) :
    r.step jobs clock inp data = r := by
  unfold Receiver.step; rw [h]

/-- A side that is out of jobs only stops. -/
theorem Sender.step_over {jobs : Nat → Option (Job (SendArgs α))} {s : Sender α}
    (h : jobs s.job = none) (hpc : s.pc = .finished ∨ ∃ k, s.pc = .idle k) (clock : Nat)
    (inp : Bool) : (s.step jobs clock inp).pc = .finished ∧
      (s.step jobs clock inp).job = s.job ∧ (s.step jobs clock inp).returned = s.returned := by
  rcases hpc with hpc | ⟨k, hpc⟩
  · rw [Sender.step_finished hpc]
    exact ⟨hpc, rfl, rfl⟩
  · rw [Sender.step_idle hpc, Sender.start_none h]
    exact ⟨rfl, rfl, rfl⟩

omit [Inhabited α] in
theorem Receiver.step_over {jobs : Nat → Option (Job ReceiveArgs)} {r : Receiver α}
    (h : jobs r.job = none) (hpc : r.pc = .finished ∨ ∃ k, r.pc = .idle k) (clock : Nat)
    (inp : Bool) (data : Nat → α) : (r.step jobs clock inp data).pc = .finished ∧
      (r.step jobs clock inp data).job = r.job ∧
      (r.step jobs clock inp data).received = r.received := by
  rcases hpc with hpc | ⟨k, hpc⟩
  · rw [Receiver.step_finished hpc]
    exact ⟨hpc, rfl, rfl⟩
  · rw [Receiver.step_idle hpc, Receiver.start_none h]
    exact ⟨rfl, rfl, rfl⟩

theorem Link.step_sender (sends receives) {clock : Nat} {l : Link α} {b : Bool}
    (h : l.receiver.ports.outReceiving = b) :
    (l.step sends receives clock).sender = l.sender.step sends clock b := by
  rw [← h]; rfl

theorem Link.step_receiver (sends receives) {clock : Nat} {l : Link α} {b : Bool}
    (h : l.sender.ports.outSending = b) :
    (l.step sends receives clock).receiver =
      l.receiver.step receives clock b l.sender.ports.outDataPorts := by
  rw [← h]; rfl

end

end PicoGpu
