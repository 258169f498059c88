import PicoGpu.Util

/- `Transfer::sendArrayImpl` and `Transfer::receiveArrayImpl`, cut at their
   `wait()`s. A call runs up to its first `wait()` when it is made and from one
   `wait()` to the next, or to its return, at every clock after that. Between
   two waits it reads the signals as the clock found them and leaves in its
   ports what the next clock will find.

   Correspondence (transfer.h ↔ here):
     `SendArgs`, `ReceiveArgs`        ↔ the structures of that name
     the code before the first `wait` ↔ `sendArrayImpl`, `receiveArrayImpl`
     the code after a `wait`          ↔ `SendCall.resume`, `ReceiveCall.resume`
     the locals live across a `wait`  ↔ the fields of `SendCall`, `ReceiveCall`
   Counts are natural numbers: an array and a port array that exist in memory
   are far below the range of `size_t`. Only `clocksWaiting` can reach its end,
   where it turns over. `default` stands for `{}`. -/
namespace PicoGpu

/-- What a `size_t` counts up to. -/
def sizeRange : Nat := 2 ^ 64

/-- Packages of `ports` elements that `count` elements need. -/
def packagesCount (count ports : Nat) : Nat := (count + ports - 1) / ports

section Send
variable {α : Type}

structure SendArgs (α : Type) where
  dataToSend : List α
  dataPortsCount : Nat
  performHandshake : Bool

namespace SendArgs

def dataToSendCount (args : SendArgs α) : Nat := args.dataToSend.length

def packagesCount (args : SendArgs α) : Nat :=
  PicoGpu.packagesCount args.dataToSendCount args.dataPortsCount

/-- `dataSent` after the package that starts at `dataSent`. -/
def packageEnd (args : SendArgs α) (dataSent : Nat) : Nat :=
  min args.dataToSendCount (dataSent + args.dataPortsCount)

/-- The data ports after the package that starts at `dataSent`: a port the
    package does not reach keeps its value. -/
def writePackage (args : SendArgs α) (dataSent : Nat) (outDataPorts : Nat → α) : Nat → α :=
  fun port =>
    if port < args.dataPortsCount then
      (args.dataToSend[dataSent + port]?).getD (outDataPorts port)
    else outDataPorts port

end SendArgs

/-- The ports a sender drives. -/
structure SendPorts (α : Type) where
  outSending : Bool
  outDataPorts : Nat → α

/-- A `sendArrayImpl` call in one of its two `wait()`s: the one that waits for
    the receiver's acknowledgement, or the one after a further package. -/
inductive SendCall where
  | acknowledge (dataSent packagesSent : Nat)
  | package (dataSent packagesSent : Nat)
  deriving DecidableEq, Repr

/-- A call of `sendArrayImpl` up to its first `wait()`. Without a handshake the
    first package is written at once; there is one, because the array is not
    empty (`packagesCount_pos`). -/
def sendArrayImpl (args : SendArgs α) (ports : SendPorts α) :
    Except FatalError (SendCall × SendPorts α) :=
  if args.dataToSendCount = 0 then .error "Cannot send empty array"
  else if args.dataPortsCount = 0 then .error "Cannot send through zero ports"
  else if args.performHandshake then
    .ok (.acknowledge (args.packageEnd 0) 1,
      { outSending := true, outDataPorts := args.writePackage 0 ports.outDataPorts })
  else
    .ok (.package (args.packageEnd 0) 0,
      { ports with outDataPorts := args.writePackage 0 ports.outDataPorts })

variable [Inhabited α]

/-- The loop over the remaining packages, from its test: the next `wait()`, or
    the return with the data ports cleared. -/
def sendPackages (args : SendArgs α) (dataSent packagesSent : Nat) (ports : SendPorts α) :
    Option SendCall × SendPorts α :=
  if packagesSent < args.packagesCount then
    (some (.package (args.packageEnd dataSent) packagesSent),
      { ports with outDataPorts := args.writePackage dataSent ports.outDataPorts })
  else
    (none, { ports with outDataPorts := fun port =>
      if port < args.dataPortsCount then default else ports.outDataPorts port })

/-- From a `wait()` to the next one (`some`) or to the return (`none`). -/
def SendCall.resume (args : SendArgs α) (inpReceiving : Bool) (ports : SendPorts α) :
    SendCall → Option SendCall × SendPorts α
  | .acknowledge dataSent packagesSent =>
    if inpReceiving then
      sendPackages args dataSent packagesSent { ports with outSending := false }
    else (some (.acknowledge dataSent packagesSent), ports)
  | .package dataSent packagesSent => sendPackages args dataSent (packagesSent + 1) ports

/-- The arguments `Transfer::send` fills in for one element. -/
def Transfer.send (dataToSend : α) : SendArgs α where
  dataToSend := [dataToSend]
  dataPortsCount := 1
  performHandshake := true

end Send

section Receive
variable {α : Type}

structure ReceiveArgs where
  dataPortsCount : Nat
  dataToReceiveCount : Nat
  /-- whether the caller passed a business signal -/
  outBusinessSignal : Bool
  timeout : Option Nat
  performHandshake : Bool

def ReceiveArgs.packagesCount (args : ReceiveArgs) : Nat :=
  PicoGpu.packagesCount args.dataToReceiveCount args.dataPortsCount

/-- The ports a receiver drives. `outBusinessSignal` is the optional one. -/
structure ReceivePorts where
  outReceiving : Bool
  outBusinessSignal : Bool
  deriving DecidableEq, Repr

/-- A `receiveArrayImpl` call in one of its three `wait()`s: the one right after
    raising `outReceiving`, the one in the loop on `inpSending`, and the one
    before a further package. -/
inductive ReceiveCall (α : Type) where
  | acknowledge (clocksWaiting : Nat)
  | stalled (clocksWaiting : Nat)
  | package (dataReceived : List α) (packagesReceived : Nat)

/-- Where a resumed call stops: the next `wait()`, or its return with the success
    code and the elements it stored. -/
inductive ReceiveOutcome (α : Type) where
  | suspended (call : ReceiveCall α)
  | returned (success : Bool) (dataReceived : List α)

/-- A call of `receiveArrayImpl` up to its first `wait()`. -/
def receiveArrayImpl (args : ReceiveArgs) (ports : ReceivePorts) :
    Except FatalError (ReceiveCall α × ReceivePorts) :=
  if args.dataToReceiveCount = 0 then .error "Cannot receive empty array"
  else if args.dataPortsCount = 0 then .error "Cannot receive through zero ports"
  else if args.performHandshake then .ok (.acknowledge 1, { ports with outReceiving := true })
  else .ok (.package [] 0, ports)

/-- Store the package the data ports show. -/
def ReceiveArgs.readPackage (args : ReceiveArgs) (inpDataPorts : Nat → α)
    (dataReceived : List α) : List α :=
  dataReceived ++ (List.range (min args.dataPortsCount
    (args.dataToReceiveCount - dataReceived.length))).map inpDataPorts

/-- The loop over the remaining packages, from its test. -/
def receivePackages (args : ReceiveArgs) (dataReceived : List α) (packagesReceived : Nat) :
    ReceiveOutcome α :=
  if packagesReceived < args.packagesCount then .suspended (.package dataReceived packagesReceived)
  else .returned true dataReceived

/-- `outReceiving` goes down and the business signal, if there is one, up. -/
def ReceiveArgs.leaveHandshake (args : ReceiveArgs) (ports : ReceivePorts) : ReceivePorts where
  outReceiving := false
  outBusinessSignal := args.outBusinessSignal || ports.outBusinessSignal

/-- The test of the loop on `inpSending`: leave it with the first package, or
    lower the business signal and `wait()`. -/
def awaitSending (args : ReceiveArgs) (inpSending : Bool) (inpDataPorts : Nat → α)
    (clocksWaiting : Nat) (ports : ReceivePorts) : ReceiveOutcome α × ReceivePorts :=
  if inpSending then
    (receivePackages args (args.readPackage inpDataPorts []) 1, args.leaveHandshake ports)
  else
    (.suspended (.stalled clocksWaiting),
      { ports with outBusinessSignal := !args.outBusinessSignal && ports.outBusinessSignal })

/-- From a `wait()` to the next one or to the return. With a timeout, the `wait()`
    inside the loop is followed by `*args.timeout >= (++clocksWaiting)`, and the
    call is cancelled without another look at `inpSending`. -/
def ReceiveCall.resume (args : ReceiveArgs) (inpSending : Bool) (inpDataPorts : Nat → α)
    (ports : ReceivePorts) : ReceiveCall α → ReceiveOutcome α × ReceivePorts
  | .acknowledge clocksWaiting => awaitSending args inpSending inpDataPorts clocksWaiting ports
  | .stalled clocksWaiting =>
    match args.timeout with
    | none => awaitSending args inpSending inpDataPorts clocksWaiting ports
    | some timeout =>
      let clocksWaiting := (clocksWaiting + 1) % sizeRange
      if clocksWaiting ≤ timeout then (.returned false [], args.leaveHandshake ports)
      else awaitSending args inpSending inpDataPorts clocksWaiting ports
  | .package dataReceived packagesReceived =>
    (receivePackages args (args.readPackage inpDataPorts dataReceived) (packagesReceived + 1), ports)

/-- The arguments `Transfer::receiveWithTimeout` fills in for one element. -/
def Transfer.receiveWithTimeout (timeout : Nat) : ReceiveArgs where
  dataPortsCount := 1
  dataToReceiveCount := 1
  outBusinessSignal := false
  timeout := some timeout
  performHandshake := true

/-- The arguments `Transfer::receive` fills in for one element. -/
def Transfer.receive (outBusinessSignal : Bool) : ReceiveArgs where
  dataPortsCount := 1
  dataToReceiveCount := 1
  outBusinessSignal := outBusinessSignal
  timeout := none
  performHandshake := true

end Receive

theorem packagesCount_pos {count ports : Nat} (hc : 0 < count) (hp : 0 < ports) :
    0 < packagesCount count ports :=
  Nat.div_pos (by omega) hp

theorem packagesCount_one : packagesCount 1 1 = 1 := rfl

/-! ## What a call leaves in its ports -/

section Ports
variable {α : Type}

/-- `outSending` is up while the acknowledgement is awaited, and at no other `wait()`. -/
def SendCall.Holds (ports : SendPorts α) : SendCall → Prop
  | acknowledge _ _ => ports.outSending = true
  | package _ _ => ports.outSending = false

theorem sendArrayImpl_holds {args : SendArgs α} {ports ports' : SendPorts α} {call : SendCall}
    (hlow : ports.outSending = false) (h : sendArrayImpl args ports = .ok (call, ports')) :
    call.Holds ports' := by
  unfold sendArrayImpl at h
  split at h
  · cases h
  split at h
  · cases h
  split at h
  · cases h
    rfl
  · cases h
    exact hlow

theorem sendPackages_holds [Inhabited α] {args : SendArgs α} {dataSent packagesSent : Nat}
    {ports ports' : SendPorts α} {next : Option SendCall} (hlow : ports.outSending = false)
    (h : sendPackages args dataSent packagesSent ports = (next, ports')) :
    ports'.outSending = false ∧ ∀ call, next = some call → call.Holds ports' := by
  unfold sendPackages at h
  split at h
  · cases h
    refine ⟨hlow, ?_⟩
    intro call hcall
    cases hcall
    exact hlow
  · cases h
    refine ⟨hlow, ?_⟩
    intro call hcall
    cases hcall

theorem SendCall.resume_some [Inhabited α] {args : SendArgs α} {inpReceiving : Bool}
    {ports ports' : SendPorts α} {call call' : SendCall} (hholds : call.Holds ports)
    (h : call.resume args inpReceiving ports = (some call', ports')) : call'.Holds ports' := by
  cases call with
  | acknowledge dataSent packagesSent =>
    rw [resume] at h
    split at h
    · exact (sendPackages_holds rfl h).2 call' rfl
    · cases h
      exact hholds
  | package dataSent packagesSent => exact (sendPackages_holds hholds h).2 call' rfl

theorem SendCall.resume_none [Inhabited α] {args : SendArgs α} {inpReceiving : Bool}
    {ports ports' : SendPorts α} {call : SendCall} (hholds : call.Holds ports)
    (h : call.resume args inpReceiving ports = (none, ports')) : ports'.outSending = false := by
  cases call with
  | acknowledge dataSent packagesSent =>
    rw [resume] at h
    split at h
    · exact (sendPackages_holds rfl h).1
    · cases h
  | package dataSent packagesSent => exact (sendPackages_holds hholds h).1

/-- The call is in its handshake. -/
def ReceiveCall.AtHandshake : ReceiveCall α → Prop
  | acknowledge _ | stalled _ => True
  | package _ _ => False

/-- `outReceiving` is up in the handshake; behind it the business signal is up. -/
def ReceiveCall.Holds (ports : ReceivePorts) : ReceiveCall α → Prop
  | acknowledge _ | stalled _ => ports.outReceiving = true
  | package _ _ => ports.outReceiving = false ∧ ports.outBusinessSignal = true

theorem receiveArrayImpl_handshake {args : ReceiveArgs} {ports ports' : ReceivePorts}
    {call : ReceiveCall α} (hhandshake : args.performHandshake = true)
    (h : receiveArrayImpl args ports = .ok (call, ports')) :
    call.AtHandshake ∧ ports' = { ports with outReceiving := true } := by
  unfold receiveArrayImpl at h
  rw [if_pos hhandshake] at h
  split at h
  · cases h
  split at h
  · cases h
  · cases h
    exact ⟨trivial, rfl⟩

def ReceiveOutcome.Holds (ports : ReceivePorts) : ReceiveOutcome α → Prop
  | suspended call => call.Holds ports
  | returned _ _ => ports.outReceiving = false ∧ ports.outBusinessSignal = true

/-- With a business signal and no timeout, the signal is down only in the handshake. -/
theorem awaitSending_holds {args : ReceiveArgs} (hbusiness : args.outBusinessSignal = true)
    {inpSending : Bool} {inpDataPorts : Nat → α} {clocksWaiting : Nat}
    {ports ports' : ReceivePorts} {outcome : ReceiveOutcome α}
    (hreceiving : ports.outReceiving = true)
    (h : awaitSending args inpSending inpDataPorts clocksWaiting ports = (outcome, ports')) :
    outcome.Holds ports' := by
  have hleave : (args.leaveHandshake ports).outReceiving = false ∧
      (args.leaveHandshake ports).outBusinessSignal = true := by
    rw [ReceiveArgs.leaveHandshake, hbusiness]
    exact ⟨rfl, rfl⟩
  unfold awaitSending at h
  split at h
  · unfold receivePackages at h
    split at h
    · cases h
      exact hleave
    · cases h
      exact hleave
  · cases h
    exact hreceiving

theorem ReceiveCall.resume_holds {args : ReceiveArgs} (hbusiness : args.outBusinessSignal = true)
    (htimeout : args.timeout = none) {inpSending : Bool} {inpDataPorts : Nat → α}
    {ports ports' : ReceivePorts} {call : ReceiveCall α} {outcome : ReceiveOutcome α}
    (hholds : call.Holds ports)
    (h : call.resume args inpSending inpDataPorts ports = (outcome, ports')) :
    outcome.Holds ports' := by
  cases call with
  | acknowledge clocksWaiting => exact awaitSending_holds hbusiness hholds h
  | stalled clocksWaiting =>
    rw [resume, htimeout] at h
    exact awaitSending_holds hbusiness hholds h
  | package dataReceived packagesReceived =>
    rw [resume, receivePackages] at h
    split at h
    · cases h
      exact hholds
    · cases h
      exact hholds

/-- A receiver that nothing is offered to stays in its handshake. -/
theorem ReceiveCall.resume_silent {args : ReceiveArgs} (htimeout : args.timeout = none)
    {inpDataPorts : Nat → α} {ports : ReceivePorts} {call : ReceiveCall α}
    (hcall : call.AtHandshake) :
    ∃ clocks, call.resume args false inpDataPorts ports = (.suspended (.stalled clocks),
      { ports with outBusinessSignal := !args.outBusinessSignal && ports.outBusinessSignal }) := by
  cases call with
  | acknowledge clocksWaiting => exact ⟨clocksWaiting, rfl⟩
  | stalled clocksWaiting =>
    refine ⟨clocksWaiting, ?_⟩
    rw [resume, htimeout]
    rfl
  | package dataReceived packagesReceived => exact absurd hcall id

/-- A call that is behind its handshake, or has none, leaves its ports alone. -/
theorem ReceiveCall.resume_package {args : ReceiveArgs} {inpSending : Bool}
    {inpDataPorts : Nat → α} {ports ports' : ReceivePorts} {call : ReceiveCall α}
    {outcome : ReceiveOutcome α} (hcall : ¬ call.AtHandshake)
    (h : call.resume args inpSending inpDataPorts ports = (outcome, ports')) :
    ports' = ports ∧ ∀ call', outcome = .suspended call' → ¬ call'.AtHandshake := by
  cases call with
  | acknowledge clocksWaiting => exact absurd trivial hcall
  | stalled clocksWaiting => exact absurd trivial hcall
  | package dataReceived packagesReceived =>
    rw [resume, receivePackages] at h
    split at h
    · cases h
      refine ⟨rfl, ?_⟩
      intro call' hcall'
      cases hcall'
      exact id
    · cases h
      refine ⟨rfl, ?_⟩
      intro call' hcall'
      cases hcall'

/-- A call without a handshake begins behind it. -/
theorem receiveArrayImpl_package {args : ReceiveArgs} {ports ports' : ReceivePorts}
    {call : ReceiveCall α} (hhandshake : args.performHandshake = false)
    (h : receiveArrayImpl args ports = .ok (call, ports')) :
    ¬ call.AtHandshake ∧ ports' = ports := by
  unfold receiveArrayImpl at h
  rw [hhandshake] at h
  split at h
  · cases h
  split at h
  · cases h
  · cases h
    exact ⟨id, rfl⟩

/-- A call that begins with its handshake, or behind one, with the block busy. -/
theorem receiveArrayImpl_holds {args : ReceiveArgs} {ports ports' : ReceivePorts}
    {call : ReceiveCall α} (hreceiving : ports.outReceiving = false)
    (hbusy : ports.outBusinessSignal = true)
    (h : receiveArrayImpl args ports = .ok (call, ports')) : call.Holds ports' := by
  cases hhandshake : args.performHandshake with
  | true =>
    obtain ⟨hcall, rfl⟩ := receiveArrayImpl_handshake hhandshake h
    cases call with
    | acknowledge clocksWaiting => rfl
    | stalled clocksWaiting => rfl
    | package dataReceived packagesReceived => exact absurd hcall id
  | false =>
    obtain ⟨hcall, rfl⟩ := receiveArrayImpl_package hhandshake h
    cases call with
    | acknowledge clocksWaiting => exact absurd trivial hcall
    | stalled clocksWaiting => exact absurd trivial hcall
    | package dataReceived packagesReceived => exact ⟨hreceiving, hbusy⟩

end Ports

end PicoGpu
