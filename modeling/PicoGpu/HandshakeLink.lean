import PicoGpu.TransferStream

/- One end of a link is a block that sends an array now and then, the other one a block that
   takes the first `count` elements of each; in between they do other things. What a block
   does with the link at a clock is to leave it alone, to begin a call or to go on with one
   (`Sends`, `Receives`).

   What is proved: from clock to clock both ends stand in one relation (`HandshakeLink`),
   and what has been begun is what has been taken, in the same order, with at most one array
   on its way (`HandshakeLink.step`). A sender may be longer at its array than the
   receiver. -/
namespace PicoGpu

/-- The arguments of a transfer of `data` with a handshake. -/
def handshakeSendArgs {α : Type} (ports : Nat) (data : List α) : SendArgs α where
  dataToSend := data
  dataPortsCount := ports
  performHandshake := true

def handshakeReceiveArgs (ports count : Nat) (business : Bool) : ReceiveArgs where
  dataPortsCount := ports
  dataToReceiveCount := count
  outBusinessSignal := business
  timeout := none
  performHandshake := true

/-- The call that goes on, and what a call has returned. -/
def ReceiveOutcome.call {α : Type} : ReceiveOutcome α → Option (ReceiveCall α)
  | suspended call => some call
  | returned _ _ => none

def ReceiveOutcome.data {α : Type} : ReceiveOutcome α → List (List α)
  | suspended _ => []
  | returned _ dataReceived => [dataReceived]

variable {α : Type} [Inhabited α]

/-- What a block does with the ports that it sends through. A call stands with its array;
    `begun` is the array of one that begins. -/
inductive Sends (ports : Nat) (inpReceiving : Bool) : Option (List α × SendCall) → SendPorts α →
    Option (List α × SendCall) → SendPorts α → (begun : List (List α)) → Prop
  | rests {sp : SendPorts α} : Sends ports inpReceiving none sp none sp []
  | begins {sp sp' : SendPorts α} {data : List α} {call : SendCall}
      (h : sendArrayImpl (handshakeSendArgs ports data) sp = .ok (call, sp')) :
      Sends ports inpReceiving none sp (some (data, call)) sp' [data]
  | resumes {sp sp' : SendPorts α} {data : List α} {call : SendCall} {next : Option SendCall}
      (h : call.resume (handshakeSendArgs ports data) inpReceiving sp = (next, sp')) :
      Sends ports inpReceiving (some (data, call)) sp (next.map fun call => (data, call)) sp' []

/-- What a block does with the ports that it receives through; `taken` is what a call
    returns. -/
inductive Receives (args : ReceiveArgs) (inpSending : Bool) (inpData : Nat → α) :
    Option (ReceiveCall α) → ReceivePorts → Option (ReceiveCall α) → ReceivePorts →
    (taken : List (List α)) → Prop
  | rests {rp : ReceivePorts} : Receives args inpSending inpData none rp none rp []
  | begins {rp rp' : ReceivePorts} {call : ReceiveCall α}
      (h : receiveArrayImpl args rp = .ok (call, rp')) :
      Receives args inpSending inpData none rp (some call) rp' []
  | resumes {rp rp' : ReceivePorts} {call : ReceiveCall α} {outcome : ReceiveOutcome α}
      (h : call.resume args inpSending inpData rp = (outcome, rp')) :
      Receives args inpSending inpData (some call) rp outcome.call rp' outcome.data

/-- The array of a call that has begun between two states. -/
def begun {α : Type} : Option (List α × SendCall) → Option (List α × SendCall) → List (List α)
  | none, some (data, _) => [data]
  | _, _ => []

/-! ## Where the two ends stand -/

/-- The receiver is not behind a handshake. -/
def Awaits (r : Option (ReceiveCall α)) (rp : ReceivePorts) : Prop :=
  (r = none ∧ rp.outReceiving = false) ∨
    ∃ call, r = some call ∧ call.AtHandshake ∧ rp.outReceiving = true

/-- The sender offers nothing: it is in no call, or behind the packages that are received. -/
def Leaves (packages : Nat) (s : Option (List α × SendCall)) (sp : SendPorts α) : Prop :=
  sp.outSending = false ∧
    (s = none ∨ ∃ data sent p, s = some (data, .package sent p) ∧ packages ≤ p)

/-- The part of a transfer that is received. -/
def Xfer.part (x : Xfer α) {count : Nat} (hcount : 0 < count) : Xfer α :=
  .handshake 0 0 ⟨x.data.take count, x.ports,
    by rw [List.length_take]; exact Nat.lt_min.mpr ⟨hcount, x.payload.data_pos⟩,
    x.payload.ports_pos⟩

/-- The relation of both ends, with what is on its way. -/
inductive HandshakeLink (ports count : Nat) : Option (List α × SendCall) → SendPorts α →
    Option (ReceiveCall α) → ReceivePorts → (pending : List (List α)) → Prop
  | apart {s : Option (List α × SendCall)} {sp : SendPorts α} {r : Option (ReceiveCall α)}
      {rp : ReceivePorts} (hs : Leaves (packagesCount count ports) s sp) (hr : Awaits r rp) :
      HandshakeLink ports count s sp r rp []
  | offering {sp : SendPorts α} {r : Option (ReceiveCall α)} {rp : ReceivePorts} (x : Xfer α)
      (hx : x.ports = ports) (hcount : count ≤ x.data.length)
      (hsending : sp.outSending = true) (hshown : x.Shown 0 sp.outDataPorts) (hr : Awaits r rp) :
      HandshakeLink ports count
        (some (x.data, .acknowledge ((handshakeSendArgs ports x.data).packageEnd (0 * ports)) 1)) sp
        r rp [x.data]
  | moving {sp : SendPorts α} {rp : ReceivePorts} (x : Xfer α) (hx : x.ports = ports)
      (hcount : count ≤ x.data.length) (p : Nat) (hp : p < packagesCount count ports)
      (hsending : sp.outSending = false) (hshown : x.Shown p sp.outDataPorts)
      (hreceiving : rp.outReceiving = false) :
      HandshakeLink ports count
        (some (x.data, .package ((handshakeSendArgs ports x.data).packageEnd (p * ports)) p)) sp
        (some (.package ((x.data.take count).take (p * ports)) p)) rp [x.data]

section
variable {ports count : Nat} {business : Bool} {x : Xfer α} {p : Nat}

omit [Inhabited α] in
theorem Xfer.Shown.part {dataPorts : Nat → α} (h : x.Shown p dataPorts) (hcount : 0 < count) :
    (x.part hcount).Shown p dataPorts := by
  intro port hport hlt
  have hmin : p * x.ports + port < (x.data.take count).length := hlt
  rw [List.length_take] at hmin
  rw [h port hport (by omega)]
  exact List.getElem_take.symm

omit [Inhabited α] in
theorem Xfer.packages_part (hcount : 0 < count) (hle : count ≤ x.data.length) :
    (x.part hcount).packages = packagesCount count x.ports := by
  show packagesCount (x.data.take count).length x.ports = _
  rw [List.length_take, Nat.min_eq_left hle]

omit [Inhabited α] in
/-- What the receiver holds behind package `p`. -/
theorem readPackage_part {dataPorts : Nat → α} (hcount : 0 < count) (hle : count ≤ x.data.length)
    (hshown : x.Shown p dataPorts) (business : Bool) :
    (handshakeReceiveArgs x.ports count business).readPackage dataPorts
      ((x.data.take count).take (p * x.ports)) = (x.data.take count).take ((p + 1) * x.ports) := by
  have hread := readPackage_shown business (hshown.part hcount)
  have hargs : (x.part hcount).receiveArgs business =
      handshakeReceiveArgs x.ports count business := by
    show ReceiveArgs.mk x.ports (x.data.take count).length business none true = _
    rw [List.length_take, Nat.min_eq_left hle]
    rfl
  rw [hargs] at hread
  exact hread

omit [Inhabited α] in
theorem packagesCount_mono {n m : Nat} (h : n ≤ m) (ports : Nat) :
    packagesCount n ports ≤ packagesCount m ports :=
  Nat.div_le_div_right (by omega)

/-- Both ends are behind package `p`. -/
theorem HandshakeLink.afterPackage (hcount : 0 < count) (hle : count ≤ x.data.length)
    {sp sp' : SendPorts α} {rp : ReceivePorts} {next : Option SendCall}
    {outcome : ReceiveOutcome α} (hsp : sp.outSending = false) (hrp : rp.outReceiving = false)
    (hs : sendPackages (handshakeSendArgs x.ports x.data)
      ((handshakeSendArgs x.ports x.data).packageEnd (p * x.ports)) (p + 1) sp = (next, sp'))
    (hr : receivePackages (handshakeReceiveArgs x.ports count business)
      ((x.data.take count).take ((p + 1) * x.ports)) (p + 1) = outcome) :
    ∃ pending, HandshakeLink x.ports count (next.map fun call => (x.data, call)) sp'
        outcome.call rp pending ∧
      [x.data.take count] = outcome.data ++ pending.map (List.take count) := by
  have hpackages : packagesCount count x.ports ≤ packagesCount x.data.length x.ports :=
    packagesCount_mono hle x.ports
  by_cases hmore : p + 1 < packagesCount count x.ports
  · -- a further package on both sides
    obtain ⟨y, hdata, hports, hsendArgs⟩ : ∃ y : Xfer α, y.data = x.data ∧ y.ports = x.ports ∧
        y.sendArgs = handshakeSendArgs x.ports x.data :=
      ⟨.handshake 0 0 x.payload, rfl, rfl, rfl⟩
    have hymore : p + 1 < y.packages := by
      show p + 1 < packagesCount y.data.length y.ports
      rw [hdata, hports]
      exact Nat.lt_of_lt_of_le hmore hpackages
    obtain ⟨sp1, hsend, hlow, hshow⟩ := sendPackages_next hymore sp
    rw [hsendArgs, hports, hs] at hsend
    cases hsend
    have houtcome : outcome =
        .suspended (.package ((x.data.take count).take ((p + 1) * x.ports)) (p + 1)) :=
      hr.symm.trans (if_pos hmore)
    refine ⟨[x.data], ?_, ?_⟩
    · have hlink := HandshakeLink.moving y hports (by rw [hdata]; exact hle) (p + 1) hmore
        (hlow.trans hsp) hshow hrp
      rw [houtcome]
      rw [hdata] at hlink
      exact hlink
    · rw [houtcome]
      rfl
  · -- the receiver returns
    have hlast : ¬ p + 1 < (x.part hcount).packages := by
      rw [Xfer.packages_part hcount hle]
      exact hmore
    have houtcome : outcome = .returned true (x.data.take count) := by
      have hreturn : outcome =
          .returned true ((x.data.take count).take ((p + 1) * x.ports)) :=
        hr.symm.trans (if_neg hmore)
      rw [hreturn]
      exact congrArg _ (take_all hlast)
    refine ⟨[], ?_, ?_⟩
    · rw [houtcome]
      apply HandshakeLink.apart
      · unfold sendPackages at hs
        split at hs
        · cases hs
          exact ⟨hsp, Or.inr ⟨x.data, _, _, rfl, Nat.le_of_not_lt hmore⟩⟩
        · cases hs
          exact ⟨hsp, Or.inl rfl⟩
      · exact Or.inl ⟨rfl, hrp⟩
    · rw [houtcome]
      rfl

/-! ## From clock to clock -/

omit [Inhabited α] in
/-- A receiver that nothing is offered to goes on to wait. -/
theorem Awaits.step {r r' : Option (ReceiveCall α)} {rp rp' : ReceivePorts}
    {taken : List (List α)} {dataPorts : Nat → α} (h : Awaits r rp)
    (hr : Receives (handshakeReceiveArgs ports count business) false dataPorts r rp r' rp' taken) :
    Awaits r' rp' ∧ taken = [] := by
  cases hr with
  | rests => exact ⟨h, rfl⟩
  | begins hcall =>
    obtain ⟨hhandshake, rfl⟩ := receiveArrayImpl_handshake rfl hcall
    exact ⟨Or.inr ⟨_, rfl, hhandshake, rfl⟩, rfl⟩
  | @resumes _ _ call outcome hcall =>
    rcases h with ⟨hnone, -⟩ | ⟨call', hsome, hhandshake, hreceiving⟩
    · cases hnone
    · cases hsome
      obtain ⟨clocks, hsilent⟩ := @ReceiveCall.resume_silent _
        (handshakeReceiveArgs ports count business) rfl dataPorts rp call hhandshake
      rw [hsilent] at hcall
      cases hcall
      exact ⟨Or.inr ⟨_, rfl, trivial, hreceiving⟩, rfl⟩

omit [Inhabited α] in
/-- A receiver that waits and is not in its call begins it. -/
theorem Awaits.step_away {r r' : Option (ReceiveCall α)} {rp rp' : ReceivePorts}
    {taken : List (List α)} {dataPorts : Nat → α} {inpSending : Bool} (h : Awaits r rp)
    (haway : rp.outReceiving = false)
    (hr : Receives (handshakeReceiveArgs ports count business) inpSending dataPorts r rp r' rp'
      taken) : Awaits r' rp' ∧ taken = [] := by
  rcases h with ⟨rfl, -⟩ | ⟨call, -, -, hreceiving⟩
  · cases hr with
    | rests => exact ⟨Or.inl ⟨rfl, haway⟩, rfl⟩
    | begins hcall =>
      obtain ⟨hhandshake, rfl⟩ := receiveArrayImpl_handshake rfl hcall
      exact ⟨Or.inr ⟨_, rfl, hhandshake, rfl⟩, rfl⟩
  · rw [haway] at hreceiving
    cases hreceiving

/-- A sender that offers nothing goes on so, or offers the next array. -/
theorem Leaves.step {s s' : Option (List α × SendCall)} {sp sp' : SendPorts α}
    {begun : List (List α)} {inpReceiving : Bool}
    (h : Leaves (packagesCount count ports) s sp)
    (hs : Sends ports inpReceiving s sp s' sp' begun) :
    (Leaves (packagesCount count ports) s' sp' ∧ begun = []) ∨
      ∃ x : Xfer α, x.ports = ports ∧ begun = [x.data] ∧
        s' = some (x.data, .acknowledge ((handshakeSendArgs ports x.data).packageEnd (0 * ports)) 1) ∧
        sp'.outSending = true ∧ x.Shown 0 sp'.outDataPorts := by
  cases hs with
  | rests => exact Or.inl ⟨h, rfl⟩
  | @begins _ _ data call hcall =>
    right
    have hlength : 0 < data.length ∧ 0 < ports := by
      unfold sendArrayImpl at hcall
      split at hcall
      · cases hcall
      · next hne =>
        split at hcall
        · cases hcall
        · next hports => exact ⟨Nat.pos_of_ne_zero hne, Nat.pos_of_ne_zero hports⟩
    let x : Xfer α := .handshake 0 0 ⟨data, ports, hlength.1, hlength.2⟩
    obtain ⟨sp1, hsend, hup, hshown⟩ := sendArrayImpl_xfer x sp
    have hsame : sendArrayImpl (handshakeSendArgs ports data) sp =
        .ok (.acknowledge (x.sendArgs.packageEnd (0 * x.ports)) 1, sp1) := hsend
    rw [hcall] at hsame
    cases hsame
    exact ⟨x, rfl, rfl, rfl, hup, hshown⟩
  | @resumes _ _ data call next hcall =>
    left
    obtain ⟨hlow, hnone | ⟨data', sent, p, hsome, hp⟩⟩ := h
    · cases hnone
    · cases hsome
      refine ⟨?_, rfl⟩
      rw [SendCall.resume, sendPackages] at hcall
      split at hcall
      · cases hcall
        exact ⟨hlow, Or.inr ⟨data, _, _, rfl, Nat.le_succ_of_le hp⟩⟩
      · cases hcall
        exact ⟨hlow, Or.inl rfl⟩

/-- **What is begun on one end is taken on the other**, in its order, but for the array that is
    on its way. -/
theorem HandshakeLink.step {s s' : Option (List α × SendCall)} {sp sp' : SendPorts α}
    {r r' : Option (ReceiveCall α)} {rp rp' : ReceivePorts} {pending begun taken : List (List α)}
    (h : HandshakeLink ports count s sp r rp pending) (hcount : 0 < count)
    (hs : Sends ports rp.outReceiving s sp s' sp' begun)
    (hbegun : ∀ data ∈ begun, count ≤ data.length)
    (hr : Receives (handshakeReceiveArgs ports count business) sp.outSending sp.outDataPorts
      r rp r' rp' taken) :
    ∃ pending', HandshakeLink ports count s' sp' r' rp' pending' ∧
      (pending ++ begun).map (List.take count) = taken ++ pending'.map (List.take count) := by
  cases h with
  | apart hleaves hawaits =>
    rw [hleaves.1] at hr
    obtain ⟨hawaits', rfl⟩ := hawaits.step hr
    rcases hleaves.step hs with ⟨hleaves', rfl⟩ | ⟨x, hx, rfl, rfl, hsending, hshown⟩
    · exact ⟨[], .apart hleaves' hawaits', rfl⟩
    · exact ⟨[x.data], .offering x hx (hbegun _ List.mem_cons_self) hsending hshown hawaits', rfl⟩
  | offering x hx hle hsending hshown hawaits =>
    cases hs with
    | resumes hcall =>
      cases hreceiving : rp.outReceiving with
      | false =>
        -- the receiver is not there yet
        obtain ⟨hawaits', rfl⟩ := hawaits.step_away hreceiving hr
        rw [hreceiving] at hcall
        cases hcall
        exact ⟨[x.data], .offering x hx hle hsending hshown hawaits', rfl⟩
      | true =>
        obtain ⟨call, rfl, hhandshake⟩ : ∃ call, r = some call ∧ call.AtHandshake := by
          rcases hawaits with ⟨-, hlow⟩ | ⟨call, hsome, hhandshake, -⟩
          · rw [hreceiving] at hlow
            cases hlow
          · exact ⟨call, hsome, hhandshake⟩
        subst hx
        rw [hreceiving] at hcall
        rw [hsending] at hr
        cases hr with
        | @resumes _ _ _ outcome hreceive =>
          have hread := readPackage_part hcount hle hshown business
          rw [Nat.zero_mul, List.take_zero] at hread
          have hleave : receivePackages (handshakeReceiveArgs x.ports count business)
              ((x.data.take count).take ((0 + 1) * x.ports)) 1 = outcome ∧
                rp'.outReceiving = false := by
            rw [← hread]
            cases call with
            | acknowledge clocks =>
              cases hreceive
              exact ⟨rfl, rfl⟩
            | stalled clocks =>
              cases hreceive
              exact ⟨rfl, rfl⟩
            | package data p => exact absurd hhandshake id
          obtain ⟨pending', hlink, hpending⟩ := @HandshakeLink.afterPackage α _ count business x 0
            hcount hle { sp with outSending := false } sp' rp' _ outcome rfl hleave.2 hcall hleave.1
          exact ⟨pending', hlink, hpending⟩
  | moving x hx hle p hp hsending hshown hreceiving =>
    subst hx
    cases hs with
    | resumes hcall =>
      cases hr with
      | @resumes _ _ _ outcome hreceive =>
        have hread := readPackage_part hcount hle hshown business
        rw [ReceiveCall.resume, hread] at hreceive
        cases hreceive
        exact HandshakeLink.afterPackage hcount hle hsending hreceiving hcall rfl

end

end PicoGpu
