import PicoGpu.Lib.Ledger
import PicoGpu.ShaderResults

/- Responses match requests. Behind the two threads stands a ledger: which accepted
   request each unit works on, which one the response in hand answers, and which ones
   the delivered responses answer. A unit goes through the life of one request after
   the other (`UnitLife`), and every step of any part keeps the state and the ledger
   together (`step_inv`), so that no request is answered twice. -/
namespace PicoGpu

open Ledgers

/-! ## What holds between the steps -/

def RequestStage.inHand : RequestStage → Option RequestMessage
  | .loading m => some m
  | .storing m _ => some m
  | .executing m => some m
  | _ => none

/-- The request that was accepted and is not with a unit yet. -/
def RequestThread.inHand : RequestThread → List (Nat × RequestMessage)
  | .waiting => []
  | .handling clientIndex _ stage => (stage.inHand.map fun m => (clientIndex, m)).toList

/-- What the thread does with a unit. -/
def RequestThread.stageAt : RequestThread → Nat → Option (Nat × RequestStage)
  | .waiting, _ => none
  | .handling clientIndex shaderUnitIndex stage, u =>
    if u = shaderUnitIndex then some (clientIndex, stage) else none

/-- What the frontend notes about a unit that works on a request. -/
def ShaderUnitState.of (clientIndex : Nat) (m : RequestMessage) : ShaderUnitState :=
  ⟨true, clientIndex, m.request.clientToken, calculateShaderOutputsCount m.request⟩

section
variable (alu : Alu Dword) (memory : MemoryAddressType → MemoryDataType)

/-- The unit has stored the program of a request. -/
def Stored (unit : ShaderUnit Dword) (m : RequestMessage) : Prop :=
  ∃ data u, Sent memory m.request data ∧ unit = ShaderUnit.processStoreIsaCommand data u

/-- The unit works on a request or has its results. -/
inductive WorksOn (port : ShaderUnitPort) (m : RequestMessage) : Prop
  | running (hphase : port.phase = .running m.executeIsa) (hstored : Stored memory port.unit m)
  | sending {outputs : List Dword} (hphase : port.phase = .sending outputs)
      (houtputs : OutputsOf alu memory m outputs)

/-- The life of a unit, with what the request thread does with it and the number of the
    request it works on. It is marked as active only after it was started. -/
inductive UnitLife (issued : List (Nat × RequestMessage)) (port : ShaderUnitPort)
    (state : ShaderUnitState) : Option (Nat × RequestStage) → Option Nat → Prop
  | free (hphase : port.phase = .receiving false) (hstate : state.isActive = false) :
      UnitLife issued port state none none
  | chosen {c : Nat} (hphase : port.phase = .receiving false) (hstate : state.isActive = false) :
      UnitLife issued port state (some (c, .receiving)) none
  | loading {c : Nat} {m : RequestMessage} (hphase : port.phase = .receiving false)
      (hstate : state.isActive = false) : UnitLife issued port state (some (c, .loading m)) none
  | storing {c : Nat} {m : RequestMessage} {data : List Dword}
      (hphase : port.phase = .receiving false) (hstate : state.isActive = false)
      (hsent : Sent memory m.request data) :
      UnitLife issued port state (some (c, .storing m data)) none
  | stored {c : Nat} {m : RequestMessage} (hphase : port.phase = .receiving true)
      (hstate : state.isActive = false) (hstored : Stored memory port.unit m) :
      UnitLife issued port state (some (c, .executing m)) none
  | started {c i : Nat} {m : RequestMessage} (hissued : issued[i]? = some (c, m))
      (hworks : WorksOn alu memory port m) (hstate : state.isActive = false) :
      UnitLife issued port state (some (c, .marking m)) (some i)
  | active {c i : Nat} {m : RequestMessage} (hissued : issued[i]? = some (c, m))
      (hworks : WorksOn alu memory port m) (hstate : state = .of c m) :
      UnitLife issued port state none (some i)

/-- The response goes to the client of the issued request with that number, with its
    token and the outputs of its program. -/
def Answers (issued : List (Nat × RequestMessage)) (i : Nat) (response : Nat × List Dword) :
    Prop :=
  ∃ m outputs, issued[i]? = some (response.1, m) ∧
    response.2 = responseHeader m.request.clientToken :: outputs ∧ OutputsOf alu memory m outputs

/-- What `responseThread` has in hand. -/
def ResponseInv (issued : List (Nat × RequestMessage)) (inHand : Option Nat)
    (units : Nat → ShaderUnitPort) (unitStates : Nat → ShaderUnitState) : ResponseThread → Prop
  | .waiting => inHand = none
  | .reading u clientIndex header =>
    inHand = none ∧ (units u).isSending = true ∧ (unitStates u).isActive = true ∧
      clientIndex = (unitStates u).clientIndex ∧
      header = responseHeader (unitStates u).clientToken
  | .forwarding clientIndex shaderOutputs =>
    ∃ i, inHand = some i ∧ Answers alu memory issued i (clientIndex, shaderOutputs)

structure ShaderArrayInv (ledger : Ledger Nat (Nat × RequestMessage)) (s : ShaderArray) :
    Prop where
  cache : Agrees ⟨memory, s.isaCache⟩
  accepted : s.accepted = ledger.issued ++ s.requestThread.inHand
  units : ∀ u, UnitLife alu memory ledger.issued (s.units u) (s.unitStates u)
    (s.requestThread.stageAt u) (ledger.job u)
  response : ResponseInv alu memory ledger.issued ledger.inHand s.units s.unitStates
    s.responseThread
  delivered : List.Forall₂ (Answers alu memory ledger.issued) ledger.settled s.delivered

end

section
variable {alu : Alu Dword} {memory : MemoryAddressType → MemoryDataType}
  {clientsCount shaderUnitsCount : Nat} {issued : List (Nat × RequestMessage)}

/-! ## Frames -/

theorem stageAt_self (clientIndex u : Nat) (stage : RequestStage) :
    (RequestThread.handling clientIndex u stage).stageAt u = some (clientIndex, stage) :=
  if_pos rfl

theorem stageAt_of_ne {u v : Nat} (h : v ≠ u) (clientIndex : Nat) (stage : RequestStage) :
    (RequestThread.handling clientIndex u stage).stageAt v = none :=
  if_neg h

theorem getElem?_append_some {α : Type} {l more : List α} {i : Nat} {a : α} (h : l[i]? = some a) :
    (l ++ more)[i]? = some a := by
  obtain ⟨hi, -⟩ := List.getElem?_eq_some_iff.mp h
  rw [List.getElem?_append_left hi, h]

theorem UnitLife.issue {port : ShaderUnitPort} {state : ShaderUnitState}
    {stage : Option (Nat × RequestStage)} {job : Option Nat}
    (h : UnitLife alu memory issued port state stage job) (more : List (Nat × RequestMessage)) :
    UnitLife alu memory (issued ++ more) port state stage job := by
  cases h with
  | free hphase hstate => exact .free hphase hstate
  | chosen hphase hstate => exact .chosen hphase hstate
  | loading hphase hstate => exact .loading hphase hstate
  | storing hphase hstate hsent => exact .storing hphase hstate hsent
  | stored hphase hstate hstored => exact .stored hphase hstate hstored
  | started hissued hworks hstate => exact .started (getElem?_append_some hissued) hworks hstate
  | active hissued hworks hstate => exact .active (getElem?_append_some hissued) hworks hstate

theorem Answers.issue {i : Nat} {response : Nat × List Dword}
    (h : Answers alu memory issued i response) (more : List (Nat × RequestMessage)) :
    Answers alu memory (issued ++ more) i response := by
  obtain ⟨m, outputs, hissued, hresponse⟩ := h
  exact ⟨m, outputs, getElem?_append_some hissued, hresponse⟩

/-- The response thread depends on the units it may read, and these are active. -/
theorem ResponseInv.frame {inHand : Option Nat} {units : Nat → ShaderUnitPort}
    {unitStates : Nat → ShaderUnitState} {thread : ResponseThread}
    (h : ResponseInv alu memory issued inHand units unitStates thread)
    (more : List (Nat × RequestMessage)) (units' : Nat → ShaderUnitPort)
    (unitStates' : Nat → ShaderUnitState)
    (hsame : ∀ v, (unitStates v).isActive = true → (units v).isSending = true →
      units' v = units v ∧ unitStates' v = unitStates v) :
    ResponseInv alu memory (issued ++ more) inHand units' unitStates' thread := by
  cases thread with
  | waiting => exact h
  | reading u clientIndex header =>
    obtain ⟨hhand, hsending, hactive, hclient⟩ := h
    obtain ⟨hunit, hstate⟩ := hsame u hactive hsending
    simp only [ResponseInv, hunit, hstate]
    exact ⟨hhand, hsending, hactive, hclient⟩
  | forwarding clientIndex shaderOutputs =>
    obtain ⟨i, hhand, hanswers⟩ := h
    exact ⟨i, hhand, hanswers.issue more⟩

theorem UnitLife.update {units : Nat → ShaderUnitPort} {unitStates : Nat → ShaderUnitState}
    {job : Nat → Option Nat} (thread : RequestThread) {u : Nat} {port : ShaderUnitPort}
    {state : ShaderUnitState} {place : Option Nat}
    (hothers : ∀ v, v ≠ u → UnitLife alu memory issued (units v) (unitStates v)
      (thread.stageAt v) (job v))
    (hu : UnitLife alu memory issued port state (thread.stageAt u) place) (v : Nat) :
    UnitLife alu memory issued (Function.update units u port v)
      (Function.update unitStates u state v) (thread.stageAt v) (Function.update job u place v) := by
  by_cases hv : v = u
  · subst hv
    simpa only [Function.update_self] using hu
  · simpa only [Function.update_of_ne hv] using hothers v hv

/-! ## The request thread -/

section
variable {ledger : Ledger Nat (Nat × RequestMessage)} {s s' : ShaderArray}

/-- The others are left alone while the thread handles a unit. -/
theorem ShaderArrayInv.others {clientIndex u : Nat} {stage : RequestStage}
    (hinv : ShaderArrayInv alu memory ledger s)
    (hthread : s.requestThread = .handling clientIndex u stage) (v : Nat) (hv : v ≠ u) :
    UnitLife alu memory ledger.issued (s.units v) (s.unitStates v) none (ledger.job v) := by
  have h := hinv.units v
  rwa [hthread, stageAt_of_ne hv] at h

theorem ShaderArrayInv.handled {clientIndex u : Nat} {stage : RequestStage}
    (hinv : ShaderArrayInv alu memory ledger s)
    (hthread : s.requestThread = .handling clientIndex u stage) :
    UnitLife alu memory ledger.issued (s.units u) (s.unitStates u) (some (clientIndex, stage))
      (ledger.job u) := by
  have h := hinv.units u
  rwa [hthread, stageAt_self] at h

theorem ShaderArrayInv.handled_inactive {clientIndex u : Nat} {stage : RequestStage}
    (hinv : ShaderArrayInv alu memory ledger s)
    (hthread : s.requestThread = .handling clientIndex u stage) :
    (s.unitStates u).isActive = false := by
  have hu := hinv.handled hthread
  generalize ledger.job u = job at hu
  cases hu <;> assumption

/-- A step of the thread that goes on with its unit. -/
theorem handling_inv {clientIndex u : Nat} {stage stage' : RequestStage}
    (hinv : ShaderArrayInv alu memory ledger s)
    (hthread : s.requestThread = .handling clientIndex u stage)
    {isaCache : IsaCache} (hcache : Agrees ⟨memory, isaCache⟩)
    (clients : Nat → Option RequestMessage) {more : List (Nat × RequestMessage)}
    (hmore : (RequestThread.handling clientIndex u stage').inHand =
      s.requestThread.inHand ++ more)
    {port : ShaderUnitPort} (hport : UnitLife alu memory ledger.issued port (s.unitStates u)
      (some (clientIndex, stage')) (ledger.job u)) :
    ShaderArrayInv alu memory ledger { s with
      isaCache := isaCache
      clients := clients
      accepted := s.accepted ++ more
      units := Function.update s.units u port
      requestThread := .handling clientIndex u stage' } where
  cache := hcache
  accepted := by
    show s.accepted ++ more = ledger.issued ++ (RequestThread.handling clientIndex u stage').inHand
    rw [hmore, hinv.accepted, List.append_assoc]
  units := by
    have hlives := UnitLife.update (.handling clientIndex u stage')
      (fun v hv => by rw [stageAt_of_ne hv]; exact hinv.others hthread v hv)
      (by rw [stageAt_self]; exact hport)
    simpa only [Function.update_eq_self] using hlives
  response := by
    have h := hinv.response.frame [] (Function.update s.units u port) s.unitStates
      fun v hactive _ => ?_
    · simpa only [List.append_nil] using h
    · have hv : v ≠ u := by
        rintro rfl
        rw [hinv.handled_inactive hthread] at hactive
        exact nomatch hactive
      exact ⟨Function.update_of_ne hv _ _, rfl⟩
  delivered := hinv.delivered

theorem handle_receiving_inv {clientIndex u : Nat} (hinv : ShaderArrayInv alu memory ledger s)
    (hthread : s.requestThread = .handling clientIndex u .receiving)
    (h : s.handle memory clientIndex u .receiving = .ok s') :
    ShaderArrayInv alu memory ledger s' := by
  simp only [ShaderArray.handle] at h
  split at h
  · next m hm =>
    cases h
    have hu := hinv.handled hthread
    have hlife : UnitLife alu memory ledger.issued (s.units u) (s.unitStates u)
        (some (clientIndex, .loading m)) (ledger.job u) := by
      generalize ledger.job u = job at hu
      cases hu with
      | chosen hphase hstate => exact .loading hphase hstate
    have hnext := handling_inv hinv hthread hinv.cache
      (Function.update s.clients clientIndex none)
      (by rw [hthread]; rfl) hlife
    rwa [Function.update_eq_self] at hnext
  · cases h
    exact hinv

theorem handle_loading_inv {clientIndex u : Nat} {m : RequestMessage}
    (hinv : ShaderArrayInv alu memory ledger s)
    (hthread : s.requestThread = .handling clientIndex u (.loading m))
    (h : s.handle memory clientIndex u (.loading m) = .ok s') :
    ShaderArrayInv alu memory ledger s' := by
  obtain ⟨⟨program, isaCache⟩, hload, h⟩ := bind_ok.mp h
  obtain ⟨data, rfl⟩ := loadProgram_isSome hload
  cases h
  have hu := hinv.handled hthread
  have hsent : Sent memory m.request data := loadProgram_sent hinv.cache hload
  have hlife : UnitLife alu memory ledger.issued (s.units u) (s.unitStates u)
      (some (clientIndex, .storing m data)) (ledger.job u) := by
    generalize ledger.job u = job at hu
    cases hu with
    | loading hphase hstate => exact .storing hphase hstate hsent
  have hnext := handling_inv hinv hthread (loadProgram_ok hinv.cache hload).1 s.clients
    (by rw [hthread]; rfl) hlife
  rwa [Function.update_eq_self, List.append_nil] at hnext

theorem handle_storing_inv {clientIndex u : Nat} {m : RequestMessage} {data : List Dword}
    (hinv : ShaderArrayInv alu memory ledger s)
    (hthread : s.requestThread = .handling clientIndex u (.storing m data))
    (h : s.handle memory clientIndex u (.storing m data) = .ok s') :
    ShaderArrayInv alu memory ledger s' := by
  simp only [ShaderArray.handle] at h
  split at h
  · next port hport =>
    cases h
    have hu := hinv.handled hthread
    have hlife : UnitLife alu memory ledger.issued port (s.unitStates u)
        (some (clientIndex, .executing m)) (ledger.job u) := by
      generalize ledger.job u = job at hu
      cases hu with
      | storing hphase hstate hsent =>
        rw [ShaderUnitPort.storeIsa, hphase] at hport
        cases hport
        refine .stored ?_ hstate ⟨data, (s.units u).unit, hsent, rfl⟩
        show ShaderUnitPhase.receiving
          ((CommandStoreIsa.ofRaw fun k => data.getD k 0).hasNextCommand == 1) = _
        rw [hsent.hasNextCommand]
        rfl
    have hnext := handling_inv hinv hthread hinv.cache s.clients
      (by rw [hthread]; rfl) hlife
    rwa [List.append_nil] at hnext
  · cases h
    exact hinv

/-- The command reaches the unit, which expects it, and the request is issued. -/
theorem handle_executing_inv {clientIndex u : Nat} {m : RequestMessage}
    (hinv : ShaderArrayInv alu memory ledger s)
    (hthread : s.requestThread = .handling clientIndex u (.executing m))
    (h : s.handle memory clientIndex u (.executing m) = .ok s') :
    ShaderArrayInv alu memory (ledger.assign u (clientIndex, m)) s' := by
  cases h
  have hu := hinv.handled hthread
  generalize hjob : ledger.job u = job at hu
  cases hu with
  | stored hphase hstate hstored =>
    -- the unit was waiting for the command that comes with this message
    have hrunning : (s.units u).executeIsa m.executeIsa =
        { s.units u with phase := .running m.executeIsa } := by
      rw [ShaderUnitPort.executeIsa, hphase]
    have hlife : UnitLife alu memory (ledger.issued ++ [(clientIndex, m)])
        ((s.units u).executeIsa m.executeIsa) (s.unitStates u)
        (some (clientIndex, .marking m)) (some ledger.issued.length) := by
      -- the request gets the next number, which is the job of the unit from now on
      refine .started (by simp) ?_ hstate
      rw [hrunning]
      exact .running rfl hstored
    refine ⟨hinv.cache, ?_, ?_, ?_, ?_⟩
    · show s.accepted = (ledger.issued ++ [(clientIndex, m)]) ++ []
      rw [List.append_nil, hinv.accepted, hthread]
      rfl
    · have hlives := UnitLife.update (.handling clientIndex u (.marking m))
        (fun v hv => by
          rw [stageAt_of_ne hv]
          exact (hinv.others hthread v hv).issue [(clientIndex, m)])
        (by rw [stageAt_self]; exact hlife)
      simp only [Function.update_eq_self] at hlives
      exact hlives
    -- a unit that a response is read from is active, and `u` is not yet
    · refine hinv.response.frame [(clientIndex, m)] _ _ fun v hactive _ => ?_
      have hv : v ≠ u := by
        rintro rfl
        rw [hstate] at hactive
        exact nomatch hactive
      exact ⟨Function.update_of_ne hv _ _, rfl⟩
    · exact hinv.delivered.imp fun i response hanswers => hanswers.issue _

theorem handle_marking_inv {clientIndex u : Nat} {m : RequestMessage}
    (hinv : ShaderArrayInv alu memory ledger s)
    (hthread : s.requestThread = .handling clientIndex u (.marking m))
    (h : s.handle memory clientIndex u (.marking m) = .ok s') :
    ShaderArrayInv alu memory ledger s' := by
  cases h
  have hu := hinv.handled hthread
  have hinactive := hinv.handled_inactive hthread
  have hlife : UnitLife alu memory ledger.issued (s.units u) (.of clientIndex m) none
      (ledger.job u) := by
    generalize ledger.job u = job at hu
    cases hu with
    | started hissued hworks hstate => exact .active hissued hworks rfl
  refine ⟨hinv.cache, ?_, ?_, ?_, hinv.delivered⟩
  · show s.accepted = ledger.issued ++ []
    rw [hinv.accepted, hthread]
    rfl
  · have hlives := UnitLife.update .waiting (fun v hv => hinv.others hthread v hv) hlife
    simp only [Function.update_eq_self] at hlives
    exact hlives
  · have hframe := hinv.response.frame [] s.units
      (Function.update s.unitStates u (.of clientIndex m)) fun v hactive _ => ?_
    · rw [List.append_nil] at hframe
      exact hframe
    · have hv : v ≠ u := by
        rintro rfl
        rw [hinactive] at hactive
        exact nomatch hactive
      exact ⟨rfl, Function.update_of_ne hv _ _⟩

theorem stepRequestThread_inv (hinv : ShaderArrayInv alu memory ledger s)
    (h : s.stepRequestThread memory clientsCount shaderUnitsCount = .ok s') :
    ∃ ledger', ShaderArrayInv alu memory ledger' s' := by
  unfold ShaderArray.stepRequestThread at h
  split at h
  · next hthread =>
    split at h
    · next clientIndex u hclient hfree =>
      cases h
      refine ⟨ledger, hinv.cache, ?_, fun v => ?_, hinv.response, hinv.delivered⟩
      · rw [hinv.accepted, hthread]
        rfl
      · have hv := hinv.units v
        rw [hthread] at hv
        by_cases hvu : v = u
        · subst hvu
          show UnitLife _ _ _ _ _ ((RequestThread.handling _ v _).stageAt v) _
          rw [stageAt_self]
          have hinactive : (s.unitStates v).isActive = false := by
            simpa using List.find?_some hfree
          -- a unit that is not active has no request
          generalize ledger.job v = job at hv
          cases hv with
          | free hphase hstate => exact .chosen hphase hstate
          | active hissued hworks hstate =>
            rw [hstate] at hinactive
            exact nomatch hinactive
        · show UnitLife _ _ _ _ _ ((RequestThread.handling _ u _).stageAt v) _
          rw [stageAt_of_ne hvu]
          exact hv
    · cases h
      exact ⟨ledger, hinv⟩
  · next clientIndex u stage hthread =>
    cases stage with
    | receiving => exact ⟨ledger, handle_receiving_inv hinv hthread h⟩
    | loading m => exact ⟨ledger, handle_loading_inv hinv hthread h⟩
    | storing m data => exact ⟨ledger, handle_storing_inv hinv hthread h⟩
    | executing m => exact ⟨_, handle_executing_inv hinv hthread h⟩
    | marking m => exact ⟨ledger, handle_marking_inv hinv hthread h⟩

/-! ## The other parts -/

/-- A unit that is active works on the request that is noted for it. -/
theorem UnitLife.of_active {port : ShaderUnitPort} {state : ShaderUnitState}
    {stage : Option (Nat × RequestStage)} {job : Option Nat}
    (h : UnitLife alu memory issued port state stage job) (hactive : state.isActive = true) :
    stage = none ∧ ∃ c i m, job = some i ∧ issued[i]? = some (c, m) ∧
      WorksOn alu memory port m ∧ state = .of c m := by
  cases h with
  | active hissued hworks hstate => exact ⟨rfl, _, _, _, rfl, hissued, hworks, hstate⟩
  | free _ hstate | chosen _ hstate | loading _ hstate | storing _ hstate _ | stored _ hstate _
  | started _ _ hstate =>
    rw [hstate] at hactive
    exact nomatch hactive

theorem stepResponseThread_inv (hinv : ShaderArrayInv alu memory ledger s)
    (h : s.stepResponseThread shaderUnitsCount = .ok s') :
    ∃ ledger', ShaderArrayInv alu memory ledger' s' := by
  have hresponse := hinv.response
  unfold ShaderArray.stepResponseThread at h
  split at h
  · next hthread =>
    rw [hthread] at hresponse
    split at h
    · next u hfind =>
      obtain ⟨hactive, h⟩ := fatalErrorIf_bind.mp h
      cases h
      have hsending := List.find?_some hfind
      exact ⟨ledger, hinv.cache, hinv.accepted, hinv.units,
        ⟨hresponse, hsending, by simpa using hactive, rfl, rfl⟩, hinv.delivered⟩
    · cases h
      exact ⟨ledger, hinv⟩
  · next u clientIndex header hthread =>
    rw [hthread] at hresponse
    obtain ⟨-, -, hactive, hclient, hheader⟩ := hresponse
    dsimp only at h
    split at h
    · next outputStream hphase =>
      cases h
      -- the unit that is read is active: it has the job of an issued request
      obtain ⟨hstage, c, i, m, hjob, hissued, hworks, hstate⟩ :=
        (hinv.units u).of_active hactive
      have houtputs : OutputsOf alu memory m outputStream := by
        cases hworks with
        | running hrunning _ =>
          rw [hphase] at hrunning
          exact nomatch hrunning
        | sending hsending houtputs =>
          rw [hphase] at hsending
          cases hsending
          exact houtputs
      refine ⟨ledger.collect u, hinv.cache, hinv.accepted, ?_, ?_, hinv.delivered⟩
      · refine UnitLife.update s.requestThread (fun v _ => hinv.units v) ?_
        rw [hstage]
        exact .free rfl rfl
      -- the response in hand answers that request
      · refine ⟨i, hjob, m, outputStream, ?_, ?_, houtputs⟩
        · rw [hclient, hstate]
          exact hissued
        · show header :: ShaderArray.readOutputs _ _ = _
          rw [hheader, hstate]
          exact congrArg _ (readOutputs_outputsOf houtputs)
    · cases h
      exact ⟨ledger, hinv⟩
  · next clientIndex shaderOutputs hthread =>
    rw [hthread] at hresponse
    obtain ⟨i, hhand, hanswers⟩ := hresponse
    cases h
    refine ⟨ledger.settle, hinv.cache, hinv.accepted, hinv.units, rfl, ?_⟩
    -- delivering settles what was in hand
    show List.Forall₂ _ (ledger.settled ++ ledger.inHand.toList) _
    rw [hhand]
    exact List.rel_append hinv.delivered (.cons hanswers .nil)

theorem WorksOn.run {port port' : ShaderUnitPort} {m : RequestMessage}
    (h : WorksOn alu memory port m) (hrun : port.run alu = .ok port') :
    WorksOn alu memory port' m := by
  cases h with
  | running hphase hstored =>
    obtain ⟨data, u, hsent, hunit⟩ := hstored
    rw [ShaderUnitPort.run, hphase] at hrun
    obtain ⟨⟨unit, outputStream⟩, hexecute, hrun⟩ := bind_ok.mp hrun
    cases hrun
    refine .sending rfl (@results_outputsOf alu memory m data _ hsent u ?_)
    rw [ShaderUnit.results, ← hunit, hexecute]
    rfl
  | sending hphase houtputs =>
    rw [ShaderUnitPort.run, hphase] at hrun
    cases hrun
    exact .sending hphase houtputs

theorem run_receiving {port port' : ShaderUnitPort} {handshakeAlreadyEstablished : Bool}
    (hphase : port.phase = .receiving handshakeAlreadyEstablished)
    (hrun : port.run alu = .ok port') : port' = port := by
  rw [ShaderUnitPort.run, hphase] at hrun
  cases hrun
  rfl

theorem run_sending {port port' : ShaderUnitPort} (hsending : port.isSending = true)
    (hrun : port.run alu = .ok port') : port' = port := by
  unfold ShaderUnitPort.isSending at hsending
  split at hsending
  · next hphase =>
    rw [ShaderUnitPort.run, hphase] at hrun
    cases hrun
    rfl
  · exact nomatch hsending

theorem UnitLife.run {port port' : ShaderUnitPort} {state : ShaderUnitState}
    {stage : Option (Nat × RequestStage)} {job : Option Nat}
    (h : UnitLife alu memory issued port state stage job) (hrun : port.run alu = .ok port') :
    UnitLife alu memory issued port' state stage job := by
  cases h with
  | free hphase hstate =>
    rw [run_receiving hphase hrun]
    exact .free hphase hstate
  | chosen hphase hstate =>
    rw [run_receiving hphase hrun]
    exact .chosen hphase hstate
  | loading hphase hstate =>
    rw [run_receiving hphase hrun]
    exact .loading hphase hstate
  | storing hphase hstate hsent =>
    rw [run_receiving hphase hrun]
    exact .storing hphase hstate hsent
  | stored hphase hstate hstored =>
    rw [run_receiving hphase hrun]
    exact .stored hphase hstate hstored
  | started hissued hworks hstate => exact .started hissued (hworks.run hrun) hstate
  | active hissued hworks hstate => exact .active hissued (hworks.run hrun) hstate

theorem shaderUnit_inv (hinv : ShaderArrayInv alu memory ledger s) {u : Nat}
    {port : ShaderUnitPort} (hrun : (s.units u).run alu = .ok port) :
    ShaderArrayInv alu memory ledger { s with units := Function.update s.units u port } where
  cache := hinv.cache
  accepted := hinv.accepted
  units := by
    have hlives := UnitLife.update s.requestThread (fun v _ => hinv.units v)
      ((hinv.units u).run hrun)
    simpa only [Function.update_eq_self] using hlives
  response := by
    have h := hinv.response.frame [] (Function.update s.units u port) s.unitStates
      fun v _ hsending => ?_
    · simpa only [List.append_nil] using h
    · refine ⟨?_, rfl⟩
      by_cases hv : v = u
      · subst hv
        rw [Function.update_self, run_sending hsending hrun]
      · exact Function.update_of_ne hv _ _
  delivered := hinv.delivered

theorem step_inv (hinv : ShaderArrayInv alu memory ledger s) {event : ShaderArrayEvent}
    (h : event.step alu memory clientsCount shaderUnitsCount s = .ok s') :
    ∃ ledger', ShaderArrayInv alu memory ledger' s' := by
  cases event with
  | client clientIndex m =>
    simp only [ShaderArrayEvent.step] at h
    split at h
    · cases h
      exact ⟨ledger, hinv.cache, hinv.accepted, hinv.units, hinv.response, hinv.delivered⟩
    · cases h
      exact ⟨ledger, hinv⟩
  | requestThread => exact stepRequestThread_inv hinv h
  | responseThread => exact stepResponseThread_inv hinv h
  | shaderUnit u =>
    obtain ⟨port, hrun, h⟩ := bind_ok.mp h
    cases h
    exact ⟨ledger, shaderUnit_inv hinv hrun⟩

/-! ## Runs -/

theorem initial_inv (units : Nat → ShaderUnit Dword) :
    ShaderArrayInv alu memory .empty (ShaderArray.initial units) where
  cache := agrees_initial memory
  accepted := rfl
  units := fun _ => .free rfl rfl
  response := rfl
  delivered := .nil

theorem shaderArrayInv_run (events : List ShaderArrayEvent) (hinv : ShaderArrayInv alu memory ledger s)
    (h : ShaderArray.run alu memory clientsCount shaderUnitsCount events s = .ok s') :
    ∃ ledger', ShaderArrayInv alu memory ledger' s' :=
  @foldlM_inv _ _ _ _ (fun _ s => ∃ ledger, ShaderArrayInv alu memory ledger s)
    (fun ⟨_, hinv⟩ h => step_inv hinv h) events [] s s' ⟨ledger, hinv⟩ h

/-- Requests that were sent or accepted, by clients that sent them. -/
structure FromClients (past : List ShaderArrayEvent) (s : ShaderArray) : Prop where
  sent : ∀ c m, s.clients c = some m → .client c m ∈ past
  accepted : ∀ p ∈ s.accepted, .client p.1 p.2 ∈ past

theorem initial_fromClients (units : Nat → ShaderUnit Dword) :
    FromClients [] (ShaderArray.initial units) where
  sent := by
    intro c m hc
    rw [ShaderArray.initial] at hc
    exact nomatch hc
  accepted := by
    intro p hp
    exact absurd hp List.not_mem_nil

theorem stepRequestThread_fromClients {past : List ShaderArrayEvent} (hpast : FromClients past s)
    (h : s.stepRequestThread memory clientsCount shaderUnitsCount = .ok s') :
    FromClients past s' := by
  unfold ShaderArray.stepRequestThread at h
  split at h
  · split at h <;> cases h <;> exact ⟨hpast.sent, hpast.accepted⟩
  · next clientIndex u stage _ =>
    cases stage with
    | receiving =>
      simp only [ShaderArray.handle] at h
      split at h
      · next m hm =>
        cases h
        refine ⟨fun c m' hc => ?_, fun p hp => ?_⟩
        · by_cases hcc : c = clientIndex
          · subst hcc
            simp at hc
          · exact hpast.sent c m' (by simpa only [Function.update_of_ne hcc] using hc)
        · obtain hp | hp := List.mem_append.mp hp
          · exact hpast.accepted p hp
          · rw [List.mem_singleton] at hp
            subst hp
            exact hpast.sent clientIndex m hm
      · cases h
        exact hpast
    | loading m =>
      obtain ⟨_, -, h⟩ := bind_ok.mp h
      cases h
      exact ⟨hpast.sent, hpast.accepted⟩
    | storing m data =>
      simp only [ShaderArray.handle] at h
      split at h <;> cases h <;> exact ⟨hpast.sent, hpast.accepted⟩
    | executing m | marking m =>
      cases h
      exact ⟨hpast.sent, hpast.accepted⟩

theorem stepResponseThread_fromClients {past : List ShaderArrayEvent}
    (hpast : FromClients past s) (h : s.stepResponseThread shaderUnitsCount = .ok s') :
    FromClients past s' := by
  unfold ShaderArray.stepResponseThread at h
  split at h
  · split at h
    · obtain ⟨-, h⟩ := fatalErrorIf_bind.mp h
      cases h
      exact ⟨hpast.sent, hpast.accepted⟩
    · cases h
      exact hpast
  · dsimp only at h
    split at h <;> cases h <;> exact ⟨hpast.sent, hpast.accepted⟩
  · cases h
    exact ⟨hpast.sent, hpast.accepted⟩

theorem step_fromClients {past : List ShaderArrayEvent} (hpast : FromClients past s)
    {event : ShaderArrayEvent}
    (h : event.step alu memory clientsCount shaderUnitsCount s = .ok s') :
    FromClients (past ++ [event]) s' := by
  have hmono : ∀ {s : ShaderArray}, FromClients past s → FromClients (past ++ [event]) s :=
    fun hs => ⟨fun c m hc => List.mem_append_left _ (hs.sent c m hc),
      fun p hp => List.mem_append_left _ (hs.accepted p hp)⟩
  cases event with
  | client clientIndex m =>
    simp only [ShaderArrayEvent.step] at h
    split at h
    · cases h
      refine ⟨fun c m' hc => ?_, (hmono hpast).accepted⟩
      by_cases hcc : c = clientIndex
      · subst hcc
        simp only [Function.update_self, Option.some.injEq] at hc
        subst hc
        exact List.mem_append_right _ (List.mem_singleton_self _)
      · exact (hmono hpast).sent c m' (by simpa only [Function.update_of_ne hcc] using hc)
    · cases h
      exact hmono hpast
  | requestThread => exact hmono (stepRequestThread_fromClients hpast h)
  | responseThread => exact hmono (stepResponseThread_fromClients hpast h)
  | shaderUnit u =>
    obtain ⟨port, -, h⟩ := bind_ok.mp h
    cases h
    exact hmono ⟨hpast.sent, hpast.accepted⟩

theorem run_fromClients (events : List ShaderArrayEvent) {past : List ShaderArrayEvent}
    (hpast : FromClients past s)
    (h : ShaderArray.run alu memory clientsCount shaderUnitsCount events s = .ok s') :
    FromClients (past ++ events) s' :=
  @foldlM_inv _ _ _ _ FromClients (fun hpast h => step_fromClients hpast h) events past s s' hpast h

/-- **In every state that a run reaches, the delivered responses answer different accepted
    requests, each with the client, the token and the outputs of its request; these came
    from the clients; and a unit that is sent a command waits for it.** -/
theorem responses_match_requests {events : List ShaderArrayEvent} {units : Nat → ShaderUnit Dword}
    (h : ShaderArray.run alu memory clientsCount shaderUnitsCount events (.initial units) =
      .ok s) :
    (∃ answered : List Nat, answered.Nodup ∧
      List.Forall₂ (Answers alu memory s.accepted) answered s.delivered) ∧
    (∀ p ∈ s.accepted, .client p.1 p.2 ∈ events) ∧
    (∀ c u m data, s.requestThread = .handling c u (.storing m data) →
      (s.units u).phase = .receiving false) ∧
    (∀ c u m, s.requestThread = .handling c u (.executing m) →
      (s.units u).phase = .receiving true) := by
  obtain ⟨ledger, hinv⟩ := shaderArrayInv_run events (initial_inv units) h
  have hpast := @run_fromClients alu memory clientsCount shaderUnitsCount _ _ events []
    (initial_fromClients units) h
  refine ⟨⟨ledger.settled, ledger.nodup, ?_⟩, hpast.accepted, fun c u m data hthread => ?_,
    fun c u m hthread => ?_⟩
  · rw [hinv.accepted]
    exact hinv.delivered.imp fun i response hanswers => hanswers.issue _
  · have hu := hinv.handled hthread
    generalize ledger.job u = job at hu
    cases hu with
    | storing hphase _ _ => exact hphase
  · have hu := hinv.handled hthread
    generalize ledger.job u = job at hu
    cases hu with
    | stored hphase _ _ => exact hphase

end

end

/-- A request for the program that ends at once, so its output is its input. -/
def trapMessage (clientToken : BitVec 16) (input : Dword) : RequestMessage where
  request := { trapRequest with clientToken := clientToken }
  inputs := [input]
  inputs_length := rfl
  aligned := rfl

/-- Two requests, whose units answer in the other order. -/
def overtakingEvents : List ShaderArrayEvent :=
  [.client 0 (trapMessage 7 5), .client 1 (trapMessage 8 9)] ++
    List.replicate 12 .requestThread ++ [.shaderUnit 1] ++ List.replicate 3 .responseThread ++
    [.shaderUnit 0] ++ List.replicate 3 .responseThread

def idleUnits : Nat → ShaderUnit Dword :=
  fun _ => ⟨.zero, fun _ => 0, fun _ _ => .replicate 0, 0, fun _ => 0⟩

theorem responses_match_requests_overtaking : ∃ s,
    ShaderArray.run integerAlu trapLoaded.memory 2 2 overtakingEvents (.initial idleUnits) =
      .ok s ∧
    s.delivered = [(1, [8, 9]), (0, [7, 5])] ∧
    ∃ answered : List Nat, answered.Nodup ∧
      List.Forall₂ (Answers integerAlu trapLoaded.memory s.accepted) answered s.delivered := by
  refine ⟨_, rfl, rfl, ?_⟩
  exact (@responses_match_requests integerAlu trapLoaded.memory 2 2 _ overtakingEvents idleUnits
    rfl).1

end PicoGpu
