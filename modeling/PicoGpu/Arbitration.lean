import Mathlib.Data.Nat.Count
import PicoGpu.Lib.Clocked
import PicoGpu.Memory

/- How long a client of the memory controller waits for the others. The scan begins
   behind the client that was served last, so each service brings it nearer to a
   client that waits: its distance on the round drops, and no client is served at one
   distance twice. The memory answers when it likes, and the clients ask what they
   like, as long as they wait for `completed` between two requests. -/
namespace PicoGpu
namespace MemoryController

variable {last : Nat}

/-- What is around a controller: the ports of its clients and of the memory at each clock,
    and which of the two writers of a latched enable signal comes last. -/
structure Surroundings (last : Nat) where
  clients : Nat → Fin (last + 1) → MemorySignals
  inpData : Nat → MemoryDataType
  inpCompleted : Nat → Bool
  listenLast : Nat → Bool

namespace Surroundings

/-- The controller after `n` clocks. -/
def after (env : Surroundings last) : Nat → MemoryController last :=
  Clocked.run (fun n c => c.step (env.listenLast n) (env.clients n) (env.inpData n)
    (env.inpCompleted n)) (.init last)

/-- The request of client `i` is completed in clock `n`. -/
def Completes (env : Surroundings last) (i : Fin (last + 1)) (n : Nat) : Prop :=
  (env.after n).completing (env.inpCompleted n) = some i

/-- Client `i` makes a request, which the controller sees at clock `n`. -/
def Requests (env : Surroundings last) (i : Fin (last + 1)) (n : Nat) : Prop :=
  (env.clients n i).enable = true

instance (env : Surroundings last) (i : Fin (last + 1)) : DecidablePred (env.Completes i) :=
  fun n => inferInstanceAs (Decidable ((env.after n).completing (env.inpCompleted n) = some i))

instance (env : Surroundings last) (i : Fin (last + 1)) : DecidablePred (env.Requests i) :=
  fun n => inferInstanceAs (Decidable ((env.clients n i).enable = true))

/-- The requests of client `i` that the controller has seen before clock `n`. -/
def requests (env : Surroundings last) (i : Fin (last + 1)) (n : Nat) : Nat :=
  Nat.count (env.Requests i) n

/-- Those of them that were completed. -/
def completions (env : Surroundings last) (i : Fin (last + 1)) (n : Nat) : Nat :=
  Nat.count (env.Completes i) n

/-- Between two requests a client sees that the first one is completed. -/
def ClientsWait (env : Surroundings last) : Prop :=
  ∀ i m n, m < n → env.Requests i m → env.Requests i n →
    ∃ k, m < k ∧ k < n ∧ (env.after k).outCompleted i = true

end Surroundings

/-! ## One clock -/

section
variable {c : MemoryController last} {listenLast inpCompleted : Bool}
  {clients : Fin (last + 1) → MemorySignals} {inpData : MemoryDataType} {i j : Fin (last + 1)}

/-- A latched request stays until it is completed. -/
theorem latched_step (hi : (c.clientsLatched i).enable = true)
    (hc : c.completing inpCompleted ≠ some i) :
    ((c.step listenLast clients inpData inpCompleted).clientsLatched i).enable = true := by
  rw [step_latched hc]
  unfold listenClients
  split
  · rfl
  · exact hi

/-- While `main` is at the memory, the request that it serves is latched and no client
    sees `completed`; at the head of the loop one client may, and `main` knows which. -/
def Serving (c : MemoryController last) : Prop :=
  match c.pc with
  | .scanning => ∀ i, c.outCompleted i = true → c.clientForOutputClear = some i
  | .issued _ | .waiting _ =>
    (c.clientsLatched c.currentClient).enable = true ∧ ∀ i, c.outCompleted i = false

/-- What `main` goes on with from the head of its loop. -/
theorem scanned (h : c.pc = .scanning) :
    let c' := c.step listenLast clients inpData inpCompleted
    (∀ i, c'.clientsLatched i = listenClients (clients i) (c.clientsLatched i)) ∧
    ((findClient (fun i => (c.clientsLatched i).enable) (last + 1) c.currentClient = none ∧
        c'.pc = .scanning ∧ c'.currentClient = c.currentClient ∧
        c'.outCompleted = c.clearOutput.outCompleted) ∨
      ∃ k w, findClient (fun i => (c.clientsLatched i).enable) (last + 1) c.currentClient = some k ∧
        c'.pc = .issued w ∧ c'.currentClient = k ∧
        c'.outCompleted = c.clearOutput.outCompleted) := by
  obtain ⟨hlatched, hcurrent, -, hpc, -⟩ := clearOutput_frame c
  refine ⟨fun i => ?_, ?_⟩
  · apply step_latched
    rw [completing_scanning h]
    exact nofun
  · rw [step_pc, step_currentClient, step_outCompleted, main_scanning _ _ h]
    obtain ⟨hout, -, -, ⟨hnone, hpc', -, hcur⟩ | ⟨k, hk, hcur, hpc', -⟩⟩ := scan_cases c.clearOutput
    · rw [hlatched, hcurrent] at hnone
      exact .inl ⟨hnone, by rw [hpc', hpc, h], by rw [hcur, hcurrent], hout⟩
    · rw [hlatched, hcurrent] at hk
      exact .inr ⟨k, _, hk, hpc', hcur, hout⟩

theorem Serving.step (h : c.Serving) :
    (c.step listenLast clients inpData inpCompleted).Serving := by
  unfold Serving at h
  cases hpc : c.pc with
  | scanning =>
    rw [hpc] at h
    have hlow := clearOutput_outCompleted h
    obtain ⟨hlatched, ⟨-, hpc', -, hout⟩ | ⟨k, w, hk, hpc', hcur, hout⟩⟩ :=
      @scanned last c listenLast inpCompleted clients inpData hpc
    · unfold Serving
      rw [hpc', hout]
      intro i hi
      rw [hlow i] at hi
      cases hi
    · unfold Serving
      rw [hpc', hout, hcur, hlatched]
      have henabled := findClient_enabled hk
      refine ⟨?_, hlow⟩
      unfold listenClients
      split
      · rfl
      · exact henabled
  | issued w =>
    rw [hpc] at h
    obtain ⟨hlatched, hlow⟩ := h
    have hnone := @completing_issued last c inpCompleted w hpc
    unfold Serving
    rw [step_pc, step_currentClient, step_outCompleted, main_issued _ _ hpc]
    exact ⟨latched_step hlatched (by rw [hnone]; exact nofun), hlow⟩
  | waiting w =>
    rw [hpc] at h
    obtain ⟨hlatched, hlow⟩ := h
    cases hdone : inpCompleted with
    | true =>
      unfold Serving
      rw [step_pc, step_outCompleted, step_clientForOutputClear, main_waiting _ hpc rfl]
      intro i hi
      have hi : Function.update c.outCompleted c.currentClient true i = true := hi
      rw [Function.update_apply] at hi
      split at hi
      · next he => rw [he]; rfl
      · rw [hlow] at hi
        cases hi
    | false =>
      have hnone : c.completing false = none := completing_waiting hpc
      unfold Serving
      rw [step_pc, step_currentClient, step_outCompleted, main_pending hpc, hpc]
      exact ⟨latched_step hlatched (by rw [hnone]; exact nofun), hlow⟩

/-! ## Overtaking -/

/-- Client `j` was served while `i` waits: it is not nearer to `i` than the client that was
    served last, and the one that is being served is nearer, or is `i`. -/
def Passed (i j : Fin (last + 1)) (c : MemoryController last) : Prop :=
  match c.pc with
  | .scanning => ahead c.currentClient i ≤ ahead j i
  | .issued _ | .waiting _ => c.currentClient = i ∨ ahead c.currentClient i < ahead j i

/-- A client that was passed has no request at the memory. -/
theorem Passed.not_completing (h : Passed i j c) (hne : j ≠ i) :
    c.completing inpCompleted ≠ some j := by
  intro hj
  obtain ⟨w, hpc, -, rfl⟩ := waiting_of_completing hj
  unfold Passed at h
  rw [hpc] at h
  obtain hi | hlt := h
  · exact hne hi
  · exact absurd hlt (Nat.lt_irrefl _)

/-- The client whose request is completed is passed. -/
theorem passed_of_completing (hj : c.completing inpCompleted = some j) :
    Passed i j (c.step listenLast clients inpData inpCompleted) := by
  obtain ⟨w, hpc, hdone, rfl⟩ := waiting_of_completing hj
  unfold Passed
  rw [step_pc, step_currentClient, main_waiting _ hpc hdone]
  exact Nat.le_refl _

/-- A client that was passed stays so until `i` is served. -/
theorem Passed.step (h : Passed i j c) (hi : (c.clientsLatched i).enable = true)
    (hc : c.completing inpCompleted ≠ some i) :
    Passed i j (c.step listenLast clients inpData inpCompleted) := by
  unfold Passed at h
  cases hpc : c.pc with
  | scanning =>
    rw [hpc] at h
    have h : ahead c.currentClient i ≤ ahead j i := h
    -- the scan finds `i`, or a client that is nearer to it
    obtain ⟨found, hfound, hnearer⟩ := @findClient_ahead last
      (fun i => (c.clientsLatched i).enable) i hi (last + 1) c.currentClient (ahead_lt _ _)
    obtain ⟨-, ⟨hnone, -⟩ | ⟨k, w, hk, hpc', hcur, -⟩⟩ :=
      @scanned last c listenLast inpCompleted clients inpData hpc
    · rw [hfound] at hnone
      cases hnone
    · rw [hfound] at hk
      cases hk
      unfold Passed
      rw [hpc', hcur]
      obtain rfl | hlt := hnearer
      · exact .inl rfl
      · exact .inr (Nat.lt_of_lt_of_le hlt h)
  | issued w =>
    rw [hpc] at h
    unfold Passed
    rw [step_pc, step_currentClient, main_issued _ _ hpc]
    exact h
  | waiting w =>
    rw [hpc] at h
    cases hdone : inpCompleted with
    | true =>
      have hserved : c.currentClient ≠ i := by
        intro hcur
        apply hc
        rw [completing_waiting hpc, hdone, if_pos rfl, hcur]
      unfold Passed
      rw [step_pc, step_currentClient, main_waiting _ hpc rfl]
      exact Nat.le_of_lt (h.resolve_left hserved)
    | false =>
      unfold Passed
      rw [step_pc, step_currentClient, main_pending hpc, hpc]
      exact h

end

namespace Surroundings

section
variable {env : Surroundings last} {i j : Fin (last + 1)}

theorem after_succ (env : Surroundings last) (n : Nat) : env.after (n + 1) =
    (env.after n).step (env.listenLast n) (env.clients n) (env.inpData n) (env.inpCompleted n) := rfl

/-- While a latched request is not completed, every other client is served at most once. -/
theorem served_once (hne : j ≠ i) {n : Nat}
    (hi : ((env.after n).clientsLatched i).enable = true) (clocks : Nat)
    (hwaits : ∀ k < clocks, ¬ env.Completes i (n + k)) :
    ((env.after (n + clocks)).clientsLatched i).enable = true ∧
      (env.completions j (n + clocks) = env.completions j n ∨
        env.completions j (n + clocks) = env.completions j n + 1 ∧
          Passed i j (env.after (n + clocks))) := by
  induction clocks with
  | zero => exact ⟨hi, .inl rfl⟩
  | succ clocks ih =>
    obtain ⟨hlatched, hcases⟩ := ih fun k hk => hwaits k (Nat.lt_succ_of_lt hk)
    have hnot : (env.after (n + clocks)).completing (env.inpCompleted (n + clocks)) ≠ some i :=
      hwaits clocks (Nat.lt_succ_self _)
    have hcount : env.completions j (n + clocks + 1) = env.completions j (n + clocks) +
        if env.Completes j (n + clocks) then 1 else 0 := Nat.count_succ _ _
    rw [← Nat.add_assoc, hcount, after_succ]
    refine ⟨latched_step hlatched hnot, ?_⟩
    by_cases hj : env.Completes j (n + clocks)
    · rw [if_pos hj]
      obtain hnone | ⟨-, hpassed⟩ := hcases
      · exact .inr ⟨by rw [hnone], passed_of_completing hj⟩
      · exact absurd hj (hpassed.not_completing hne)
    · rw [if_neg hj, Nat.add_zero]
      exact hcases.imp_right fun h => ⟨h.1, h.2.step hlatched hnot⟩

/-! ## Clients that wait -/

theorem serving (env : Surroundings last) (n : Nat) : (env.after n).Serving :=
  Clocked.run_always (fun _ hi => nomatch hi) (fun _ _ h => h.step) n

/-- Only the client whose request was completed sees `completed`. -/
theorem completes_of_outCompleted {n : Nat} (h : (env.after (n + 1)).outCompleted i = true) :
    env.Completes i n := by
  have hserving := env.serving n
  unfold Serving at hserving
  rw [after_succ, step_outCompleted] at h
  cases hpc : (env.after n).pc with
  | scanning =>
    rw [hpc] at hserving
    obtain ⟨hout, -⟩ := scan_cases (env.after n).clearOutput
    rw [main_scanning _ _ hpc, hout, clearOutput_outCompleted hserving] at h
    cases h
  | issued w =>
    rw [hpc] at hserving
    rw [main_issued _ _ hpc] at h
    have hlow := hserving.2 i
    exact absurd (h.symm.trans hlow) (by decide)
  | waiting w =>
    rw [hpc] at hserving
    have hlow := hserving.2
    unfold Completes
    rw [completing_waiting hpc]
    cases hdone : env.inpCompleted n with
    | true =>
      rw [hdone, main_waiting _ hpc rfl] at h
      have h : Function.update (env.after n).outCompleted (env.after n).currentClient true i = true := h
      rw [Function.update_apply] at h
      split at h
      next he => rw [he, if_pos rfl]
      next =>
        rw [hlow] at h
        cases h
    | false =>
      rw [hdone, main_pending hpc, hlow] at h
      cases h

/-- What is completed was latched. -/
theorem latched_of_completes {n : Nat} (h : env.Completes i n) :
    ((env.after n).clientsLatched i).enable = true := by
  obtain ⟨w, hpc, -, rfl⟩ := waiting_of_completing h
  have hserving := env.serving n
  unfold Serving at hserving
  rw [hpc] at hserving
  exact hserving.1

/-- The requests of a client, the completed ones and what is latched, before clock `n`. -/
structure Balanced (env : Surroundings last) (i : Fin (last + 1)) (n : Nat) : Prop where
  completed : env.completions i n ≤ env.requests i n
  latched : ((env.after n).clientsLatched i).enable = true ↔
    env.requests i n = env.completions i n + 1
  idle : ((env.after n).clientsLatched i).enable = false ↔ env.requests i n = env.completions i n
  seen : (env.after n).outCompleted i = true → env.requests i n = env.completions i n

/-- The last request of a client that has made one. -/
theorem last_request {n : Nat} (h : 0 < env.requests i n) :
    ∃ m < n, env.Requests i m ∧ ∀ k, m < k → k ≤ n → env.requests i k = env.requests i n := by
  induction n with
  | zero => exact absurd h (Nat.lt_irrefl _)
  | succ n ih =>
    have hcount : env.requests i (n + 1) = env.requests i n +
        if env.Requests i n then 1 else 0 := Nat.count_succ _ _
    by_cases hn : env.Requests i n
    · refine ⟨n, Nat.lt_succ_self n, hn, fun k hk hkn => ?_⟩
      rw [show k = n + 1 by omega]
    · rw [if_neg hn, Nat.add_zero] at hcount
      rw [hcount] at h
      obtain ⟨m, hm, hrequest, hsame⟩ := ih h
      refine ⟨m, by omega, hrequest, fun k hk hkn => ?_⟩
      rw [hcount]
      by_cases hk' : k = n + 1
      · rw [hk', hcount]
      · exact hsame k hk (by omega)

/-- A client that asks again has no request open. -/
theorem requests_when_idle (hwait : env.ClientsWait) {n : Nat}
    (hpast : ∀ k ≤ n, env.Balanced i k) (h : env.Requests i n) :
    env.requests i n = env.completions i n := by
  have hbalanced := hpast n (Nat.le_refl n)
  have hle := hbalanced.completed
  by_cases hpos : 0 < env.requests i n
  · obtain ⟨m, hm, hrequest, hsame⟩ := last_request hpos
    obtain ⟨k, hmk, hkn, hcompleted⟩ := hwait i m n hm hrequest h
    have hseen := (hpast k (by omega)).seen hcompleted
    have hmono : env.completions i k ≤ env.completions i n := Nat.count_monotone _ (by omega)
    have hk := hsame k hmk (by omega)
    omega
  · omega

theorem balanced_step (hwait : env.ClientsWait) {n : Nat} (hpast : ∀ k ≤ n, env.Balanced i k) :
    env.Balanced i (n + 1) := by
  have hbalanced := hpast n (Nat.le_refl n)
  have hrequests : env.requests i (n + 1) = env.requests i n +
      if env.Requests i n then 1 else 0 := Nat.count_succ _ _
  have hcompletions : env.completions i (n + 1) = env.completions i n +
      if env.Completes i n then 1 else 0 := Nat.count_succ _ _
  by_cases hcompletes : env.Completes i n
  · -- the request that is completed was latched, so the client makes no other one
    have hlatched := latched_of_completes hcompletes
    have hopen := hbalanced.latched.mp hlatched
    have hquiet : ¬ env.Requests i n := by
      intro hrequest
      have hidle := requests_when_idle hwait hpast hrequest
      omega
    rw [if_neg hquiet] at hrequests
    rw [if_pos hcompletes] at hcompletions
    have hlow : ((env.after (n + 1)).clientsLatched i).enable = false := by
      rw [after_succ, step_latched_completing hcompletes (Bool.eq_false_iff.mpr hquiet)]
    have heq : env.requests i (n + 1) = env.completions i (n + 1) := by omega
    refine ⟨by omega, ⟨fun h => ?_, fun h => by omega⟩, ⟨fun _ => heq, fun _ => hlow⟩, fun _ => heq⟩
    rw [hlow] at h
    cases h
  · rw [if_neg hcompletes, Nat.add_zero] at hcompletions
    have hunseen : (env.after (n + 1)).outCompleted i = true → env.requests i (n + 1) =
        env.completions i (n + 1) := fun h => absurd (completes_of_outCompleted h) hcompletes
    have hstep := @step_latched last (env.after n) (env.inpData n) (env.inpCompleted n) i hcompletes
      (env.listenLast n) (env.clients n)
    rw [← after_succ] at hstep
    by_cases hrequest : env.Requests i n
    · have hidle := requests_when_idle hwait hpast hrequest
      rw [if_pos hrequest] at hrequests
      have hhigh : ((env.after (n + 1)).clientsLatched i).enable = true := by
        have henable : (env.clients n i).enable = true := hrequest
        rw [hstep, listenClients, if_pos henable]
      refine ⟨by omega, ⟨fun _ => by omega, fun _ => hhigh⟩, ⟨fun h => ?_, fun h => by omega⟩, hunseen⟩
      rw [hhigh] at h
      cases h
    · rw [if_neg hrequest, Nat.add_zero] at hrequests
      have hsame : (env.after (n + 1)).clientsLatched i = (env.after n).clientsLatched i := by
        have henable : ¬ (env.clients n i).enable = true := hrequest
        rw [hstep, listenClients, if_neg henable]
      refine ⟨?_, ?_, ?_, hunseen⟩
      · rw [hrequests, hcompletions]
        exact hbalanced.completed
      · rw [hsame, hrequests, hcompletions]
        exact hbalanced.latched
      · rw [hsame, hrequests, hcompletions]
        exact hbalanced.idle

theorem balanced (hwait : env.ClientsWait) (i : Fin (last + 1)) (n : Nat) : env.Balanced i n := by
  induction n using Nat.strongRecOn with
  | ind n ih =>
    cases n with
    | zero =>
      exact ⟨Nat.le_refl _, ⟨fun h => (nomatch h), fun h => (nomatch h)⟩,
        ⟨fun _ => rfl, fun _ => rfl⟩, fun _ => rfl⟩
    | succ n => exact balanced_step hwait fun k hk => ih k (Nat.lt_succ_of_le hk)

/-- **Where the clients wait for their answers, a request that the controller has seen is
    overtaken at most once by each of the other clients.** -/
theorem overtaken_once (hwait : env.ClientsWait) (hne : j ≠ i) {n m : Nat} (hnm : n ≤ m)
    (hopen : env.completions i m < env.requests i n) :
    ((env.after n).clientsLatched i).enable = true ∧
      env.completions j m ≤ env.completions j n + 1 := by
  have hbalanced := balanced hwait i n
  have hmono : env.completions i n ≤ env.completions i m := Nat.count_monotone _ hnm
  have hcompleted := hbalanced.completed
  have hlatched : ((env.after n).clientsLatched i).enable = true := by
    rw [← Bool.not_eq_false]
    intro hlow
    have hidle := hbalanced.idle.mp hlow
    omega
  have hone := hbalanced.latched.mp hlatched
  have hwaits : ∀ k < m - n, ¬ env.Completes i (n + k) := by
    intro k hk hcompletes
    have hcount : env.completions i (n + k + 1) = env.completions i (n + k) +
        if env.Completes i (n + k) then 1 else 0 := Nat.count_succ _ _
    rw [if_pos hcompletes] at hcount
    have hbefore : env.completions i n ≤ env.completions i (n + k) :=
      Nat.count_monotone _ (by omega)
    have hafter : env.completions i (n + k + 1) ≤ env.completions i m :=
      Nat.count_monotone _ (by omega)
    omega
  obtain ⟨-, hcases⟩ := served_once hne hlatched (m - n) hwaits
  rw [Nat.add_sub_cancel' hnm] at hcases
  refine ⟨hlatched, ?_⟩
  obtain hnone | ⟨hsome, -⟩ := hcases
  · omega
  · omega

end

/-- Two clients that ask in the first clock, of a memory that answers at once. -/
def bothAsk : Surroundings 1 where
  clients := fun n _ => ⟨n = 0, false, 0, 0⟩
  inpData := fun _ => 0
  inpCompleted := fun _ => true
  listenLast := fun _ => false

theorem overtaken_once_of_two : ((bothAsk.after 1).clientsLatched 1).enable = true ∧
    bothAsk.completions 0 5 ≤ bothAsk.completions 0 1 + 1 := by
  refine @overtaken_once 1 bothAsk 1 0 ?_ (by decide) 1 5 (by decide) (by decide)
  intro i m n hmn _ hn
  have hn : decide (n = 0) = true := hn
  have hzero := of_decide_eq_true hn
  omega

end Surroundings

end MemoryController
end PicoGpu
