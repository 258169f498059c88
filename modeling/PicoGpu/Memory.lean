import PicoGpu.Util
import Mathlib.Logic.Function.Basic

/- The blocks `Memory` and `MemoryController`. Each process is cut at its
   `wait()`s; a step reads the signals as the clock found them.

   Correspondence:
     memory.h             `work`                        ↔ `Memory.work`
     memory_controller.h  `ClientPorts`, `MemoryPorts`,
                          `ClientLatchedSignals`        ↔ `MemorySignals`
                          `main`, `listenClients`       ↔ `MemoryController.main`, `.listenClients`
   `clientsCount` is `last + 1`. -/
namespace PicoGpu

/-- The signals of a memory interface from the client to the server. -/
structure MemorySignals where
  enable : Bool
  write : Bool
  address : MemoryAddressType
  data : MemoryDataType
  deriving DecidableEq, Repr

def MemorySignals.low : MemorySignals := ⟨false, false, 0, 0⟩

/-- What a memory interface asks for while it is enabled. -/
inductive MemoryOperation where
  | read (address : MemoryAddressType)
  | write (address : MemoryAddressType) (data : MemoryDataType)
  deriving DecidableEq, Repr

def MemorySignals.operation (s : MemorySignals) : MemoryOperation :=
  if s.write then .write s.address s.data else .read s.address

def MemoryOperation.address : MemoryOperation → MemoryAddressType
  | read address => address
  | write address _ => address

/-! ## Memory -/

/-- `inpAddress.read().to_int() / memoryDataTypeByteSize`: the division is one of
    `size_t`, so the sign of the `int` is carried into 64 bits first. -/
def addressIndex (address : MemoryAddressType) : Nat := (address.signExtend 64).toNat / 4

structure Memory (size : Nat) where
  rawMemory : Fin size → MemoryDataType
  outData : MemoryDataType
  outCompleted : Bool

variable {size : Nat}

/-- `rawMemory[addr].read()`. Outside the array the source's behaviour is undefined. -/
def load (rawMemory : Fin size → MemoryDataType) (addr : Nat) : MemoryDataType :=
  if h : addr < size then rawMemory ⟨addr, h⟩ else 0

/-- `rawMemory[addr].write(data)`. -/
def store (rawMemory : Fin size → MemoryDataType) (addr : Nat) (data : MemoryDataType) :
    Fin size → MemoryDataType :=
  if h : addr < size then Function.update rawMemory ⟨addr, h⟩ data else rawMemory

def Memory.work (inp : MemorySignals) (m : Memory size) : Memory size :=
  if !inp.enable then { m with outCompleted := false, outData := 0 }
  else if inp.write then
    { rawMemory := store m.rawMemory (addressIndex inp.address) inp.data
      outData := 0
      outCompleted := true }
  else { m with outCompleted := true, outData := load m.rawMemory (addressIndex inp.address) }

/-- The addresses a client may use with a memory of `size` dwords. -/
structure ValidAddress (size : Nat) (address : MemoryAddressType) : Prop where
  aligned : address.toNat % 4 = 0
  inRange : addressIndex address < size

/-- The memory as its clients think of it: a value at every address. A write
    answers with the zero that `outData` shows. -/
def atomicMemory (m : MemoryAddressType → MemoryDataType) :
    MemoryOperation → (MemoryAddressType → MemoryDataType) × MemoryDataType
  | .read address => (m, m address)
  | .write address data => (Function.update m address data, 0)

/-- The array holds `m` at the addresses that may be used. -/
def Holds (rawMemory : Fin size → MemoryDataType) (m : MemoryAddressType → MemoryDataType) : Prop :=
  ∀ address, ValidAddress size address → load rawMemory (addressIndex address) = m address

theorem addressIndex_inj {a b : MemoryAddressType} (ha : a.toNat % 4 = 0) (hb : b.toNat % 4 = 0)
    (h : addressIndex a = addressIndex b) : a = b := by
  have hal := a.isLt
  have hbl := b.isLt
  have hma := BitVec.msb_eq_decide a
  have hmb := BitVec.msb_eq_decide b
  unfold addressIndex at h
  rw [BitVec.toNat_signExtend, BitVec.toNat_signExtend, BitVec.toNat_setWidth,
    BitVec.toNat_setWidth, hma, hmb] at h
  apply BitVec.eq_of_toNat_eq
  simp only [decide_eq_true_eq] at h
  split at h <;> split at h <;> omega

theorem load_store {rawMemory : Fin size → MemoryDataType} {addr : Nat} (h : addr < size)
    (data : MemoryDataType) (other : Nat) :
    load (store rawMemory addr data) other = if other = addr then data else load rawMemory other := by
  unfold load store
  rw [dif_pos h]
  by_cases ho : other < size
  · rw [dif_pos ho, dif_pos ho, Function.update_apply]
    simp only [Fin.mk.injEq]
  · rw [dif_neg ho, dif_neg ho, if_neg (by omega)]

theorem Holds.store {rawMemory : Fin size → MemoryDataType}
    {m : MemoryAddressType → MemoryDataType} (h : Holds rawMemory m) {address : MemoryAddressType}
    (hv : ValidAddress size address) (data : MemoryDataType) :
    Holds (store rawMemory (addressIndex address) data) (Function.update m address data) := by
  intro other ho
  rw [load_store hv.inRange, Function.update_apply]
  by_cases he : other = address
  · rw [if_pos he, if_pos (congrArg addressIndex he)]
  · have hi : addressIndex other ≠ addressIndex address :=
      fun hi => he (addressIndex_inj ho.aligned hv.aligned hi)
    rw [if_neg he, if_neg hi, h other ho]

/-- An enabled memory serves the operation on its ports. -/
theorem Memory.work_enabled {mem : Memory size} {m : MemoryAddressType → MemoryDataType}
    (h : Holds mem.rawMemory m) {inp : MemorySignals} (he : inp.enable = true)
    (hv : ValidAddress size inp.operation.address) :
    Holds (mem.work inp).rawMemory (atomicMemory m inp.operation).1 ∧
    (mem.work inp).outData = (atomicMemory m inp.operation).2 ∧
    (mem.work inp).outCompleted = true := by
  unfold Memory.work MemorySignals.operation at *
  rw [he, if_neg (by decide)]
  cases hw : inp.write with
  | true =>
    simp only [hw, if_true] at hv
    exact ⟨h.store hv inp.data, rfl, rfl⟩
  | false =>
    simp only [hw, Bool.false_eq_true, if_false] at hv
    exact ⟨h, h inp.address hv, rfl⟩

theorem Memory.work_disabled (mem : Memory size) {inp : MemorySignals} (he : inp.enable = false) :
    mem.work inp = { mem with outCompleted := false, outData := 0 } := by
  unfold Memory.work
  rw [he]
  rfl

/-! ## MemoryController -/

namespace MemoryController

/-- The `wait()`s of `main`: the one at the head of its loop, the one after the
    memory was enabled and the one in `waitForMemory`. -/
inductive Pc where
  | scanning
  | issued (memoryWrite : Bool)
  | waiting (memoryWrite : Bool)
  deriving DecidableEq, Repr

end MemoryController

structure MemoryController (last : Nat) where
  pc : MemoryController.Pc
  currentClient : Fin (last + 1)
  clientForOutputClear : Option (Fin (last + 1))
  outCompleted : Fin (last + 1) → Bool
  outData : MemoryDataType
  memory : MemorySignals
  clientsLatched : Fin (last + 1) → MemorySignals
  outBusy : Bool
  outReadsPerformed : BitVec 32
  outWritesPerformed : BitVec 32

namespace MemoryController

variable {last : Nat}

def init (last : Nat) : MemoryController last where
  pc := .scanning
  currentClient := Fin.last last
  clientForOutputClear := none
  outCompleted := fun _ => false
  outData := 0
  memory := .low
  clientsLatched := fun _ => .low
  outBusy := false
  outReadsPerformed := 0
  outWritesPerformed := 0

/-- The loop over the clients: `tries` of them, from the one after `current` on. -/
def findClient (enable : Fin (last + 1) → Bool) : Nat → Fin (last + 1) → Option (Fin (last + 1))
  | 0, _ => none
  | tries + 1, current =>
    if enable (current + 1) then some (current + 1) else findClient enable tries (current + 1)

/-- The completed pulse of the clock before, and its data, go down. -/
def clearOutput (c : MemoryController last) : MemoryController last :=
  match c.clientForOutputClear with
  | none => c
  | some client =>
    { c with
      outCompleted := Function.update c.outCompleted client false
      outData := 0
      clientForOutputClear := none }

/-- `main` from the head of its loop: with no client enabled, `currentClient` has
    gone round once and is where it was. -/
def scan (c : MemoryController last) : MemoryController last :=
  match findClient (fun i => (c.clientsLatched i).enable) (last + 1) c.currentClient with
  | none => { c with outBusy := false }
  | some client =>
    let latched := c.clientsLatched client
    { c with
      pc := .issued latched.write
      currentClient := client
      outBusy := true
      memory :=
        { enable := true
          write := latched.write
          address := latched.address
          data := if latched.write then latched.data else c.memory.data } }

/-- The client whose request ends in this clock. -/
def completing (inpCompleted : Bool) (c : MemoryController last) : Option (Fin (last + 1)) :=
  match c.pc with
  | .waiting _ => if inpCompleted then some c.currentClient else none
  | _ => none

/-- `main` after `waitForMemory`, its write to the latched enable signal apart. -/
def complete (memoryWrite : Bool) (inpData : MemoryDataType) (c : MemoryController last) :
    MemoryController last :=
  { c with
    pc := .scanning
    outWritesPerformed := if memoryWrite then c.outWritesPerformed + 1 else c.outWritesPerformed
    outReadsPerformed := if memoryWrite then c.outReadsPerformed else c.outReadsPerformed + 1
    outData := if memoryWrite then c.outData else inpData
    outCompleted := Function.update c.outCompleted c.currentClient true
    clientForOutputClear := some c.currentClient }

/-- One clock of `main`, its write to the latched enable signal apart. -/
def main (inpData : MemoryDataType) (inpCompleted : Bool) (c : MemoryController last) :
    MemoryController last :=
  match c.pc with
  | .scanning => c.clearOutput.scan
  | .issued memoryWrite =>
    { c with
      pc := .waiting memoryWrite
      memory := { c.memory with enable := false, write := !memoryWrite && c.memory.write } }
  | .waiting memoryWrite => if inpCompleted then c.complete memoryWrite inpData else c

/-- What `listenClients` leaves in the latched signals of one client. -/
def listenClients (client latched : MemorySignals) : MemorySignals :=
  if client.enable then { client with enable := true } else latched

/-- What `main` leaves in them. -/
def disable (completing : Bool) (latched : MemorySignals) : MemorySignals :=
  if completing then { latched with enable := false } else latched

/-- One clock of the block. Both processes write the latched enable signals; the
    later write stays, and nothing in the source says which one that is. -/
def step (listenLast : Bool) (clients : Fin (last + 1) → MemorySignals) (inpData : MemoryDataType)
    (inpCompleted : Bool) (c : MemoryController last) : MemoryController last :=
  { c.main inpData inpCompleted with
    clientsLatched := fun i =>
      let completing := c.completing inpCompleted = some i
      if listenLast then listenClients (clients i) (disable completing (c.clientsLatched i))
      else disable completing (listenClients (clients i) (c.clientsLatched i)) }

/-! ## One clock of the controller -/

section
variable {c : MemoryController last} {inpData : MemoryDataType} {inpCompleted : Bool}

@[simp] theorem step_outCompleted (b : Bool) (clients : Fin (last + 1) → MemorySignals) :
    (c.step b clients inpData inpCompleted).outCompleted =
      (c.main inpData inpCompleted).outCompleted := rfl

@[simp] theorem step_outData (b : Bool) (clients : Fin (last + 1) → MemorySignals) :
    (c.step b clients inpData inpCompleted).outData = (c.main inpData inpCompleted).outData := rfl

@[simp] theorem step_pc (b : Bool) (clients : Fin (last + 1) → MemorySignals) :
    (c.step b clients inpData inpCompleted).pc = (c.main inpData inpCompleted).pc := rfl

@[simp] theorem step_currentClient (b : Bool) (clients : Fin (last + 1) → MemorySignals) :
    (c.step b clients inpData inpCompleted).currentClient =
      (c.main inpData inpCompleted).currentClient := rfl

@[simp] theorem step_memory (b : Bool) (clients : Fin (last + 1) → MemorySignals) :
    (c.step b clients inpData inpCompleted).memory = (c.main inpData inpCompleted).memory := rfl

@[simp] theorem step_clientForOutputClear (b : Bool) (clients : Fin (last + 1) → MemorySignals) :
    (c.step b clients inpData inpCompleted).clientForOutputClear =
      (c.main inpData inpCompleted).clientForOutputClear := rfl

theorem main_scanning (inpData : MemoryDataType) (inpCompleted : Bool) (h : c.pc = .scanning) :
    c.main inpData inpCompleted = c.clearOutput.scan := by
  simp [main, h]

theorem main_issued (inpData : MemoryDataType) (inpCompleted : Bool) {w : Bool}
    (h : c.pc = .issued w) : c.main inpData inpCompleted =
    { c with
      pc := .waiting w
      memory := { c.memory with enable := false, write := !w && c.memory.write } } := by
  simp [main, h]

theorem main_waiting (inpData : MemoryDataType) {w : Bool} (h : c.pc = .waiting w)
    (hdone : inpCompleted = true) :
    c.main inpData inpCompleted = c.complete w inpData := by
  simp [main, h, hdone]

/-- Without an answer `main` stays where it is. -/
theorem main_pending {w : Bool} (h : c.pc = .waiting w) : c.main inpData false = c := by
  simp [main, h]

theorem completing_scanning (h : c.pc = .scanning) : c.completing inpCompleted = none := by
  simp [completing, h]

theorem completing_issued {w : Bool} (h : c.pc = .issued w) :
    c.completing inpCompleted = none := by
  simp [completing, h]

theorem completing_waiting {w : Bool} (h : c.pc = .waiting w) :
    c.completing inpCompleted = if inpCompleted then some c.currentClient else none := by
  simp [completing, h]

/-- A request is completed where `main` waits for it and the memory answers. -/
theorem waiting_of_completing {j : Fin (last + 1)} (hj : c.completing inpCompleted = some j) :
    ∃ w, c.pc = .waiting w ∧ inpCompleted = true ∧ c.currentClient = j := by
  cases hpc : c.pc with
  | scanning =>
    rw [completing_scanning hpc] at hj
    cases hj
  | issued w =>
    rw [completing_issued hpc] at hj
    cases hj
  | waiting w =>
    rw [completing_waiting hpc] at hj
    split at hj
    next hdone =>
      cases hj
      exact ⟨w, rfl, hdone, rfl⟩
    next => cases hj

/-- Where the two processes do not meet, their order does not matter. -/
theorem step_latched {i : Fin (last + 1)} (h : c.completing inpCompleted ≠ some i) (b : Bool)
    (clients : Fin (last + 1) → MemorySignals) :
    (c.step b clients inpData inpCompleted).clientsLatched i =
      listenClients (clients i) (c.clientsLatched i) := by
  simp [step, disable, h]

theorem step_latched_completing {i : Fin (last + 1)} (h : c.completing inpCompleted = some i)
    {clients : Fin (last + 1) → MemorySignals} (hq : (clients i).enable = false) (b : Bool) :
    (c.step b clients inpData inpCompleted).clientsLatched i =
      { c.clientsLatched i with enable := false } := by
  simp [step, disable, listenClients, h, hq]

theorem step_latched_quiet {i : Fin (last + 1)} {clients : Fin (last + 1) → MemorySignals}
    (hq : (clients i).enable = false) (hl : (c.clientsLatched i).enable = false) (b : Bool) :
    ((c.step b clients inpData inpCompleted).clientsLatched i).enable = false := by
  by_cases h : c.completing inpCompleted = some i
  · rw [step_latched_completing h hq]
  · rw [step_latched h, listenClients, hq]
    exact hl

theorem clearOutput_frame (c : MemoryController last) :
    c.clearOutput.clientsLatched = c.clientsLatched ∧
    c.clearOutput.currentClient = c.currentClient ∧ c.clearOutput.memory = c.memory ∧
    c.clearOutput.pc = c.pc ∧ c.clearOutput.clientForOutputClear = none := by
  unfold clearOutput
  split
  · next h => exact ⟨rfl, rfl, rfl, rfl, h⟩
  · exact ⟨rfl, rfl, rfl, rfl, rfl⟩

/-- After `clearOutput` no client sees `completed`. -/
theorem clearOutput_outCompleted
    (h : ∀ i, c.outCompleted i = true → c.clientForOutputClear = some i) (i : Fin (last + 1)) :
    c.clearOutput.outCompleted i = false := by
  unfold clearOutput
  cases hc : c.clientForOutputClear with
  | none =>
    refine Bool.eq_false_iff.mpr fun hi => ?_
    have := h i hi
    simp [hc] at this
  | some k =>
    show Function.update c.outCompleted k false i = false
    rw [Function.update_apply]
    split
    · rfl
    · next hne =>
      refine Bool.eq_false_iff.mpr fun hi => hne ?_
      exact (Option.some.inj (hc.symm.trans (h i hi))).symm

/-- Neither does anyone see data. -/
theorem clearOutput_low (h : ∀ i, c.outCompleted i = true → c.clientForOutputClear = some i)
    (hd : c.clientForOutputClear = none → c.outData = 0) :
    (∀ i, c.clearOutput.outCompleted i = false) ∧ c.clearOutput.outData = 0 := by
  refine ⟨clearOutput_outCompleted h, ?_⟩
  unfold clearOutput
  cases hc : c.clientForOutputClear with
  | none => exact hd hc
  | some k => rfl

/-- What the head of the loop does: nothing, or it hands a latched request to the memory. -/
theorem scan_cases (c : MemoryController last) :
    let c' := c.scan
    c'.outCompleted = c.outCompleted ∧ c'.outData = c.outData ∧
    c'.clientForOutputClear = c.clientForOutputClear ∧
    ((findClient (fun i => (c.clientsLatched i).enable) (last + 1) c.currentClient = none ∧
        c'.pc = c.pc ∧ c'.memory = c.memory ∧ c'.currentClient = c.currentClient) ∨
      ∃ k, findClient (fun i => (c.clientsLatched i).enable) (last + 1) c.currentClient = some k ∧
        c'.currentClient = k ∧ c'.pc = .issued (c.clientsLatched k).write ∧
        c'.memory.enable = true ∧ c'.memory.write = (c.clientsLatched k).write ∧
        c'.memory.operation = (c.clientsLatched k).operation) := by
  unfold scan
  split
  · next h => exact ⟨rfl, rfl, rfl, Or.inl ⟨h, rfl, rfl, rfl⟩⟩
  · next k h =>
    refine ⟨rfl, rfl, rfl, Or.inr ⟨k, h, rfl, rfl, rfl, rfl, ?_⟩⟩
    unfold MemorySignals.operation
    cases hw : (c.clientsLatched k).write <;> simp [hw]

end

/-! ## The scan -/

/-- The clients between `current` and `client` on the round. -/
def ahead (current client : Fin (last + 1)) : Nat :=
  if current < client then client - current - 1 else client + last - current

theorem ahead_lt (current client : Fin (last + 1)) : ahead current client < last + 1 := by
  unfold ahead
  split <;> omega

theorem ahead_next {current client : Fin (last + 1)} (h : current + 1 ≠ client) :
    ahead (current + 1) client + 1 = ahead current client := by
  have hval := Fin.val_add_one current
  have hne : (current + 1).val ≠ client.val := fun he => h (Fin.ext he)
  unfold ahead
  simp only [Fin.lt_def]
  generalize current + 1 = next at hval hne
  split at hval
  · next hlast =>
    have hcur : current.val = last := by rw [hlast, Fin.val_last]
    split <;> split <;> omega
  · split <;> split <;> omega

theorem findClient_enabled {enable : Fin (last + 1) → Bool} : ∀ {tries : Nat}
    {current found : Fin (last + 1)}, findClient enable tries current = some found →
    enable found = true
  | tries + 1, current, found, h => by
    unfold findClient at h
    split at h
    · next he => cases h; exact he
    · exact findClient_enabled h

/-- An enabled client is served, or is nearer after the client that is. -/
theorem findClient_ahead {enable : Fin (last + 1) → Bool} {client : Fin (last + 1)}
    (he : enable client = true) : ∀ tries (current : Fin (last + 1)), ahead current client < tries →
    ∃ found, findClient enable tries current = some found ∧
      (found = client ∨ ahead found client < ahead current client)
  | tries + 1, current, h => by
    by_cases hnext : current + 1 = client
    · exact ⟨client, by rw [findClient, hnext, if_pos he], Or.inl rfl⟩
    · have hstep := ahead_next hnext
      by_cases hen : enable (current + 1) = true
      · exact ⟨current + 1, by rw [findClient, if_pos hen], Or.inr (by omega)⟩
      · obtain ⟨found, hf, hd⟩ := findClient_ahead he tries (current + 1) (by omega)
        refine ⟨found, by rw [findClient, if_neg hen, hf], hd.imp_right fun h => by omega⟩

end MemoryController

end PicoGpu
