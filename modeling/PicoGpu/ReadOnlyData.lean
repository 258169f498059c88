import PicoGpu.GpuMemory

/- Data that a run reads and does not write, as the vertices and the programs of a draw. A
   block that only reads, and reads only such data, is answered with what the memory held
   at the beginning, whatever the other blocks do in between. -/
namespace PicoGpu
open Clocked Streams Atomic

/-! ## The address of an access -/

namespace PrimitiveAssembler
variable {p : PrimitiveAssembler}

/-- While it waits, the block keeps the address. -/
theorem step_address (h : p.awaiting = true) (pins : PrimitiveAssemblerPins) (inpEnable : Bool)
    (inpData : MemoryDataType) (inpReceiving : Bool) :
    (p.step pins inpEnable false inpData inpReceiving).memory.address = p.memory.address := by
  unfold awaiting at h
  unfold step
  cases hpc : p.pc with
  | fetching draw triangleIndex readVertices => rfl
  | start | betweenTriangles | sending | aborted => simp [hpc] at h

end PrimitiveAssembler

namespace ShaderFrontendBlock
variable {s : ShaderFrontendBlock}

theorem stepRequest_address (h : s.awaiting = true) (clientsCount shaderUnitsCount : Nat)
    {inputs : ShaderFrontendInputs} (hcompleted : inputs.inpCompleted = false) :
    (s.stepRequest clientsCount shaderUnitsCount inputs).memory.address = s.memory.address := by
  unfold awaiting at h
  unfold stepRequest
  cases hpc : s.requestPc with
  | loadingIsa r data dwordsToLoad =>
    dsimp only
    rw [hcompleted]
    rfl
  | start | receivingHeader | receivingRequest | storingIsa | executingIsa | sendingInputs
  | aborted => simp [hpc] at h

theorem step_address (htracked : s.Tracked) (h : s.awaiting = true)
    (clientsCount shaderUnitsCount : Nat) (responseFirst : Bool) {inputs : ShaderFrontendInputs}
    (hcompleted : inputs.inpCompleted = false) :
    (s.step clientsCount shaderUnitsCount responseFirst inputs).memory.address =
      s.memory.address := by
  obtain ⟨hrequest, hresponse⟩ := htracked
  unfold step
  cases responseFirst with
  | true =>
    rw [if_pos rfl]
    obtain ⟨-, hsame⟩ := stepResponse_leaves hresponse shaderUnitsCount inputs
    rw [stepRequest_address (hsame.awaiting.trans h) _ _ hcompleted, hsame.memory]
  | false =>
    rw [if_neg (by decide)]
    obtain ⟨-, -, hsame⟩ := stepRequest_spec hrequest clientsCount shaderUnitsCount inputs
    obtain ⟨-, hsame'⟩ := stepResponse_leaves (hsame.tracked hresponse) shaderUnitsCount inputs
    rw [hsame'.memory]
    exact stepRequest_address h _ _ hcompleted

end ShaderFrontendBlock

/-! ## What a reader is answered -/

namespace Gpu
variable {F : Type} {r : Run F} {n d : Nat}

/-- The ports of the blocks that only read. -/
def IsReader (i : Fin 4) : Prop := i = 0 ∨ i = 3

/-- The address that a reader shows while it waits is the one it has asked for last. -/
theorem asked_last (hidle : (r.state n).Idle r.config) {i : Fin 4} (hi : IsReader i)
    (hwaits : (r.state (n + d)).awaiting i = true) :
    ∃ earlier, r.asked n i d = earlier ++ [.read ((r.state (n + d)).memoryClients i).address] := by
  induction d with
  | zero =>
    have hfree := awaiting_eq_false hidle.primitiveAssembler hidle.blitter hidle.outputMerger
      hidle.shaderFrontend i
    rw [show (r.state (n + 0)).awaiting i = false from hfree] at hwaits
    cases hwaits
  | succ d ih =>
    have htracked := r.tracked (n + d)
    have hobeys : Obeys ((r.state (n + d)).memoryController.outCompleted i)
        ((r.state (n + d)).awaiting i) ((r.state (n + d + 1)).awaiting i)
        ((r.state (n + d + 1)).memoryClients i).enable :=
      obeys_step htracked r.alu r.env (n + d) i
    have hasked : r.asked n i (d + 1) =
        r.asked n i d ++ ((r.state (n + d + 1)).memoryClients i).issues := upTo_succ _ d
    unfold Obeys at hobeys
    split at hobeys
    · -- the access goes on
      next hgoes =>
      rw [Bool.and_eq_true, Bool.not_eq_true'] at hgoes
      obtain ⟨hwaited, hcompleted⟩ := hgoes
      obtain ⟨earlier, hlast⟩ := ih hwaited
      refine ⟨earlier, ?_⟩
      have haddress : ((r.state (n + d + 1)).memoryClients i).address =
          ((r.state (n + d)).memoryClients i).address := by
        rcases hi with rfl | rfl
        · rw [Run.state_succ]
          show ((r.state (n + d)).primitiveAssembler.step _ _
            ((r.state (n + d)).memoryController.outCompleted 0) _ _).memory.address = _
          rw [hcompleted]
          exact PrimitiveAssembler.step_address hwaited _ _ _ _
        · exact ShaderFrontendBlock.step_address htracked.shaderFrontend hwaited 2 2 _ hcompleted
      rw [hasked, issues_low hobeys.2, List.append_nil, hlast]
      exact congrArg (fun address => earlier ++ [MemoryOperation.read address]) haddress.symm
    · -- a new access
      have henable : ((r.state (n + d + 1)).memoryClients i).enable = true := hobeys ▸ hwaits
      have hwrite : ((r.state (n + d + 1)).memoryClients i).write = false := by
        have hreads := reads_after r (n + d + 1)
        rcases hi with rfl | rfl
        · exact hreads.primitiveAssembler
        · exact hreads.shaderFrontend
      refine ⟨r.asked n i d, ?_⟩
      rw [hasked, MemorySignals.issues, if_pos henable, MemorySignals.operation, hwrite]
      rfl

/-- Nothing that may be written from clock `n` on is read only. -/
def Run.ReadOnly (r : Run F) (n m : Nat) (address : MemoryAddressType) : Prop :=
  ¬ r.MayWrite n m address

/-- The memory holds what is read only. -/
def Run.Keeps (r : Run F) (n m : Nat) (memory : MemoryAddressType → MemoryDataType) : Prop :=
  ∀ address, r.ReadOnly n m address →
    memory address = initialMemory (r.state n).memory.rawMemory address

/-- All that is written is where a run may write. -/
theorem served_mayWrite {m : Nat} (hidle : (r.state n).Idle r.config)
    (hquiet : (r.state n).commandStreamer.Quiet) (hm : n + d ≤ m)
    {ms : MemorySystem 3 memorySize} {rawMemory : Fin memorySize → MemoryDataType}
    (hfollows : Follows r n rawMemory d ms) :
    ∀ x ∈ ms.served, ∀ address data, x.2 = .write address data → r.MayWrite n m address := by
  intro x hx address data hwrites
  obtain ⟨pending, -, -, -, hissued, -⟩ := hfollows.behind.inv.clients x.1
  have hasked : x.2 ∈ r.asked n x.1 d := by
    rw [← hfollows.issued, hissued]
    exact List.mem_append_left _ (mem_ofClient.mpr hx)
  unfold Run.asked upTo at hasked
  obtain ⟨e, he, hissues⟩ := List.mem_flatMap.mp hasked
  rw [List.mem_range] at he
  have hpermitted : ((r.state (n + e + 1)).memoryClients x.1).Permitted (r.MayWrite n m) := by
    have hconfined : (r.state (n + e + 1)).Confined r.floats (r.MayWrite n m) (r.Covered n m)
        r.config := confined_after hidle hquiet (by omega) (by omega)
    have hreads := reads_after r (n + e + 1)
    match x.1 with
    | 0 => exact MemorySignals.permitted_reading hreads.primitiveAssembler
    | 1 => exact hconfined.blitter.memory
    | 2 => exact hconfined.outputMerger.memory
    | 3 => exact MemorySignals.permitted_reading hreads.shaderFrontend
  rw [hwrites] at hissues
  unfold MemorySignals.issues MemorySignals.operation at hissues
  split at hissues
  · next henable =>
    rw [List.mem_singleton] at hissues
    split at hissues
    · next hwrite =>
      cases hissues
      exact hpermitted henable hwrite
    · cases hissues
  · cases hissues

/-- **A reader of data that is read only is answered what the memory held at the beginning.** -/
theorem answered_readOnly {m : Nat} (hidle : (r.state n).Idle r.config)
    (hquiet : (r.state n).commandStreamer.Quiet) (hm : n + d ≤ m)
    (hvalid : ∀ e < d, (r.state (n + e + 1)).AccessesValid) {i : Fin 4} (hi : IsReader i)
    (hreads : ∀ o ∈ r.asked n i d, r.ReadOnly n m o.address)
    (hcompleted : (r.state (n + d)).memoryController.outCompleted i = true) :
    (r.state (n + d)).memoryController.outData =
      initialMemory (r.state n).memory.rawMemory ((r.state (n + d)).memoryClients i).address := by
  obtain ⟨ms, hfollows⟩ := follows_after hidle hvalid
  have hwrites := served_mayWrite hidle hquiet hm hfollows
  obtain ⟨pending, coming, hat, -, hissued, hanswers⟩ := hfollows.behind.inv.clients i
  rw [← hfollows.behind.controller] at hcompleted ⊢
  -- what is read only keeps its value, and is all that the reader asks for
  have hkeeps : ∀ x ∈ ms.served, ∀ memory, r.Keeps n m memory →
      r.Keeps n m (atomicMemory memory x.2).1 := by
    intro x hx memory hmemory address haddress
    cases hop : x.2 with
    | read other => exact hmemory address haddress
    | write other data =>
      have hne : address ≠ other := by
        rintro rfl
        exact haddress (hwrites x hx address data hop)
      show Function.update memory other data address = _
      rw [Function.update_of_ne hne]
      exact hmemory address haddress
  have hreply : ∀ x ∈ ms.served, x.1 = i → ∀ memory, r.Keeps n m memory →
      (atomicMemory memory x.2).2 = initialMemory (r.state n).memory.rawMemory x.2.address := by
    rintro x hx rfl memory hmemory
    have hasked : x.2 ∈ r.asked n x.1 d := by
      rw [← hfollows.issued, hissued]
      exact List.mem_append_left _ (mem_ofClient.mpr hx)
    have haddress := hreads x.2 hasked
    cases hop : x.2 with
    | read other =>
      rw [hop] at haddress
      exact hmemory other haddress
    | write other data =>
      rw [hop] at haddress
      exact absurd (hwrites x hx other data hop) haddress
  have hresults := @ofClient_results _ _ _ _ _ atomicMemory i ms.served (r.Keeps n m)
    (fun o => initialMemory (r.state n).memory.rawMemory o.address) hkeeps hreply
    (initialMemory (r.state n).memory.rawMemory) fun _ _ => rfl
  rw [hresults] at hanswers
  cases hat with
  | idle _ _ _ hlow => rw [hcompleted] at hlow; cases hlow
  | pulsing _ _ _ hlow => rw [hcompleted] at hlow; cases hlow
  | queued _ _ _ hlow => rw [hcompleted] at hlow; cases hlow
  | performed _ _ _ hlow => rw [hcompleted] at hlow; cases hlow
  | answered hwaits =>
    rw [hfollows.behind.awaiting] at hwaits
    obtain ⟨earlier, hlast⟩ := asked_last hidle hi hwaits
    rw [List.append_nil] at hissued
    rw [← hissued, hfollows.issued, hlast, List.map_append] at hanswers
    have hsame := (List.append_inj' hanswers rfl).2
    exact (List.cons.inj hsame).1.symm

end Gpu

end PicoGpu
