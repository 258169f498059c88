import PicoGpu.ShaderFrontend

/- The ISA cache beside the memory that blits write. A program stays in the cache
   when its memory is written: nothing invalidates an entry. So the cache agrees with
   the memory for as long as no blit changes a program whose address is in it, and
   the first blit that does is followed by requests that run the old program. -/
namespace PicoGpu

/-! ## Blits -/

/-- The commands of the blitter that write, with what it reads of the user's memory. -/
inductive BlitterCommand where
  | copyToMem (memoryPtr : MemoryAddressType) (userData : List MemoryDataType)
  | fillMem (memoryPtr : MemoryAddressType) (userData : MemoryDataType) (sizeInDwords : Nat)
  deriving DecidableEq, Repr

/-- The writes of `Blitter::main`, dword by dword. -/
def BlitterCommand.writes : BlitterCommand → List MemoryOperation
  | copyToMem memoryPtr userData =>
    userData.mapIdx fun dwordIndex data => .write (dwordAddress memoryPtr dwordIndex) data
  | fillMem memoryPtr userData sizeInDwords =>
    (List.range sizeInDwords).map fun dwordIndex =>
      .write (dwordAddress memoryPtr dwordIndex) userData

/-- The memory when the last write is completed. -/
def BlitterCommand.perform (c : BlitterCommand) (memory : MemoryAddressType → MemoryDataType) :
    MemoryAddressType → MemoryDataType :=
  c.writes.foldl (fun memory operation => (atomicMemory memory operation).1) memory

/-! ## Runs -/

structure FrontendState where
  memory : MemoryAddressType → MemoryDataType
  cache : IsaCache

def FrontendState.initial (memory : MemoryAddressType → MemoryDataType) : FrontendState :=
  ⟨memory, IsaCache.new⟩

/-- A completed blit, or a request that the frontend handles. -/
inductive FrontendEvent where
  | blit (command : BlitterCommand)
  | request (request : ShaderFrontendRequest)

def FrontendEvent.step (s : FrontendState) : FrontendEvent → Except FatalError FrontendState
  | blit command => .ok { s with memory := command.perform s.memory }
  | request r => do
    let (_, cache) ← loadProgram s.memory s.cache r
    return { s with cache := cache }

def FrontendState.run (events : List FrontendEvent) (s : FrontendState) :
    Except FatalError FrontendState :=
  events.foldlM FrontendEvent.step s

/-! ## Programs in memory -/

def memoryDwords (memory : MemoryAddressType → MemoryDataType) (base : MemoryAddressType)
    (count : Nat) : List Dword :=
  (List.range count).map fun k => memory (dwordAddress base k)

/-- The program that the memory holds at an address: a header, and as many dwords as it counts. -/
def storedProgram (memory : MemoryAddressType → MemoryDataType) (isaAddress : MemoryAddressType) :
    List Dword :=
  memoryDwords memory isaAddress
    ((CommandStoreIsa.ofRaw fun k => memory (dwordAddress isaAddress k)).programLength.toNat +
      Isa.commandSizeInDwords)

/-- A program apart from `hasNextCommand`, which the frontend sets for itself. -/
def withoutNextCommand : List Dword → List Dword
  | [] => []
  | dword :: data => (dword &&& ~~~0b10) :: data

/-- The program that was sent is the one in memory. -/
def Coherent (memory : MemoryAddressType → MemoryDataType) (isaAddress : MemoryAddressType)
    (sent : List Dword) : Prop :=
  withoutNextCommand sent = withoutNextCommand (storedProgram memory isaAddress)

/-- Every entry of the cache can be found and is the program in memory. -/
structure Agrees (s : FrontendState) : Prop where
  order : Function.Surjective s.cache.lru
  entries : ∀ slot, (s.cache.entries slot).key ≠ invalidAddress →
    Coherent s.memory (s.cache.entries slot).key (s.cache.entries slot).value.data

/-- The blit leaves the programs as they are whose addresses are in the cache. -/
def BlitterCommand.KeepsCached (c : BlitterCommand) (s : FrontendState) : Prop :=
  ∀ slot, (s.cache.entries slot).key ≠ invalidAddress →
    withoutNextCommand (storedProgram (c.perform s.memory) (s.cache.entries slot).key) =
      withoutNextCommand (storedProgram s.memory (s.cache.entries slot).key)

/-- Every blit of the run leaves the cached programs as they are. -/
def KeepsCachedAlong : List FrontendEvent → FrontendState → Prop
  | [], _ => True
  | event :: events, s =>
    (∀ c, event = .blit c → c.KeepsCached s) ∧
      ∀ s', event.step s = .ok s' → KeepsCachedAlong events s'

/-! ## Loading -/

section
variable {memory : MemoryAddressType → MemoryDataType}

theorem memoryDwords_succ (base : MemoryAddressType) (count : Nat) :
    memoryDwords memory base (count + 1) =
      memoryDwords memory base count ++ [memory (dwordAddress base count)] := by
  simp [memoryDwords, List.range_succ]

theorem memoryDwords_length (base : MemoryAddressType) (count : Nat) :
    (memoryDwords memory base count).length = count := by
  simp [memoryDwords]

theorem loadIsa_ok {isaAddress : MemoryAddressType} (dwordsToLoad count : Nat) {data : List Dword}
    (h : loadIsa memory isaAddress dwordsToLoad (memoryDwords memory isaAddress count) =
      .ok data) : data = memoryDwords memory isaAddress (count + dwordsToLoad) := by
  induction dwordsToLoad generalizing count with
  | zero =>
    cases h
    rfl
  | succ dwordsToLoad ih =>
    simp only [loadIsa] at h
    split at h
    · exact nomatch h
    · rw [memoryDwords_length, ← memoryDwords_succ] at h
      rw [ih (count + 1) h, Nat.add_right_comm, Nat.add_assoc]

/-- The size of a program is in the first dword of its header. -/
theorem programLength_ofRaw {raw raw' : Nat → Dword} (h : raw 0 = raw' 0) :
    (CommandStoreIsa.ofRaw raw).programLength = (CommandStoreIsa.ofRaw raw').programLength := by
  simp only [CommandStoreIsa.ofRaw, h]

theorem withoutNextCommand_set (data : List Dword) :
    withoutNextCommand (setHasNextCommand data) = withoutNextCommand data := by
  cases data with
  | nil => rfl
  | cons dword data =>
    have hbits : (dword ||| 0b10) &&& ~~~0b10 = dword &&& ~~~0b10 := by
      apply BitVec.eq_of_getLsbD_eq
      intro i hi
      simp only [BitVec.getLsbD_and, BitVec.getLsbD_or, BitVec.getLsbD_not]
      cases BitVec.getLsbD (0b10 : Dword) i <;> simp
    simp only [setHasNextCommand, withoutNextCommand, hbits]

end

/-! ## What a request sends -/

/-- The entry that `getIsa` finds or makes is the program in memory. -/
theorem getIsa_ok {s : FrontendState} (hs : Agrees s) {isaAddress : MemoryAddressType}
    {slot : Fin 2} {cache : IsaCache} (h : getIsa s.memory s.cache isaAddress = .ok (slot, cache)) :
    (cache.entries slot).key = isaAddress ∧ Agrees { s with cache := cache } := by
  unfold getIsa at h
  split at h
  · next found hget =>
    cases h
    obtain ⟨hkey, hentries⟩ := EntryCache.get_some hget
    refine ⟨by rw [hentries]; exact hkey, EntryCache.get_surjective hs.order hget, fun other => ?_⟩
    show (cache.entries other).key ≠ _ → Coherent _ (cache.entries other).key _
    rw [hentries]
    exact hs.entries other
  · obtain ⟨header, h1, h⟩ := bind_ok.mp h
    obtain ⟨_, -, h⟩ := bind_ok.mp h
    obtain ⟨_, -, h⟩ := bind_ok.mp h
    obtain ⟨data, h2, h⟩ := bind_ok.mp h
    have hput : s.cache.put isaAddress ⟨data⟩ = (slot, cache) := Except.ok.inj h
    have hentries := EntryCache.put_entries hput
    have hheader : header = memoryDwords s.memory isaAddress (0 + 1) := loadIsa_ok 1 0 h1
    subst hheader
    have hdata := loadIsa_ok _ _ h2
    have hlength := @programLength_ofRaw
      (fun k => (memoryDwords s.memory isaAddress (0 + 1)).getD k 0)
      (fun k => s.memory (dwordAddress isaAddress k)) rfl
    have hstored : data = storedProgram s.memory isaAddress := by
      rw [hdata]
      unfold storedProgram
      rw [← hlength]
      congr 1
      simp only [IsaCacheEntry.getMetadata, Isa.commandSizeInDwords]
      omega
    have horder : Function.Surjective cache.lru := by
      cases hput
      exact EntryCache.promoteInLru_surjective hs.order _
    refine ⟨by rw [hentries, Function.update_self], horder, fun other => ?_⟩
    show (cache.entries other).key ≠ _ → Coherent _ (cache.entries other).key _
    rw [hentries]
    by_cases ho : other = slot
    · subst ho
      rw [Function.update_self]
      intro _
      show withoutNextCommand data = _
      rw [hstored]
    · rw [Function.update_of_ne ho]
      exact hs.entries other

/-- Setting the bit for the command that follows changes no program. -/
theorem storeIsa_agrees {s : FrontendState} (hs : Agrees s) (slot : Fin 2) :
    Agrees { s with cache := (storeIsa s.cache slot).2 } := by
  refine ⟨hs.order, fun other => ?_⟩
  show ((storeIsa s.cache slot).2.entries other).key ≠ _ →
    Coherent _ ((storeIsa s.cache slot).2.entries other).key _
  simp only [storeIsa, EntryCache.modify]
  by_cases ho : other = slot
  · subst ho
    rw [Function.update_self]
    intro hkey
    show withoutNextCommand (setHasNextCommand _) = _
    rw [withoutNextCommand_set]
    exact hs.entries other hkey
  · rw [Function.update_of_ne ho]
    exact hs.entries other

theorem loadProgram_ok {s : FrontendState} (hs : Agrees s) {r : ShaderFrontendRequest}
    {sent : Option (List Dword)} {cache : IsaCache}
    (h : loadProgram s.memory s.cache r = .ok (sent, cache)) :
    Agrees { s with cache := cache } ∧
      ∀ data, sent = some data → Coherent s.memory r.isaAddress data := by
  unfold loadProgram at h
  split at h
  · cases h
    exact ⟨hs, fun data hd => nomatch hd⟩
  · next hvalid =>
    obtain ⟨⟨slot, c1⟩, hget, h⟩ := bind_ok.mp h
    obtain ⟨_, -, h⟩ := bind_ok.mp h
    cases h
    obtain ⟨hkey, hc1⟩ := getIsa_ok hs hget
    refine ⟨storeIsa_agrees hc1 slot, fun data hd => ?_⟩
    cases hd
    have hentry : Coherent s.memory (c1.entries slot).key (c1.entries slot).value.data :=
      hc1.entries slot (by rw [hkey]; exact hvalid)
    rw [hkey] at hentry
    show withoutNextCommand (storeIsa c1 slot).1 = _
    simp only [storeIsa, EntryCache.modify, Function.update_self, withoutNextCommand_set]
    exact hentry

/-! ## Runs that leave the cached programs alone -/

theorem agrees_initial (memory : MemoryAddressType → MemoryDataType) :
    Agrees (FrontendState.initial memory) :=
  ⟨Function.surjective_id, fun _ h => absurd rfl h⟩

/-- A blit keeps the agreement exactly when it keeps the cached programs. -/
theorem agrees_blit_iff {s : FrontendState} (hs : Agrees s) (c : BlitterCommand) :
    Agrees { s with memory := c.perform s.memory } ↔ c.KeepsCached s := by
  constructor
  · intro h slot hkey
    exact (h.entries slot hkey).symm.trans (hs.entries slot hkey)
  · intro h
    refine ⟨hs.order, fun slot hkey => ?_⟩
    exact (hs.entries slot hkey).trans (h slot hkey).symm

theorem agrees_step {s s' : FrontendState} (hs : Agrees s) {event : FrontendEvent}
    (hkeeps : ∀ c, event = .blit c → c.KeepsCached s) (h : event.step s = .ok s') :
    Agrees s' := by
  cases event with
  | blit c =>
    cases h
    exact (agrees_blit_iff hs c).mpr (hkeeps c rfl)
  | request r =>
    obtain ⟨⟨sent, cache⟩, hload, h⟩ := bind_ok.mp h
    cases h
    exact (loadProgram_ok hs hload).1

theorem agrees_run (events : List FrontendEvent) {s s' : FrontendState} (hs : Agrees s)
    (hkeeps : KeepsCachedAlong events s) (h : FrontendState.run events s = .ok s') :
    Agrees s' := by
  induction events generalizing s with
  | nil =>
    cases h
    exact hs
  | cons event events ih =>
    unfold FrontendState.run at h
    rw [List.foldlM_cons] at h
    obtain ⟨s1, h1, h⟩ := bind_ok.mp h
    exact ih (agrees_step hs hkeeps.1 h1) (hkeeps.2 s1 h1) h

/-- A request with the sizes of a header, which it passes the checks against. -/
def requestFor (isaAddress : MemoryAddressType) (header : CommandStoreIsa) :
    ShaderFrontendRequest where
  isaAddress := isaAddress
  clientToken := 0
  threadCount := 0
  programType := .vertexShader
  inputsCount := header.inputsCount
  inputSize0 := header.inputs.size0
  inputSize1 := header.inputs.size1
  inputSize2 := header.inputs.size2
  outputsCount := header.outputsCount
  outputSize0 := header.outputs.size0
  outputSize1 := header.outputs.size1
  outputSize2 := header.outputs.size2
  uniformsCount := header.uniformsCount
  uniformSize0 := header.uniforms.size0
  uniformSize1 := header.uniforms.size1
  uniformSize2 := header.uniforms.size2

theorem validateRequest_requestFor (isaAddress : MemoryAddressType) (header : CommandStoreIsa) :
    validateRequest (requestFor isaAddress header) header = .ok () := by
  simp [validateRequest, requestFor, fatalErrorIf]

/-- A cached address can be requested, and the request sends the cached program. -/
theorem request_cached {s : FrontendState} {slot : Fin 2}
    (hvalid : (s.cache.entries slot).key ≠ invalidAddress) (hs : Agrees s)
    (memory : MemoryAddressType → MemoryDataType) :
    ∃ r sent cache, loadProgram memory s.cache r = .ok (some sent, cache) ∧
      r.isaAddress = (s.cache.entries slot).key ∧
      Coherent s.memory (s.cache.entries slot).key sent := by
  obtain ⟨⟨found, c1⟩, hget⟩ := EntryCache.get_isSome hs.order slot
  obtain ⟨hkey, hentries⟩ := EntryCache.get_some hget
  let r := requestFor (s.cache.entries slot).key (c1.entries found).value.getMetadata
  have hisa : getIsa memory s.cache r.isaAddress = .ok (found, c1) := by
    show getIsa memory s.cache (s.cache.entries slot).key = _
    rw [getIsa, hget]
  have hload : loadProgram memory s.cache r =
      .ok (some (storeIsa c1 found).1, (storeIsa c1 found).2) := by
    rw [loadProgram, if_neg (show r.isaAddress ≠ invalidAddress from hvalid), hisa, ok_bind]
    dsimp only
    rw [validateRequest_requestFor]
    rfl
  refine ⟨r, _, _, hload, rfl, ?_⟩
  show withoutNextCommand (storeIsa c1 found).1 = _
  simp only [storeIsa, EntryCache.modify, Function.update_self, withoutNextCommand_set]
  rw [hentries, ← hkey]
  exact hs.entries found (by rw [hkey]; exact hvalid)

/-- **As long as no blit changes a program whose address is in the cache, every request
    sends the program that the memory holds at that time; and after a blit that does
    change one, some request sends an old program.** -/
theorem isa_cache_coherent {memory : MemoryAddressType → MemoryDataType}
    {events : List FrontendEvent} {s : FrontendState}
    (h : FrontendState.run events (.initial memory) = .ok s)
    (hkeeps : KeepsCachedAlong events (.initial memory)) :
    (∀ r sent cache, loadProgram s.memory s.cache r = .ok (some sent, cache) →
      Coherent s.memory r.isaAddress sent) ∧
    ∀ c : BlitterCommand, ¬ c.KeepsCached s →
      ∃ r sent cache, loadProgram (c.perform s.memory) s.cache r = .ok (some sent, cache) ∧
        ¬ Coherent (c.perform s.memory) r.isaAddress sent := by
  have hs := agrees_run events (agrees_initial memory) hkeeps h
  refine ⟨fun r sent cache hload => (loadProgram_ok hs hload).2 sent rfl, fun c hc => ?_⟩
  simp only [BlitterCommand.KeepsCached, not_forall] at hc
  obtain ⟨slot, hvalid, hchanged⟩ := hc
  obtain ⟨r, sent, cache, hload, haddress, hsent⟩ :=
    request_cached hvalid hs (c.perform s.memory)
  refine ⟨r, sent, cache, hload, fun hcoherent => hchanged ?_⟩
  rw [haddress] at hcoherent
  exact hcoherent.symm.trans hsent

/-- A vertex shader with the one instruction `trap`, and a request for it. -/
def trapProgram : List Dword := [4, 0, 0, 31]

def trapRequest : ShaderFrontendRequest :=
  ⟨0, 0, 0, .vertexShader, 0, 0, 0, 0, 0, 0, 0, 0, 0, 0, 0, 0⟩

/-- The state after the program was copied to address 0 and requested. -/
def trapLoaded : FrontendState :=
  (FrontendState.run [.blit (.copyToMem 0 trapProgram), .request trapRequest]
    (.initial fun _ => 0)).toOption.getD (.initial fun _ => 0)

theorem isa_cache_coherent_trap :
    (∀ r sent cache, loadProgram trapLoaded.memory trapLoaded.cache r = .ok (some sent, cache) →
      Coherent trapLoaded.memory r.isaAddress sent) ∧
    ∀ c : BlitterCommand, ¬ c.KeepsCached trapLoaded →
      ∃ r sent cache,
        loadProgram (c.perform trapLoaded.memory) trapLoaded.cache r = .ok (some sent, cache) ∧
        ¬ Coherent (c.perform trapLoaded.memory) r.isaAddress sent := by
  have hrun : FrontendState.run [.blit (.copyToMem 0 trapProgram), .request trapRequest]
      (.initial fun _ => 0) = .ok trapLoaded := rfl
  refine isa_cache_coherent hrun ⟨fun c _ slot hkey => absurd rfl hkey, fun s1 _ => ⟨?_, ?_⟩⟩
  · exact fun c hc => nomatch hc
  · exact fun _ _ => trivial

/-- The address is written again while its program is cached: the next request still
    sends `trap` where the memory holds `lduni`. -/
theorem rewritten_program_stale : ∃ s,
    FrontendState.run [.blit (.copyToMem 0 trapProgram), .request trapRequest,
      .blit (.copyToMem 0 [4, 0, 0, 32])] (.initial fun _ => 0) = .ok s ∧
    (∃ cache, loadProgram s.memory s.cache trapRequest = .ok (some [6, 0, 0, 31], cache)) ∧
    storedProgram s.memory trapRequest.isaAddress = [4, 0, 0, 32] ∧
    ¬ Coherent s.memory trapRequest.isaAddress [6, 0, 0, 31] := by
  have hne : ([4, 0, 0, 31] : List Dword) ≠ [4, 0, 0, 32] := by decide
  exact ⟨_, rfl, ⟨_, rfl⟩, rfl, fun h => hne h⟩

end PicoGpu
