import PicoGpu.ParsedBinary
import PicoGpu.ShaderResults

/- Loading the binary of an accepted source from memory into a shader unit. The
   assembler bounds the dwords of a program, the frontend bounds the dwords of its
   header and its program, and both take the same bound: the longest programs that
   the assembler accepts do not fit into an entry of the ISA cache. -/
namespace PicoGpu

/-! ## Headers -/

/-- The first dword of a header has what `getIsa` checks. -/
theorem commandType_ofRaw {raw raw' : Nat → Dword} (h : raw 0 = raw' 0) :
    (CommandStoreIsa.ofRaw raw).commandType = (CommandStoreIsa.ofRaw raw').commandType := by
  simp only [CommandStoreIsa.ofRaw, h]

theorem ofRaw_congr {raw raw' : Nat → Dword} (h : ∀ k < Isa.commandSizeInDwords, raw k = raw' k) :
    CommandStoreIsa.ofRaw raw = CommandStoreIsa.ofRaw raw' := by
  simp only [CommandStoreIsa.ofRaw, h 0 (by decide), h 1 (by decide), h 2 (by decide)]

namespace PicoGpuBinary

theorem getData_length (b : PicoGpuBinary) :
    b.getData.length = Isa.commandSizeInDwords + b.code.length := by
  rw [getData, List.length_append, CommandStoreIsa.raw_length]

theorem getData_header (b : PicoGpuBinary) {k : Nat} (hk : k < Isa.commandSizeInDwords) :
    b.getData.getD k 0 = b.header.raw.getD k 0 := by
  rw [getData, List.getD_append _ _ _ _ (by rwa [CommandStoreIsa.raw_length])]

theorem getData_code (b : PicoGpuBinary) (j : Nat) :
    b.getData.getD (Isa.commandSizeInDwords + j) 0 = b.code.getD j 0 := by
  have hle : b.header.raw.length ≤ Isa.commandSizeInDwords + j := by
    rw [CommandStoreIsa.raw_length]
    exact Nat.le_add_right _ _
  rw [getData, List.getD_append_right _ _ _ _ hle, CommandStoreIsa.raw_length,
    Nat.add_sub_cancel_left]

/-- The header of the binary is the one its first dwords show. -/
theorem ofRaw_getData (b : PicoGpuBinary) :
    (CommandStoreIsa.ofRaw fun k => b.getData.getD k 0) = b.header := by
  rw [ofRaw_congr fun k hk => b.getData_header hk]
  exact CommandStoreIsa.ofRaw_raw b.header

end PicoGpuBinary

/-! ## The loop of `getIsa` -/

section
variable {memory : MemoryAddressType → MemoryDataType} {isaAddress : MemoryAddressType}

theorem loadIsa_fits (dwordsToLoad count : Nat) (h : count + dwordsToLoad ≤ Isa.maxIsaSize) :
    loadIsa memory isaAddress dwordsToLoad (memoryDwords memory isaAddress count) =
      .ok (memoryDwords memory isaAddress (count + dwordsToLoad)) := by
  induction dwordsToLoad generalizing count with
  | zero => rfl
  | succ dwordsToLoad ih =>
    have hroom : ¬ (memoryDwords memory isaAddress count).length ≥ Isa.maxIsaSize := by
      rw [memoryDwords_length]
      omega
    rw [loadIsa, if_neg hroom, memoryDwords_length, ← memoryDwords_succ, ih (count + 1) (by omega),
      Nat.add_right_comm, Nat.add_assoc]

theorem loadIsa_too_big (dwordsToLoad count : Nat) (hcount : count ≤ Isa.maxIsaSize)
    (h : Isa.maxIsaSize < count + dwordsToLoad) :
    loadIsa memory isaAddress dwordsToLoad (memoryDwords memory isaAddress count) =
      .error "Too big ISA to fit in cache" := by
  induction dwordsToLoad generalizing count with
  | zero => omega
  | succ dwordsToLoad ih =>
    rw [loadIsa, memoryDwords_length]
    split
    · rfl
    · next hroom =>
      rw [← memoryDwords_succ]
      exact ih (count + 1) (by omega) (by omega)

end

/-! ## Programs in units -/

section
variable {V : Type}

/-- The unit has the header, apart from `hasNextCommand`, and the program of a binary. -/
structure ShaderUnit.HoldsBinary (u : ShaderUnit V) (b : PicoGpuBinary) : Prop where
  isaMetadata : { u.isaMetadata with hasNextCommand := b.header.hasNextCommand } = b.header
  isa : (List.range u.isaMetadata.programLength.toNat).map u.isa = b.code

/-- So has a list of dwords. -/
structure ShowsBinary (data : List Dword) (b : PicoGpuBinary) : Prop where
  header : { (CommandStoreIsa.ofRaw fun k => data.getD k 0) with
    hasNextCommand := b.header.hasNextCommand } = b.header
  code : (List.range (CommandStoreIsa.ofRaw fun k => data.getD k 0).programLength.toNat).map
    (fun j => data.getD (Isa.commandSizeInDwords + j) 0) = b.code

/-- `getIsa` completes, and a unit that stores what `storeIsa` sends has the binary. -/
def Loads (memory : MemoryAddressType → MemoryDataType) (cache : IsaCache)
    (isaAddress : MemoryAddressType) (b : PicoGpuBinary) (u : ShaderUnit V) : Prop :=
  ∃ slot cache', getIsa memory cache isaAddress = .ok (slot, cache') ∧
    (u.processStoreIsaCommand (storeIsa cache' slot).1).HoldsBinary b

theorem setHasNextCommand_code (data : List Dword) (j : Nat) :
    (setHasNextCommand data).getD (Isa.commandSizeInDwords + j) 0 =
      data.getD (Isa.commandSizeInDwords + j) 0 := by
  have hsucc : Isa.commandSizeInDwords + j = 2 + j + 1 := by
    rw [Isa.commandSizeInDwords]
    omega
  rw [hsucc]
  cases data with
  | nil => rfl
  | cons dword data => rfl

/-- The unit has what the entry shows. -/
theorem holdsBinary_store {data : List Dword} {b : PicoGpuBinary} (u : ShaderUnit V) :
    (u.processStoreIsaCommand (setHasNextCommand data)).HoldsBinary b ↔ ShowsBinary data b := by
  have hheader := ofRaw_withoutNextCommand (withoutNextCommand_set data)
  have hmetadata : (u.processStoreIsaCommand (setHasNextCommand data)).isaMetadata =
      CommandStoreIsa.ofRaw fun k => (setHasNextCommand data).getD k 0 := rfl
  have hlength : (CommandStoreIsa.ofRaw fun k =>
      (setHasNextCommand data).getD k 0).programLength =
        (CommandStoreIsa.ofRaw fun k => data.getD k 0).programLength := by
    rw [hheader]
  have hisa : (List.range (CommandStoreIsa.ofRaw fun k =>
        data.getD k 0).programLength.toNat).map
          (u.processStoreIsaCommand (setHasNextCommand data)).isa =
      (List.range (CommandStoreIsa.ofRaw fun k => data.getD k 0).programLength.toNat).map
        (fun j => data.getD (Isa.commandSizeInDwords + j) 0) := by
    apply List.map_congr_left
    intro j hj
    show (if j < (CommandStoreIsa.ofRaw fun k =>
      (setHasNextCommand data).getD k 0).programLength.toNat then _ else _) = _
    rw [hlength, if_pos (List.mem_range.mp hj), setHasNextCommand_code]
  constructor
  · rintro ⟨hstored, hcode⟩
    rw [hmetadata] at hstored hcode
    rw [hlength, hisa] at hcode
    rw [hheader] at hstored
    exact ⟨hstored, hcode⟩
  · rintro ⟨hshown, hcode⟩
    refine ⟨?_, ?_⟩
    · rw [hmetadata, hheader]
      exact hshown
    · rw [hmetadata, hlength, hisa]
      exact hcode

theorem storeIsa_data (cache : IsaCache) (slot : Fin 2) :
    (storeIsa cache slot).1 = setHasNextCommand (cache.entries slot).value.data := by
  simp only [storeIsa, EntryCache.modify, Function.update_self]

/-! ## Loading -/

/-- The memory has the binary at an address. -/
def PlacedAt (memory : MemoryAddressType → MemoryDataType) (isaAddress : MemoryAddressType)
    (b : PicoGpuBinary) : Prop :=
  memoryDwords memory isaAddress b.getData.length = b.getData

theorem PlacedAt.first {memory : MemoryAddressType → MemoryDataType}
    {isaAddress : MemoryAddressType} {b : PicoGpuBinary} (h : PlacedAt memory isaAddress b) :
    memory (dwordAddress isaAddress 0) = b.getData.getD 0 0 := by
  have hpos : 0 < b.getData.length := by
    rw [b.getData_length, Isa.commandSizeInDwords]
    omega
  rw [← h, List.getD_eq_getElem _ _ (by rwa [memoryDwords_length])]
  simp [memoryDwords]

/-- What the header says in its first dword is what `getIsa` reads first. -/
theorem firstDword_metadata {memory : MemoryAddressType → MemoryDataType}
    {isaAddress : MemoryAddressType} {b : PicoGpuBinary} (h : PlacedAt memory isaAddress b) :
    (IsaCacheEntry.mk (memoryDwords memory isaAddress 1)).getMetadata.commandType =
        b.header.commandType ∧
      (IsaCacheEntry.mk (memoryDwords memory isaAddress 1)).getMetadata.programLength =
        b.header.programLength := by
  have hfirst : (memoryDwords memory isaAddress 1).getD 0 0 = b.getData.getD 0 0 := h.first
  rw [← b.ofRaw_getData]
  exact ⟨commandType_ofRaw hfirst, programLength_ofRaw hfirst⟩

/-- A binary that is not in the cache is loaded if header and program fit into an entry. -/
theorem getIsa_missing {memory : MemoryAddressType → MemoryDataType} {cache : IsaCache}
    {isaAddress : MemoryAddressType} {program : List Instruction} {b : PicoGpuBinary}
    (hb : Parsed program b) (hplaced : PlacedAt memory isaAddress b)
    (hmissing : cache.get isaAddress = none) :
    getIsa memory cache isaAddress =
      if b.code.length + Isa.commandSizeInDwords ≤ Isa.maxIsaSize then
        .ok (cache.put isaAddress ⟨b.getData⟩)
      else .error "Too big ISA to fit in cache" := by
  obtain ⟨hcommand, hlength⟩ := firstDword_metadata hplaced
  have hheader : loadIsa memory isaAddress 1 [] = .ok (memoryDwords memory isaAddress 1) :=
    loadIsa_fits 1 0 (by decide)
  have htype : decide (CommandType.storeIsa ≠ .storeIsa) = false := by decide
  have hnonzero : decide (b.header.programLength = 0) = false := by
    rw [decide_eq_false_iff_not]
    intro hzero
    have hpos := hb.nonempty
    rw [← hb.programLength, hzero] at hpos
    exact absurd hpos (by decide)
  -- the first dword has been read when the length is known
  have hcount : 1 + (b.code.length + Isa.commandSizeInDwords - 1) = b.getData.length := by
    rw [b.getData_length, Isa.commandSizeInDwords]
    omega
  unfold getIsa
  rw [hmissing]
  dsimp only
  rw [hheader, ok_bind, hcommand, hlength, hb.accepted.commandType, htype, hnonzero,
    hb.programLength]
  split
  · next hfits =>
    have hload : loadIsa memory isaAddress (b.code.length + Isa.commandSizeInDwords - 1)
        (memoryDwords memory isaAddress 1) = .ok b.getData := by
      rw [loadIsa_fits _ _ (by rw [Isa.commandSizeInDwords] at hfits ⊢; omega), hcount, hplaced]
    simp only [fatalErrorIf, Bool.false_eq_true, if_false, ok_bind, hload]
    rfl
  -- the loop stops when the slot is full
  · next htoo =>
    have hload : loadIsa memory isaAddress (b.code.length + Isa.commandSizeInDwords - 1)
        (memoryDwords memory isaAddress 1) = .error "Too big ISA to fit in cache" :=
      loadIsa_too_big _ _ (by decide) (by rw [Isa.commandSizeInDwords] at htoo ⊢; omega)
    simp only [fatalErrorIf, Bool.false_eq_true, if_false, ok_bind, hload]
    rfl

/-- The dwords of the binary show it. -/
theorem showsBinary_getData {program : List Instruction} {b : PicoGpuBinary}
    (hb : Parsed program b) : ShowsBinary b.getData b := by
  refine ⟨by rw [b.ofRaw_getData], ?_⟩
  rw [b.ofRaw_getData, hb.programLength]
  apply List.ext_getElem
  · rw [List.length_map, List.length_range]
  · intro j hj hj'
    rw [List.getElem_map, List.getElem_range, b.getData_code, List.getD_eq_getElem _ _ hj']

/-- What the cache has at the address shows the binary; if it has nothing there, header
    and program fit into an entry. -/
def Loadable (cache : IsaCache) (isaAddress : MemoryAddressType) (b : PicoGpuBinary) : Prop :=
  match cache.get isaAddress with
  | some (slot, _) => ShowsBinary (cache.entries slot).value.data b
  | none => b.code.length + Isa.commandSizeInDwords ≤ Isa.maxIsaSize

/-- **An accepted source in memory is loaded into a unit exactly when its program and
    the header have at most `maxIsaSize` dwords, or it is in the cache already.** -/
theorem loads_iff {p : Program} {b : PicoGpuBinary} (h : p.parse .new = .ok b)
    {memory : MemoryAddressType → MemoryDataType} {isaAddress : MemoryAddressType}
    (hplaced : PlacedAt memory isaAddress b) (cache : IsaCache) (u : ShaderUnit V) :
    Loads memory cache isaAddress b u ↔ Loadable cache isaAddress b := by
  obtain ⟨program, hb⟩ := Program.parse_parsed h
  unfold Loads Loadable
  cases hget : cache.get isaAddress with
  | some found =>
    obtain ⟨slot, cache'⟩ := found
    obtain ⟨-, hentries⟩ := EntryCache.get_some hget
    have hisa : getIsa memory cache isaAddress = .ok (slot, cache') := by
      rw [getIsa, hget]
    have hstored : (u.processStoreIsaCommand (storeIsa cache' slot).1).HoldsBinary b ↔
        ShowsBinary (cache.entries slot).value.data b := by
      rw [storeIsa_data, holdsBinary_store, hentries]
    rw [hisa]
    constructor
    · rintro ⟨slot', cache'', hsame, hholds⟩
      cases hsame
      exact hstored.mp hholds
    · intro hshows
      exact ⟨slot, cache', rfl, hstored.mpr hshows⟩
  | none =>
    rw [getIsa_missing hb hplaced hget]
    split
    · next hfits =>
      cases hput : cache.put isaAddress ⟨b.getData⟩ with
      | mk slot cache' =>
        have hholds : (u.processStoreIsaCommand (storeIsa cache' slot).1).HoldsBinary b := by
          rw [storeIsa_data, holdsBinary_store, EntryCache.put_entries hput, Function.update_self]
          exact showsBinary_getData hb
        exact ⟨fun _ => hfits, fun _ => ⟨slot, cache', rfl, hholds⟩⟩
    · next htoo =>
      refine ⟨?_, fun hfits => absurd hfits htoo⟩
      rintro ⟨slot, cache', herror, -⟩
      cases herror

end

/-! ## Runs -/

/-- No entry is larger than the buffer that `getIsa` fills. -/
def Sized (cache : IsaCache) : Prop :=
  ∀ slot, (cache.entries slot).value.data.length ≤ Isa.maxIsaSize

theorem sized_getIsa {memory : MemoryAddressType → MemoryDataType} {cache cache' : IsaCache}
    (hcache : Sized cache) {isaAddress : MemoryAddressType} {slot : Fin 2}
    (h : getIsa memory cache isaAddress = .ok (slot, cache')) : Sized cache' := by
  unfold getIsa at h
  split at h
  · next found hget =>
    cases h
    intro other
    rw [(EntryCache.get_some hget).2]
    exact hcache other
  · obtain ⟨header, h1, h⟩ := bind_ok.mp h
    obtain ⟨_, -, h⟩ := bind_ok.mp h
    obtain ⟨_, -, h⟩ := bind_ok.mp h
    obtain ⟨data, h2, h⟩ := bind_ok.mp h
    have hput : cache.put isaAddress ⟨data⟩ = (slot, cache') := Except.ok.inj h
    have hheader : header = memoryDwords memory isaAddress (0 + 1) := loadIsa_ok 1 0 h1
    subst hheader
    have hlength : data.length ≤ Isa.maxIsaSize := by
      by_contra htoo
      rw [loadIsa_ok _ _ h2, memoryDwords_length] at htoo
      rw [loadIsa_too_big _ _ (by decide) (Nat.lt_of_not_le htoo)] at h2
      exact nomatch h2
    intro other
    rw [EntryCache.put_entries hput]
    by_cases ho : other = slot
    · subst ho
      rw [Function.update_self]
      exact hlength
    · rw [Function.update_of_ne ho]
      exact hcache other

theorem sized_storeIsa {cache : IsaCache} (hcache : Sized cache) (slot : Fin 2) :
    Sized (storeIsa cache slot).2 := by
  have hlength : ∀ data, (setHasNextCommand data).length = data.length := by
    intro data
    cases data <;> rfl
  intro other
  simp only [storeIsa, EntryCache.modify]
  by_cases ho : other = slot
  · subst ho
    rw [Function.update_self, hlength]
    exact hcache other
  · rw [Function.update_of_ne ho]
    exact hcache other

theorem sized_step {s s' : FrontendState} (hs : Sized s.cache) {event : FrontendEvent}
    (h : event.step s = .ok s') : Sized s'.cache := by
  cases event with
  | blit c =>
    cases h
    exact hs
  | request r =>
    obtain ⟨⟨sent, cache⟩, hload, h⟩ := bind_ok.mp h
    cases h
    unfold loadProgram at hload
    split at hload
    · cases hload
      exact hs
    · obtain ⟨⟨slot, c1⟩, hget, hload⟩ := bind_ok.mp hload
      obtain ⟨_, -, hload⟩ := bind_ok.mp hload
      cases hload
      exact sized_storeIsa (sized_getIsa hs hget) slot

theorem sized_run (events : List FrontendEvent) {s s' : FrontendState} (hs : Sized s.cache)
    (h : FrontendState.run events s = .ok s') : Sized s'.cache :=
  @foldlM_inv _ _ _ _ (fun _ s => Sized s.cache) (fun hs h => sized_step hs h) events [] s s' hs h

theorem PlacedAt.storedProgram {memory : MemoryAddressType → MemoryDataType}
    {isaAddress : MemoryAddressType} {program : List Instruction} {b : PicoGpuBinary}
    (h : PlacedAt memory isaAddress b) (hb : Parsed program b) :
    storedProgram memory isaAddress = b.getData := by
  have hlength : (CommandStoreIsa.ofRaw fun k =>
      memory (dwordAddress isaAddress k)).programLength = b.header.programLength := by
    rw [← b.ofRaw_getData]
    exact programLength_ofRaw h.first
  rw [PicoGpu.storedProgram, hlength, hb.programLength, Nat.add_comm, ← b.getData_length]
  exact h

/-- As long as no blit changes a program in the cache, an entry for the address has the
    binary, so that only the size decides. -/
theorem loadable_iff {p : Program} {b : PicoGpuBinary} (h : p.parse .new = .ok b)
    {memory : MemoryAddressType → MemoryDataType} {events : List FrontendEvent} {s : FrontendState}
    (hrun : FrontendState.run events (.initial memory) = .ok s)
    (hkeeps : KeepsCachedAlong events (.initial memory)) {isaAddress : MemoryAddressType}
    (hvalid : isaAddress ≠ invalidAddress) (hplaced : PlacedAt s.memory isaAddress b) :
    Loadable s.cache isaAddress b ↔
      b.code.length + Isa.commandSizeInDwords ≤ Isa.maxIsaSize := by
  obtain ⟨program, hb⟩ := Program.parse_parsed h
  have hs := agrees_run events (agrees_initial memory) hkeeps hrun
  have hsized := sized_run events (fun _ => Nat.zero_le _) hrun
  unfold Loadable
  cases hget : s.cache.get isaAddress with
  | none => exact Iff.rfl
  | some found =>
    obtain ⟨slot, cache'⟩ := found
    obtain ⟨hkey, -⟩ := EntryCache.get_some hget
    -- the entry agrees with the memory but for the bit that `storeIsa` sets
    have hcoherent := hs.entries slot (by rw [hkey]; exact hvalid)
    rw [hkey, Coherent, hplaced.storedProgram hb] at hcoherent
    have hlength := congrArg List.length hcoherent
    rw [withoutNextCommand_length, withoutNextCommand_length, b.getData_length] at hlength
    have hheader := ofRaw_withoutNextCommand hcoherent
    rw [b.ofRaw_getData] at hheader
    -- that bit is in the first dword, so the instructions are the same
    have hcode : ∀ j, (s.cache.entries slot).value.data.getD (Isa.commandSizeInDwords + j) 0 =
        b.getData.getD (Isa.commandSizeInDwords + j) 0 := by
      intro j
      match hdata : (s.cache.entries slot).value.data, hbinary : b.getData with
      | [], [] => rfl
      | dword :: data, dword' :: data' =>
        rw [hdata, hbinary] at hcoherent
        obtain ⟨-, rfl⟩ := List.cons.inj hcoherent
        rw [Isa.commandSizeInDwords, show 3 + j = 2 + j + 1 by omega]
        rfl
      | [], _ :: _ | _ :: _, [] =>
        rw [hdata, hbinary] at hcoherent
        cases hcoherent
    obtain ⟨-, hshown⟩ := showsBinary_getData hb
    rw [b.ofRaw_getData] at hshown
    refine ⟨fun _ => ?_, fun _ => ⟨?_, ?_⟩⟩
    -- a program that was cached was small enough
    · have hle := hsized slot
      omega
    · rw [hheader]
    · rw [hheader]
      simp only [hcode]
      exact hshown

/-! ## The longest programs -/

/-- A memory with the dwords of a binary from address 0 on. -/
def memoryOf (b : PicoGpuBinary) : MemoryAddressType → MemoryDataType :=
  fun address => b.getData.getD (address.toNat / 4) 0

theorem placedAt_memoryOf {b : PicoGpuBinary} (hb : b.code.length < Isa.maxIsaSize) :
    PlacedAt (memoryOf b) 0 b := by
  rw [Isa.maxIsaSize] at hb
  have hlength := b.getData_length
  rw [Isa.commandSizeInDwords] at hlength
  apply List.ext_getElem
  · rw [memoryDwords_length]
  · intro k hk hk'
    have haddress : (dwordAddress 0 k).toNat / 4 = k := by
      rw [dwordAddress, show (0 : MemoryAddressType) = 0#32 from rfl, BitVec.zero_add,
        BitVec.toNat_ofNat, Nat.mod_eq_of_lt (by omega)]
      omega
    simp only [memoryDwords, List.getElem_map, List.getElem_range, memoryOf, haddress]
    exact List.getD_eq_getElem _ _ hk'

theorem loads_one_instruction :
    Loads (memoryOf (parsedBinary .trap)) IsaCache.new 0 (parsedBinary .trap) (binaryUnit .new) :=
  (@loads_iff _ (oneInstruction .trap) (parsedBinary .trap) rfl _ 0
    (placedAt_memoryOf (by decide)) IsaCache.new (binaryUnit .new)).mpr
    (show (parsedBinary .trap).code.length + 3 ≤ 512 by decide)

/-- A vertex shader of many instructions. -/
def traps (count : Nat) : Program where
  directives := (oneInstruction .trap).directives
  instructions := List.replicate (count + 1) .trap
  directives_ne := (oneInstruction .trap).directives_ne
  instructions_ne := by simp

/-- Lines are accepted as long as there is space for them. -/
theorem encode_traps (count : Nat) (b : PicoGpuBinary)
    (h : b.code.length + count < Isa.maxIsaSize) :
    (List.replicate count SourceInstruction.trap).foldlM (fun b s => s.action b) b =
      .ok { b with code := b.code ++ List.replicate count 31 } := by
  induction count generalizing b with
  | zero =>
    show Except.ok b = _
    rw [List.replicate_zero, List.append_nil]
  | succ count ih =>
    have hroom : ¬ b.getData.length + 1 - Isa.commandSizeInDwords ≥ Isa.maxIsaSize := by
      rw [b.getData_length]
      omega
    have hstep : SourceInstruction.trap.action b = .ok { b with code := b.code ++ [31] } := by
      show calling (b.append [31]) = _
      rw [PicoGpuBinary.append, List.length_singleton, if_neg hroom]
      rfl
    have hroom' : (b.code ++ [31]).length + count < Isa.maxIsaSize := by
      rw [List.length_append, List.length_singleton]
      omega
    rw [List.replicate_succ, List.foldlM_cons, hstep]
    exact (ih { b with code := b.code ++ [31] } hroom').trans
      (by rw [List.append_assoc, List.singleton_append, List.replicate_succ])

/-- The binary of such a shader. -/
def trapsBinary (count : Nat) : PicoGpuBinary :=
  ((traps count).parse .new).toOption.getD .new

/-- The end of a vertex shader only counts its dwords. -/
theorem finalize_vertex {b : PicoGpuBinary} (htype : b.programType = some .vertexShader)
    (hclean : b.error = "") :
    ∃ b', (calling b.finalizeInstructions >>= validateBinary) = .ok b' ∧ b'.code = b.code := by
  obtain ⟨b', hb', hcode, herror⟩ : ∃ b' : PicoGpuBinary,
      b.finalizeInstructions = .ok b' ∧ b'.code = b.code ∧ b'.error = b.error := by
    rw [PicoGpuBinary.finalizeInstructions, htype]
    exact ⟨_, rfl, rfl, rfl⟩
  refine ⟨b', ?_, hcode⟩
  rw [hb']
  show validateBinary b' = _
  rw [validateBinary, PicoGpuBinary.hasError, herror, hclean]
  rfl

theorem parse_traps {count : Nat} (h : count + 3 < Isa.maxIsaSize) :
    (traps count).parse .new = .ok (trapsBinary count) ∧
      (trapsBinary count).code.length = count + 3 := by
  obtain ⟨b, hb, htype, hclean, hlength⟩ : ∃ b : PicoGpuBinary,
      (traps count).parseDirectives .new = .ok b ∧ b.programType = some .vertexShader ∧
        b.error = "" ∧ b.code.length = 2 := ⟨_, rfl, rfl, rfl, rfl⟩
  have hlines := encode_traps (count + 1) b (by omega)
  obtain ⟨b', hb', hcode⟩ := @finalize_vertex
    { b with code := b.code ++ List.replicate (count + 1) 31 } htype hclean
  have hparse : (traps count).parse .new = .ok b' := by
    show ((traps count).parseDirectives .new >>= _) = _
    rw [hb]
    show (List.foldlM (fun b s => SourceInstruction.action s b) b
      (List.replicate (count + 1) .trap) >>= _) = _
    rw [hlines]
    exact hb'
  have hbinary : trapsBinary count = b' := by
    rw [trapsBinary, hparse]
    rfl
  rw [hbinary]
  refine ⟨hparse, ?_⟩
  rw [hcode, List.length_append, List.length_replicate, hlength]
  omega

/-- A program of 510 dwords is accepted, and does not fit into an entry with its header. -/
theorem accepted_program_too_big :
    (traps 507).parse .new = .ok (trapsBinary 507) ∧
      PlacedAt (memoryOf (trapsBinary 507)) 0 (trapsBinary 507) ∧
      getIsa (memoryOf (trapsBinary 507)) IsaCache.new 0 = .error "Too big ISA to fit in cache" ∧
      ∀ u : ShaderUnit Dword,
        ¬ Loads (memoryOf (trapsBinary 507)) IsaCache.new 0 (trapsBinary 507) u := by
  obtain ⟨hparse, hlength⟩ := @parse_traps 507 (by decide)
  obtain ⟨program, hb⟩ := Program.parse_parsed hparse
  have hplaced := placedAt_memoryOf hb.fits
  have hget : getIsa (memoryOf (trapsBinary 507)) IsaCache.new 0 =
      .error "Too big ISA to fit in cache" := by
    rw [getIsa_missing hb hplaced rfl, hlength]
    rfl
  refine ⟨hparse, hplaced, hget, ?_⟩
  rintro u ⟨slot, cache, hloaded, -⟩
  rw [hget] at hloaded
  exact nomatch hloaded

end PicoGpu
