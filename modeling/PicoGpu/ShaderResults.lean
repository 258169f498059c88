import PicoGpu.ShaderArray

/- What the results of a request are. The frontend sends a unit the program that the
   memory holds, with the bit for the next command set, and checks its header against
   the request; the unit sends as many dwords as the frontend reads. For a complete
   program they depend on the request alone, not on what the unit ran before. -/
namespace PicoGpu

/-! ## The program in a unit -/

/-- The header is the same up to `hasNextCommand` where the program is. -/
theorem ofRaw_withoutNextCommand {data data' : List Dword}
    (h : withoutNextCommand data = withoutNextCommand data') :
    (CommandStoreIsa.ofRaw fun k => data.getD k 0) =
      { (CommandStoreIsa.ofRaw fun k => data'.getD k 0) with
        hasNextCommand := (CommandStoreIsa.ofRaw fun k => data.getD k 0).hasNextCommand } := by
  match data, data', h with
  | [], [], _ => rfl
  | dword :: data, dword' :: data', h =>
    obtain ⟨hdword, rfl⟩ : dword &&& ~~~0b10 = dword' &&& ~~~0b10 ∧ data = data' :=
      List.cons.inj h
    have hbit : ∀ i, i ≠ 1 → dword.getLsbD i = dword'.getLsbD i := by
      intro i hi
      by_cases hlt : i < 32
      · have hmask : BitVec.getLsbD (0b10 : Dword) i = false := by
          match i, hi with
          | 0, _ => rfl
          | i + 2, _ => simp [BitVec.getLsbD, Nat.testBit_succ]
        have hget := congrArg (fun d : Dword => d.getLsbD i) hdword
        simpa only [BitVec.getLsbD_and, BitVec.getLsbD_not, hmask, hlt, decide_true,
          Bool.not_false, Bool.and_true] using hget
      · rw [BitVec.getLsbD_of_ge _ _ (by omega), BitVec.getLsbD_of_ge _ _ (by omega)]
    have hlow : dword.toNat % 2 = dword'.toNat % 2 := by
      have h0 : dword.toNat.testBit 0 = dword'.toNat.testBit 0 := hbit 0 (by decide)
      rw [Nat.testBit_zero, Nat.testBit_zero, decide_eq_decide] at h0
      omega
    have hhigh : dword.toNat / 2 / 2 = dword'.toNat / 2 / 2 := by
      apply Nat.eq_of_testBit_eq
      intro i
      rw [Nat.testBit_div_two, Nat.testBit_div_two, Nat.testBit_div_two, Nat.testBit_div_two]
      exact hbit _ (by omega)
    simp only [CommandStoreIsa.ofRaw, BitFields.unpack, List.getD_cons_zero, List.getD_cons_succ,
      Nat.pow_one, hlow, hhigh]

theorem hasNextCommand_set {data : List Dword} (h : data ≠ []) :
    (CommandStoreIsa.ofRaw fun k => (setHasNextCommand data).getD k 0).hasNextCommand = 1 := by
  match data, h with
  | dword :: data, _ =>
    have hbit : (dword ||| 0b10).toNat.testBit 1 = true := by
      rw [BitVec.toNat_or, Nat.testBit_or]
      simp [Nat.testBit_succ]
    have hfield : (dword ||| 0b10).toNat / 2 % 2 = 1 := by
      rw [Nat.testBit_succ, Nat.testBit_zero, decide_eq_true_eq] at hbit
      exact hbit
    simp only [CommandStoreIsa.ofRaw, BitFields.unpack, setHasNextCommand, List.getD_cons_zero,
      List.getD_cons_succ, Nat.pow_one, hfield]
    rfl

theorem fatalErrorIf_bind {α : Type} {condition : Bool} {error : FatalError}
    {f : Unit → Except FatalError α} {a : α} :
    (fatalErrorIf condition error >>= f) = .ok a ↔ condition = false ∧ f () = .ok a := by
  cases condition with
  | false => exact ⟨fun h => ⟨rfl, h⟩, fun h => h.2⟩
  | true => exact ⟨fun h => (nomatch h), fun h => (nomatch h.1)⟩

/-- What the frontend reads of the results of a request is what the header says. -/
theorem validateRequest_outputs {request : ShaderFrontendRequest} {command : CommandStoreIsa}
    (h : validateRequest request command = .ok ()) :
    componentsOf (nonZeroCountToInt command.outputsCount) command.outputs.size0
        command.outputs.size1 command.outputs.size2 * nonZeroCountToInt request.threadCount =
      calculateShaderOutputsCount request := by
  have houtputs : command.outputsCount = request.outputsCount ∧
      command.outputs.size0 = request.outputSize0 ∧
      (nonZeroCountToInt command.outputsCount > 1 →
        command.outputs.size1 = request.outputSize1) ∧
      (nonZeroCountToInt command.outputsCount > 2 →
        command.outputs.size2 = request.outputSize2) := by
    obtain ⟨-, h⟩ := fatalErrorIf_bind.mp h
    split at h <;>
      simp only [fatalErrorIf_bind, Bool.and_eq_false_iff, decide_eq_false_iff_not, not_not] at h
    · obtain ⟨-, -, -, -, hcount, h0, h1, h2, -⟩ := h
      exact ⟨hcount, h0, fun hc => h1.resolve_left fun hn => hn hc,
        fun hc => h2.resolve_left fun hn => hn hc⟩
    · obtain ⟨-, -, -, hcount, h0, h1, h2, -⟩ := h
      exact ⟨hcount, h0, fun hc => h1.resolve_left fun hn => hn hc,
        fun hc => h2.resolve_left fun hn => hn hc⟩
  obtain ⟨hcount, h0, h1, h2⟩ := houtputs
  unfold calculateShaderOutputsCount componentsOf
  rw [← hcount, h0]
  congr 2
  · congr 1
    split
    · next hc => rw [h1 hc]
    · rfl
  · split
    · next hc => rw [h2 hc]
    · rfl

/-- A program on its way to a unit: the one in memory, and the sizes of the request. -/
structure Sent (memory : MemoryAddressType → MemoryDataType) (request : ShaderFrontendRequest)
    (data : List Dword) : Prop where
  coherent : Coherent memory request.isaAddress data
  hasNextCommand : (CommandStoreIsa.ofRaw fun k => data.getD k 0).hasNextCommand = 1
  outputs : let command := CommandStoreIsa.ofRaw fun k => data.getD k 0
    componentsOf (nonZeroCountToInt command.outputsCount) command.outputs.size0
        command.outputs.size1 command.outputs.size2 * nonZeroCountToInt request.threadCount =
      calculateShaderOutputsCount request

theorem withoutNextCommand_length (data : List Dword) :
    (withoutNextCommand data).length = data.length := by
  cases data <;> rfl

theorem withoutNextCommand_tail {data data' : List Dword}
    (h : withoutNextCommand data = withoutNextCommand data') : data.tail = data'.tail := by
  have htail : ∀ d, (withoutNextCommand d).tail = d.tail := by
    intro d
    cases d <;> rfl
  rw [← htail data, ← htail data', h]

theorem storedProgram_length (memory : MemoryAddressType → MemoryDataType)
    (isaAddress : MemoryAddressType) : (storedProgram memory isaAddress).length =
      (CommandStoreIsa.ofRaw fun k => (storedProgram memory isaAddress).getD k 0).programLength.toNat
        + Isa.commandSizeInDwords := by
  unfold storedProgram
  rw [memoryDwords_length]
  congr 2
  refine programLength_ofRaw ?_
  rw [Isa.commandSizeInDwords, List.getD_eq_getElem _ _ (by rw [memoryDwords_length]; omega)]
  simp [memoryDwords]

theorem Coherent.length {memory : MemoryAddressType → MemoryDataType}
    {isaAddress : MemoryAddressType} {data : List Dword} (h : Coherent memory isaAddress data) :
    data.length = (storedProgram memory isaAddress).length := by
  rw [← withoutNextCommand_length data, h, withoutNextCommand_length]

theorem loadProgram_sent {s : FrontendState} (hs : Agrees s) {request : ShaderFrontendRequest}
    {data : List Dword} {cache : IsaCache}
    (h : loadProgram s.memory s.cache request = .ok (some data, cache)) :
    Sent s.memory request data := by
  have hcoherent := (loadProgram_ok hs h).2 data rfl
  have hne : data ≠ [] := by
    refine List.ne_nil_of_length_pos ?_
    rw [hcoherent.length, storedProgram_length, Isa.commandSizeInDwords]
    omega
  unfold loadProgram at h
  split at h
  · cases h
  · obtain ⟨⟨slot, c1⟩, -, h⟩ := bind_ok.mp h
    obtain ⟨_, hvalid, h⟩ := bind_ok.mp h
    cases h
    simp only [EntryCache.modify, Function.update_self] at hne hcoherent ⊢
    have hentry : (c1.entries slot).value.data ≠ [] := by
      intro hnil
      exact hne (by rw [hnil]; rfl)
    refine ⟨hcoherent, hasNextCommand_set hentry, ?_⟩
    rw [ofRaw_withoutNextCommand (withoutNextCommand_set _)]
    exact validateRequest_outputs hvalid

/-- Only the address that no aligned request has is taken for loaded already. -/
theorem loadProgram_isSome {memory : MemoryAddressType → MemoryDataType} {cache c1 : IsaCache}
    {m : RequestMessage} {program : Option (List Dword)}
    (h : loadProgram memory cache m.request = .ok (program, c1)) : ∃ data, program = some data := by
  unfold loadProgram at h
  split at h
  · next hinvalid =>
    have haligned := m.aligned
    rw [hinvalid] at haligned
    exact absurd haligned (by decide)
  · obtain ⟨⟨slot, c2⟩, -, h⟩ := bind_ok.mp h
    obtain ⟨_, -, h⟩ := bind_ok.mp h
    cases h
    exact ⟨_, rfl⟩

/-! ## Answers -/

/-- The results of a program on the inputs of a request, in a unit that stores it first. -/
def ShaderUnit.results (alu : Alu Dword) (data : List Dword) (m : RequestMessage)
    (u : ShaderUnit Dword) : Except FatalError (List Dword) :=
  Prod.snd <$> (u.processStoreIsaCommand data).processExecuteIsaCommand alu
    m.executeIsa.threadCount m.executeIsa.stream

/-- The memory holds an encoded program, whose last instruction is not cut off. -/
def HoldsProgram (alu : Alu Dword) (memory : MemoryAddressType → MemoryDataType)
    (isaAddress : MemoryAddressType) : Prop :=
  ∃ program : List Instruction, (∀ i ∈ program, i.Readable alu) ∧
    (storedProgram memory isaAddress).drop Isa.commandSizeInDwords = programDwords program

/-- The outputs of the request's program on its inputs: of the program in memory, in some
    unit, and in every unit whatever it ran before when the program is complete. -/
structure OutputsOf (alu : Alu Dword) (memory : MemoryAddressType → MemoryDataType)
    (m : RequestMessage) (outputs : List Dword) : Prop where
  length : outputs.length = calculateShaderOutputsCount m.request
  some_unit : ∃ data u, Coherent memory m.request.isaAddress data ∧
    ShaderUnit.results alu data m u = .ok outputs
  every_unit : HoldsProgram alu memory m.request.isaAddress → ∀ u,
    ShaderUnit.results alu (storedProgram memory m.request.isaAddress) m u = .ok outputs

section
variable {alu : Alu Dword} {memory : MemoryAddressType → MemoryDataType} {m : RequestMessage}

/-- Every unit stores the same program from dwords that are the program in memory. -/
theorem results_same (hprogram : HoldsProgram alu memory m.request.isaAddress) {data : List Dword}
    (hdata : Coherent memory m.request.isaAddress data) (u v : ShaderUnit Dword) :
    ShaderUnit.results alu data m v =
      ShaderUnit.results alu (storedProgram memory m.request.isaAddress) m u := by
  obtain ⟨program, hr, hdwords⟩ := hprogram
  have hlength : (CommandStoreIsa.ofRaw fun k =>
      (storedProgram memory m.request.isaAddress).getD k 0).programLength.toNat =
        (programDwords program).length := by
    have hstored := storedProgram_length memory m.request.isaAddress
    rw [← hdwords, List.length_drop]
    omega
  have htail : data.drop Isa.commandSizeInDwords = programDwords program := by
    rw [← hdwords]
    have htail : data.tail = (storedProgram memory m.request.isaAddress).tail :=
      withoutNextCommand_tail hdata
    rw [show Isa.commandSizeInDwords = 1 + 2 from rfl, ← List.drop_drop, ← List.drop_drop,
      List.drop_one, List.drop_one, htail]
  have hisa : ∀ (stored : List Dword) (w : ShaderUnit Dword),
      stored.drop Isa.commandSizeInDwords = programDwords program →
      (CommandStoreIsa.ofRaw fun k => stored.getD k 0).programLength.toNat =
        (programDwords program).length →
      ∀ j, ∀ hj : j < (programDwords program).length,
        (w.processStoreIsaCommand stored).isa j = (programDwords program)[j] := by
    intro stored w hstored hcount j hj
    show (if j < (CommandStoreIsa.ofRaw fun k => stored.getD k 0).programLength.toNat then _
      else _) = _
    rw [if_pos (by omega)]
    simp only [← hstored, List.getElem_eq_getD (0 : Dword), List.getD_eq_getElem?_getD,
      List.getElem?_drop]
  have hheader := ofRaw_withoutNextCommand hdata
  refine ShaderUnit.processExecuteIsaCommand_same hr hheader hlength (hisa _ u hdwords hlength)
    (hisa _ v htail ?_) _ _
  rw [hheader]
  exact hlength

/-- What a unit sends that stored the program of the request. -/
theorem results_outputsOf {data outputs : List Dword} (hsent : Sent memory m.request data)
    {u : ShaderUnit Dword} (h : ShaderUnit.results alu data m u = .ok outputs) :
    OutputsOf alu memory m outputs := by
  refine ⟨?_, ⟨data, u, hsent.coherent, h⟩, fun hprogram v => ?_⟩
  · unfold ShaderUnit.results at h
    cases hrun : (u.processStoreIsaCommand data).processExecuteIsaCommand alu
      m.executeIsa.threadCount m.executeIsa.stream with
    | error e =>
      rw [hrun] at h
      exact nomatch h
    | ok result =>
      obtain ⟨u', values⟩ := result
      rw [hrun] at h
      cases h
      exact (ShaderUnit.processExecuteIsaCommand_length hrun).trans hsent.outputs
  · rw [← results_same hprogram hsent.coherent v u]
    exact h

/-! ## Reading the outputs -/

theorem componentsOf_pos {count : Nat} (hcount : 0 < count) (size0 size1 size2 : BitVec 2) :
    0 < componentsOf count size0 size1 size2 := by
  unfold componentsOf
  rw [if_pos hcount, nonZeroCountToInt]
  omega

theorem readOutputs_outputsOf {outputs : List Dword} (h : OutputsOf alu memory m outputs) :
    ShaderArray.readOutputs (calculateShaderOutputsCount m.request) outputs = outputs := by
  have hpos : 0 < calculateShaderOutputsCount m.request :=
    Nat.mul_pos (componentsOf_pos (Nat.succ_pos _) _ _ _) (Nat.succ_pos _)
  rw [← h.length] at hpos ⊢
  match outputs, hpos with
  | output :: outputs, _ =>
    unfold ShaderArray.readOutputs
    rw [List.getD_cons_zero, List.length_cons, Nat.add_sub_cancel]
    congr 1
    refine List.ext_getElem (by simp) fun i h1 h2 => ?_
    rw [List.getElem_map, List.getElem_range, List.getD_cons_succ, List.getD_eq_getElem _ _ h2]

end

end PicoGpu
