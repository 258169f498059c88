import PicoGpu.InputRegisters
import PicoGpu.RoundTrip
import PicoGpu.ShaderFrontend

/- The commands of a shader unit as a whole: `StoreIsa` keeps what the memory of the
   unit holds behind the new program, and `ExecuteIsa` runs the program on the dwords
   of a request. The unit is reused for one program after the other, so the question
   is what its results depend on: registers are cleared, uniforms are received again,
   and an encoded program is read to its end and no further. -/
namespace PicoGpu

section
variable {V : Type}

namespace ShaderUnit

def processStoreIsaCommand (data : List Dword) (u : ShaderUnit V) : ShaderUnit V :=
  let command := CommandStoreIsa.ofRaw fun k => data.getD k 0
  { u with
    isaMetadata := command
    isa := fun i =>
      if i < command.programLength.toNat then data.getD (Isa.commandSizeInDwords + i) 0
      else u.isa i }

def getOutputSize (u : ShaderUnit V) (index : Nat) : Except FatalError (BitVec 2) :=
  Prod.fst <$> u.isaMetadata.outputs.select "getInputOutputSize" index

def getOutputRegisterIndex (u : ShaderUnit V) (index : Nat) : Except FatalError RegisterIndex :=
  Prod.snd <$> u.isaMetadata.outputs.select "getInputOutputRegisterIndex" index

/-- The registers of the outputs with their component counts. -/
def outputRegisters (u : ShaderUnit V) : Except FatalError (List (RegisterIndex × Nat)) :=
  (List.range (nonZeroCountToInt u.isaMetadata.outputsCount)).mapM fun outputIndex => do
    let registerIndex ← u.getOutputRegisterIndex outputIndex
    return (registerIndex, nonZeroCountToInt (← u.getOutputSize outputIndex))

def appendOutputRegistersValues (threadCount : Nat) (u : ShaderUnit V) :
    Except FatalError (List V) := do
  let outputs ← u.outputRegisters
  return (List.range threadCount).flatMap fun threadIndex =>
    outputs.flatMap fun (registerIndex, componentsCount) =>
      (List.range componentsCount).map fun component =>
        (u.gpr threadIndex registerIndex).get (Fin.ofNat 4 component)

/-- The dwords of the request come from `stream`; the result is what the unit sends. The
    loop ends within the program's length, as every instruction has a dword. -/
def processExecuteIsaCommand (alu : Alu V) (threadCount : BitVec 5) (stream : Nat → V)
    (u : ShaderUnit V) : Except FatalError (ShaderUnit V × List V) := do
  let threadCount := nonZeroCountToInt threadCount
  let u ← (u.clearRegisters alu).initializeInputRegisters alu threadCount stream
  let isaSize := u.isaMetadata.programLength.toNat
  let u ← u.executeInstructions alu isaSize threadCount isaSize
  let outputStream ← u.appendOutputRegistersValues threadCount
  return (u, outputStream)

/-! ## What the results depend on -/

/-- The unit with another memory, and another bit for the command that follows. -/
def withIsa (isa : Nat → Dword) (hasNextCommand : BitVec 1) (u : ShaderUnit V) : ShaderUnit V :=
  { u with isa := isa, isaMetadata := { u.isaMetadata with hasNextCommand := hasNextCommand } }

theorem execute_withIsa (alu : Alu V) (threadCount : Nat) (inst : Instruction)
    (isa : Nat → Dword) (hasNextCommand : BitVec 1) (u : ShaderUnit V) :
    (u.withIsa isa hasNextCommand).execute alu threadCount inst =
      (u.execute alu threadCount inst).map (withIsa isa hasNextCommand) := by
  unfold execute
  cases inst.opcode.operation alu with
  | lduni =>
    have hsame : (u.withIsa isa hasNextCommand).loadUniforms alu threadCount =
        u.loadUniforms alu threadCount := rfl
    simp only [hsame]
    cases u.loadUniforms alu threadCount <;> rfl
  | initregs =>
    have hsame : (u.withIsa isa hasNextCommand).zeroInitializeUnusedRegisters alu threadCount =
        u.zeroInitializeUnusedRegisters alu threadCount := rfl
    simp only [hsame]
    cases u.zeroInitializeUnusedRegisters alu threadCount <;> rfl
  | _ => rfl

/-- An instruction moves `pc` behind its dwords. -/
theorem execute_ok {alu : Alu V} {inst : Instruction} (hd : inst.Dispatched alu) {threadCount : Nat}
    {u u' : ShaderUnit V} (h : u.execute alu (threadCount + 1) inst = .ok u') :
    u'.isa = u.isa ∧ u'.isaMetadata = u.isaMetadata ∧ u'.pc = u.pc + inst.dwords.length := by
  by_cases hn : inst.operands.layout = .nullary
  · obtain ⟨hlen, hop⟩ := hd.nullary hn
    rw [hlen]
    unfold execute at h
    rcases hop with hop | hop | hop
    · rw [hop] at h
      cases h
      exact ⟨rfl, rfl, rfl⟩
    · rw [hop] at h
      obtain ⟨gpr, -, h⟩ := bind_ok.mp h
      cases h
      exact ⟨rfl, rfl, rfl⟩
    · rw [hop] at h
      obtain ⟨gpr, -, h⟩ := bind_ok.mp h
      cases h
      exact ⟨rfl, rfl, rfl⟩
  · rw [execute_lanes hd hn] at h
    cases h
    exact ⟨rfl, rfl, rfl⟩

/-- The loop over an encoded program does not look at the rest of the memory. -/
theorem executeInstructions_withIsa {alu : Alu V} {program : List Instruction}
    {u0 : ShaderUnit V} {isa : Nat → Dword} (hasNextCommand : BitVec 1)
    (hu0 : ∀ j, ∀ hj : j < (programDwords program).length, u0.isa j = (programDwords program)[j])
    (hisa : ∀ j, ∀ hj : j < (programDwords program).length, isa j = (programDwords program)[j])
    (hr : ∀ i ∈ program, i.Readable alu) (threadCount clocks : Nat) :
    ∀ {k : Nat} {u : ShaderUnit V}, k ≤ program.length → AtInstruction program u0 k u →
      (u.withIsa isa hasNextCommand).executeInstructions alu (programDwords program).length
          (threadCount + 1) clocks =
        (u.executeInstructions alu (programDwords program).length (threadCount + 1) clocks).map
          (withIsa isa hasNextCommand) := by
  -- `pc` stands before instruction `k`, which both memories hold
  induction clocks with
  | zero => exact fun _ _ => rfl
  | succ clocks ih =>
    intro k u hk hat
    have hpc : (u.withIsa isa hasNextCommand).pc = u.pc := rfl
    rw [executeInstructions, executeInstructions, hpc]
    by_cases hlt : k < program.length
    · have hmem : program[k] ∈ program := List.getElem_mem hlt
      have hinside : u.pc < (programDwords program).length := by
        obtain ⟨h0, -⟩ := List.getElem?_eq_some_iff.mp (dwords_at hlt 0 (Nat.succ_pos _))
        rw [hat.pc]
        exact h0
      have hread : ∀ j, ∀ hj : j < program[k].dwords.length,
          ∃ h, (programDwords program).get ⟨u.pc + j, h⟩ = program[k].dwords[j] := by
        intro j hj
        rw [hat.pc]
        exact List.getElem?_eq_some_iff.mp (dwords_at hlt j hj)
      have hfetch : u.fetch alu = .ok (program[k].decoded alu) := by
        refine fetch_decoded (hr _ hmem) fun j hj => ?_
        obtain ⟨h, hget⟩ := hread j hj
        rw [hat.isa, hu0 _ h]
        exact hget
      have hfetch' : (u.withIsa isa hasNextCommand).fetch alu = .ok (program[k].decoded alu) := by
        refine fetch_decoded (hr _ hmem) fun j hj => ?_
        obtain ⟨h, hget⟩ := hread j hj
        exact (hisa _ h).trans hget
      rw [if_pos hinside, if_pos hinside]
      unfold executeInstruction
      rw [hfetch, hfetch', ok_bind, ok_bind, execute_withIsa]
      cases hstep : u.execute alu (threadCount + 1) (program[k].decoded alu) with
      | error e => rfl
      | ok u1 =>
        obtain ⟨hisa1, hmeta1, hpc1⟩ := execute_ok (program[k].dispatched_decoded alu) hstep
        refine ih (Nat.succ_le_of_lt hlt) ⟨hisa1.trans hat.isa, hmeta1.trans hat.isaMetadata, ?_⟩
        rw [hpc1, hat.pc, take_dwords hlt, List.length_append, hr _ hmem]
    · have hend : ¬ u.pc < (programDwords program).length := by
        rw [hat.pc, List.take_of_length_le (by omega)]
        omega
      rw [if_neg hend, if_neg hend]
      rfl

/-- The unit clears or receives all that a program starts from. -/
theorem initializeInputRegisters_withIsa (alu : Alu V) {u v : ShaderUnit V}
    {hasNextCommand : BitVec 1}
    (hmeta : v.isaMetadata = { u.isaMetadata with hasNextCommand := hasNextCommand })
    (threadCount : Nat) (stream : Nat → V) :
    (v.clearRegisters alu).initializeInputRegisters alu threadCount stream =
      ((u.clearRegisters alu).initializeInputRegisters alu threadCount stream).map
        (withIsa v.isa hasNextCommand) := by
  obtain ⟨isaMetadata, isa, gpr, pc, uniformDwords⟩ := v
  cases hmeta
  have hfs : (ShaderUnit.mk { u.isaMetadata with hasNextCommand := hasNextCommand } isa gpr pc
    uniformDwords |>.clearRegisters alu).isFs = (u.clearRegisters alu).isFs := rfl
  have hinputs : (ShaderUnit.mk { u.isaMetadata with hasNextCommand := hasNextCommand } isa gpr pc
    uniformDwords |>.clearRegisters alu).inputRegisters = (u.clearRegisters alu).inputRegisters := rfl
  have htotal : (ShaderUnit.mk { u.isaMetadata with hasNextCommand := hasNextCommand } isa gpr pc
    uniformDwords |>.clearRegisters alu).uniformsTotalComponentCount =
      (u.clearRegisters alu).uniformsTotalComponentCount := rfl
  unfold initializeInputRegisters
  rw [hfs, hinputs, htotal]
  cases (u.clearRegisters alu).inputRegisters with
  | error e => rfl
  | ok inputs =>
    rw [ok_bind, ok_bind]
    cases (u.clearRegisters alu).uniformsTotalComponentCount with
    | error e => rfl
    | ok total =>
      rw [ok_bind, ok_bind]
      cases (u.clearRegisters alu).isFs with
      | false => rfl
      | true =>
        -- both sides store the attributes from the same state
        let start : AttributeState V :=
          ⟨storePosition threadCount (inputs.getD 0 (0, 0)).1 stream (u.clearRegisters alu).gpr, 0,
            .ofIsaMetadata u.isaMetadata⟩
        show (storeVertexAttributes alu threadCount inputs
            (fun k => stream (threadCount * 2 + total + k)) start >>= _) =
          Except.map _ (storeVertexAttributes alu threadCount inputs
            (fun k => stream (threadCount * 2 + total + k)) start >>= _)
        cases storeVertexAttributes alu threadCount inputs
          (fun k => stream (threadCount * 2 + total + k)) start <;> rfl

theorem initializeInputRegisters_pc {alu : Alu V} {threadCount : Nat} {stream : Nat → V}
    {u u' : ShaderUnit V} (h : u.initializeInputRegisters alu threadCount stream = .ok u') :
    u'.pc = u.pc ∧ u'.isa = u.isa ∧ u'.isaMetadata = u.isaMetadata := by
  unfold initializeInputRegisters at h
  obtain ⟨inputs, -, h⟩ := bind_ok.mp h
  obtain ⟨total, -, h⟩ := bind_ok.mp h
  dsimp only at h
  split at h
  · obtain ⟨s, -, h⟩ := bind_ok.mp h
    cases h
    exact ⟨rfl, rfl, rfl⟩
  · cases h
    exact ⟨rfl, rfl, rfl⟩

/-- Two units with the same encoded program send the same results, whatever else they hold. -/
theorem processExecuteIsaCommand_same {alu : Alu V} {program : List Instruction}
    (hr : ∀ i ∈ program, i.Readable alu) {u v : ShaderUnit V} {hasNextCommand : BitVec 1}
    (hmeta : v.isaMetadata = { u.isaMetadata with hasNextCommand := hasNextCommand })
    (hlength : u.isaMetadata.programLength.toNat = (programDwords program).length)
    (hu : ∀ j, ∀ hj : j < (programDwords program).length, u.isa j = (programDwords program)[j])
    (hv : ∀ j, ∀ hj : j < (programDwords program).length, v.isa j = (programDwords program)[j])
    (threadCount : BitVec 5) (stream : Nat → V) :
    (v.processExecuteIsaCommand alu threadCount stream).map Prod.snd =
      (u.processExecuteIsaCommand alu threadCount stream).map Prod.snd := by
  unfold processExecuteIsaCommand
  dsimp only
  rw [initializeInputRegisters_withIsa alu hmeta]
  cases hinit : (u.clearRegisters alu).initializeInputRegisters alu (nonZeroCountToInt threadCount)
    stream with
  | error e => rfl
  | ok u1 =>
    obtain ⟨hpc1, hisa1, hmeta1⟩ := initializeInputRegisters_pc hinit
    have hlength1 : u1.isaMetadata.programLength.toNat = (programDwords program).length := by
      rw [hmeta1]
      exact hlength
    have hlength1' : (u1.withIsa v.isa hasNextCommand).isaMetadata.programLength.toNat =
        (programDwords program).length := hlength1
    have hrun := @executeInstructions_withIsa V alu program u1 v.isa hasNextCommand
      (by rw [hisa1]; exact hu) hv hr threadCount.toNat (programDwords program).length 0 u1
      (Nat.zero_le _) ⟨rfl, rfl, by rw [hpc1]; rfl⟩
    show ((u1.withIsa v.isa hasNextCommand).executeInstructions alu _ (threadCount.toNat + 1) _ >>= _ :
        Except FatalError _).map _ =
      ((u1.executeInstructions alu _ (threadCount.toNat + 1) _ >>= _ : Except FatalError _)).map _
    rw [hlength1, hlength1', hrun]
    cases u1.executeInstructions alu (programDwords program).length (threadCount.toNat + 1)
      (programDwords program).length with
    | error e => rfl
    | ok u2 =>
      have houtputs : (u2.withIsa v.isa hasNextCommand).appendOutputRegistersValues
          (nonZeroCountToInt threadCount) =
          u2.appendOutputRegistersValues (nonZeroCountToInt threadCount) := rfl
      show ((u2.withIsa v.isa hasNextCommand).appendOutputRegistersValues
          (nonZeroCountToInt threadCount) >>= _ : Except FatalError _).map _ =
        (u2.appendOutputRegistersValues (nonZeroCountToInt threadCount) >>= _ : Except FatalError _).map _
      rw [houtputs]
      cases u2.appendOutputRegistersValues (nonZeroCountToInt threadCount) <;> rfl

/-! ## How much a unit sends -/

theorem outputRegisters_ok {u : ShaderUnit V} {outputs : List (RegisterIndex × Nat)}
    (h : u.outputRegisters = .ok outputs) :
    (outputs.map Prod.snd).sum = componentsOf (nonZeroCountToInt u.isaMetadata.outputsCount)
      u.isaMetadata.outputs.size0 u.isaMetadata.outputs.size1 u.isaMetadata.outputs.size2 := by
  have hcount : u.isaMetadata.outputsCount.toNat < 4 := u.isaMetadata.outputsCount.isLt
  unfold outputRegisters at h
  unfold nonZeroCountToInt componentsOf at *
  generalize u.isaMetadata.outputsCount.toNat = count at hcount h ⊢
  obtain rfl | rfl | rfl | rfl : count = 0 ∨ count = 1 ∨ count = 2 ∨ count = 3 := by omega
  · cases h
    rfl
  · cases h
    rfl
  · cases h
    exact (Nat.add_assoc _ _ _).symm
  -- with four outputs the getters fail at the last one
  · exact nomatch h

theorem appendOutputRegistersValues_length {u : ShaderUnit V} {threadCount : Nat} {values : List V}
    (h : u.appendOutputRegistersValues threadCount = .ok values) :
    values.length = componentsOf (nonZeroCountToInt u.isaMetadata.outputsCount)
      u.isaMetadata.outputs.size0 u.isaMetadata.outputs.size1 u.isaMetadata.outputs.size2 *
        threadCount := by
  obtain ⟨outputs, houtputs, h⟩ := bind_ok.mp h
  cases h
  rw [← outputRegisters_ok houtputs]
  simp only [List.length_flatMap, List.length_map, List.length_range, List.map_const',
    List.sum_replicate_nat]
  exact Nat.mul_comm _ _

theorem executeInstruction_isaMetadata {alu : Alu V} {threadCount : Nat} {u u' : ShaderUnit V}
    (h : u.executeInstruction alu (threadCount + 1) = .ok u') : u'.isaMetadata = u.isaMetadata := by
  obtain ⟨inst, hfetch, h⟩ := bind_ok.mp h
  unfold fetch at hfetch
  split at hfetch
  · exact nomatch hfetch
  · next opcode _ =>
    cases hfetch
    refine (execute_ok ?_ h).2.1
    rw [Instruction.Dispatched, Operands.read_layout]

theorem executeInstructions_isaMetadata {alu : Alu V} {isaSize threadCount clocks : Nat}
    {u u' : ShaderUnit V}
    (h : u.executeInstructions alu isaSize (threadCount + 1) clocks = .ok u') :
    u'.isaMetadata = u.isaMetadata := by
  induction clocks generalizing u with
  | zero =>
    cases h
    rfl
  | succ clocks ih =>
    rw [executeInstructions] at h
    split at h
    · obtain ⟨u1, h1, h⟩ := bind_ok.mp h
      exact (ih h).trans (executeInstruction_isaMetadata h1)
    · cases h
      rfl

theorem processExecuteIsaCommand_length {alu : Alu V} {threadCount : BitVec 5} {stream : Nat → V}
    {u u' : ShaderUnit V} {outputs : List V}
    (h : u.processExecuteIsaCommand alu threadCount stream = .ok (u', outputs)) :
    outputs.length = componentsOf (nonZeroCountToInt u.isaMetadata.outputsCount)
      u.isaMetadata.outputs.size0 u.isaMetadata.outputs.size1 u.isaMetadata.outputs.size2 *
        nonZeroCountToInt threadCount := by
  unfold processExecuteIsaCommand at h
  dsimp only at h
  obtain ⟨u1, hinit, h⟩ := bind_ok.mp h
  obtain ⟨u2, hrun, h⟩ := bind_ok.mp h
  obtain ⟨values, houtputs, h⟩ := bind_ok.mp h
  cases h
  have hmeta : u'.isaMetadata = u.isaMetadata :=
    (executeInstructions_isaMetadata hrun).trans (initializeInputRegisters_pc hinit).2.2
  rw [appendOutputRegistersValues_length houtputs, hmeta]

end ShaderUnit

end

end PicoGpu
