import PicoGpu.InputStream

/- A program in one lane. All lanes execute the same instruction at a time, on registers
   of their own; what they share is the header and the uniforms. So the results of a
   request are those of its threads, and each thread can be followed through the whole
   program alone. -/
namespace PicoGpu

section
variable {V : Type}

namespace ShaderUnit

/-! ## Registers that are in use -/

theorem inputsOf_fst (u : ShaderUnit V) :
    u.inputsOf.map Prod.fst =
      (u.isaMetadata.inputs.registers (nonZeroCountToInt u.isaMetadata.inputsCount)).map Prod.fst := by
  unfold inputsOf
  dsimp only
  split
  · cases u.isaMetadata.inputs.registers (nonZeroCountToInt u.isaMetadata.inputsCount) <;> rfl
  · rfl

/-- The mask of the registers of the uniforms and of the inputs. -/
def usedRegisters (u : ShaderUnit V) : BitVec 16 :=
  ((u.uniformsOf ++ u.inputsOf).map Prod.fst).foldl (fun mask register => setBit mask register.val) 0

theorem usedRegisterMask_eq {u : ShaderUnit V} (h : u.CountsFit) :
    u.usedRegisterMask = .ok u.usedRegisters := by
  have huniforms := h.uniforms
  have hinputs : u.isaMetadata.inputsCount.toNat < 3 := h.inputs
  rw [usedRegisters, List.map_append, inputsOf_fst]
  unfold usedRegisterMask uniformsOf nonZeroCountToInt
  generalize u.isaMetadata.uniformsCount.toNat = uniformsCount at huniforms ⊢
  generalize u.isaMetadata.inputsCount.toNat = inputsCount at hinputs ⊢
  obtain rfl | rfl | rfl : inputsCount = 0 ∨ inputsCount = 1 ∨ inputsCount = 2 := by omega
  all_goals
    obtain rfl | rfl | rfl | rfl : uniformsCount = 0 ∨ uniformsCount = 1 ∨ uniformsCount = 2 ∨
      uniformsCount = 3 := by omega
    all_goals rfl

/-- The loop over the registers of `zeroInitializeUnusedRegisters` clears a register that is
    not in the mask, in the lanes that run; a register that it has come to stays clear. -/
theorem foldl_zeroUnused_cleared (zero : V) {threadCount : Nat} (mask : BitVec 16)
    (registers : List RegisterIndex) (gpr : Nat → LaneFile V) {l : Nat} (hl : l < threadCount)
    {r : RegisterIndex} (hmask : ¬ isBitSet mask r.val = true)
    (hr : r ∈ registers ∨ gpr l r = .replicate zero) :
    registers.foldl (fun gpr registerIndex =>
        if isBitSet mask registerIndex.val then gpr
        else writeLanes threadCount registerIndex (.replicate zero) gpr) gpr l r =
      .replicate zero := by
  induction registers generalizing gpr with
  | nil => exact hr.resolve_left List.not_mem_nil
  | cons register registers ih =>
    rw [List.foldl_cons]
    apply ih
    by_cases hfirst : r = register
    · subst hfirst
      right
      rw [if_neg hmask, writeLanes_lane _ _ _ _ hl, Function.update_self]
    · rcases hr with hr | hr
      · exact Or.inl ((List.mem_cons.mp hr).resolve_left hfirst)
      · right
        split
        · exact hr
        · rw [writeLanes_lane _ _ _ _ hl, Function.update_of_ne hfirst]
          exact hr

theorem foldl_zeroUnused_kept (zero : V) (threadCount : Nat) (mask : BitVec 16)
    (registers : List RegisterIndex) (gpr : Nat → LaneFile V) {l : Nat} {r : RegisterIndex}
    (hkept : ¬ l < threadCount ∨ isBitSet mask r.val = true) :
    registers.foldl (fun gpr registerIndex =>
        if isBitSet mask registerIndex.val then gpr
        else writeLanes threadCount registerIndex (.replicate zero) gpr) gpr l r = gpr l r := by
  induction registers generalizing gpr with
  | nil => rfl
  | cons register registers ih =>
    rw [List.foldl_cons, ih]
    split
    · rfl
    · next hmask =>
      by_cases hl : l < threadCount
      · have hne : r ≠ register := by
          rintro rfl
          exact hmask (hkept.resolve_left fun h => h hl)
        rw [writeLanes_lane _ _ _ _ hl, Function.update_of_ne hne]
      · rw [writeLanes_other _ _ _ _ hl]

theorem zeroInitializeUnusedRegisters_eq {u : ShaderUnit V} (h : u.CountsFit) (alu : Alu V)
    (threadCount : Nat) :
    u.zeroInitializeUnusedRegisters alu threadCount = .ok fun l => if l < threadCount then
        fun r => if isBitSet u.usedRegisters r.val then u.gpr l r else .replicate alu.zero
      else u.gpr l := by
  unfold zeroInitializeUnusedRegisters
  rw [usedRegisterMask_eq h, ok_bind]
  show Except.ok _ = Except.ok _
  congr 1
  funext l
  by_cases hl : l < threadCount
  · rw [if_pos hl]
    funext r
    by_cases hr : isBitSet u.usedRegisters r.val = true
    · rw [if_pos hr]
      exact foldl_zeroUnused_kept _ _ _ _ _ (Or.inr hr)
    · rw [if_neg hr]
      exact foldl_zeroUnused_cleared _ _ _ _ hl hr (Or.inl (List.mem_finRange r))
  · rw [if_neg hl]
    funext r
    exact foldl_zeroUnused_kept _ _ _ _ _ (Or.inl hl)

/-! ## One instruction -/

/-- The registers of a lane after an instruction. -/
def laneStep (alu : Alu V) (u : ShaderUnit V) (uniforms : Nat → V) (file : LaneFile V)
    (inst : Instruction) : LaneFile V :=
  match inst.opcode.operation alu with
  | .trap => file
  | .lduni => storeRegisters (fun _ => .replicate alu.zero) u.uniformsOf uniforms file
  | .initregs => fun r =>
    if isBitSet u.usedRegisters r.val then file r else .replicate alu.zero
  | operation => (executeInstructionLane alu operation inst.operands file).1

/-- **An instruction takes its step in each running lane, with nothing of another lane.** -/
theorem execute_eq {alu : Alu V} {u : ShaderUnit V} (hu : u.CountsFit) {inst : Instruction}
    (hd : inst.Dispatched alu) (threadCount : Nat) :
    u.execute alu (threadCount + 1) inst = .ok { u with
      gpr := fun l => if l < threadCount + 1 then u.laneStep alu u.uniformDwords (u.gpr l) inst
        else u.gpr l
      pc := u.pc + inst.dwords.length } := by
  by_cases hn : inst.operands.layout = .nullary
  · obtain ⟨hlen, hop⟩ := hd.nullary hn
    unfold execute laneStep
    rw [hlen]
    rcases hop with hop | hop | hop
    · simp only [hop, ite_self]
    · simp only [hop, loadUniforms_eq hu, ok_bind]
      rfl
    · simp only [hop, zeroInitializeUnusedRegisters_eq hu, ok_bind]
      rfl
  · rw [execute_lanes hd hn]
    have hstep : ∀ file, u.laneStep alu u.uniformDwords file inst =
        (executeInstructionLane alu (inst.opcode.operation alu) inst.operands file).1 := by
      intro file
      obtain ⟨htrap, hlduni, hinitregs⟩ := hd.operands hn
      unfold laneStep
      cases hop : inst.opcode.operation alu with
      | trap => exact absurd hop htrap
      | lduni => exact absurd hop hlduni
      | initregs => exact absurd hop hinitregs
      | _ => rfl
    simp only [hstep]

/-! ## A whole program -/

/-- The unit has an encoded program to execute, and results that its header describes. -/
structure Ready (alu : Alu V) (program : List Instruction) (u : ShaderUnit V) : Prop where
  counts : u.CountsFit
  outputs : nonZeroCountToInt u.isaMetadata.outputsCount ≤ 3
  programLength : u.isaMetadata.programLength.toNat = (programDwords program).length
  isa : ∀ j, ∀ hj : j < (programDwords program).length, u.isa j = (programDwords program)[j]
  readable : ∀ i ∈ program, i.Readable alu

/-- The registers of a lane after the instructions of a program. -/
def laneRun (alu : Alu V) (u : ShaderUnit V) (uniforms : Nat → V) (program : List Instruction)
    (file : LaneFile V) : LaneFile V :=
  (program.map (Instruction.decoded alu)).foldl (u.laneStep alu uniforms) file

/-- At an instruction, the loop fetches it. -/
theorem fetch_at {alu : Alu V} {program : List Instruction} {u0 : ShaderUnit V}
    (h : u0.Ready alu program) {k : Nat} (hlt : k < program.length) {u : ShaderUnit V}
    (hat : AtInstruction program u0 k u) : u.fetch alu = .ok (program[k].decoded alu) := by
  refine fetch_decoded (h.readable _ (List.getElem_mem hlt)) fun j hj => ?_
  obtain ⟨hj', hget⟩ := List.getElem?_eq_some_iff.mp (dwords_at hlt j hj)
  rw [hat.isa, hat.pc, h.isa _ hj', hget]

/-- At an instruction, the loop takes its step in each running lane and comes to the next. -/
theorem executeInstruction_at {alu : Alu V} {program : List Instruction} {u0 : ShaderUnit V}
    (h : u0.Ready alu program) (threadCount : Nat) {k : Nat} (hlt : k < program.length)
    {u : ShaderUnit V} (hat : AtInstruction program u0 k u)
    (huniforms : u.uniformDwords = u0.uniformDwords) :
    u.pc < (programDwords program).length ∧
      u.executeInstruction alu (threadCount + 1) = .ok { u with
        gpr := fun l => if l < threadCount + 1 then
            u0.laneStep alu u0.uniformDwords (u.gpr l) (program[k].decoded alu)
          else u.gpr l
        pc := (programDwords (program.take (k + 1))).length } := by
  have hr : program[k].Readable alu := h.readable _ (List.getElem_mem hlt)
  have hmeta : u.isaMetadata = u0.isaMetadata := hat.isaMetadata
  have hcounts : u.CountsFit :=
    ⟨by rw [hmeta]; exact h.counts.uniforms, by rw [hmeta]; exact h.counts.inputs⟩
  have hfetch := fetch_at h hlt hat
  have hstep := execute_eq hcounts (program[k].dispatched_decoded alu) threadCount
  -- a lane looks only at the header and the uniforms of the unit, which stay the same
  have hfile : ∀ file, u.laneStep alu u.uniformDwords file (program[k].decoded alu) =
      u0.laneStep alu u0.uniformDwords file (program[k].decoded alu) := by
    intro file
    rw [huniforms]
    unfold laneStep usedRegisters uniformsOf inputsOf isFs
    rw [hmeta]
  have hpc : u.pc + (program[k].decoded alu).dwords.length =
      (programDwords (program.take (k + 1))).length := by
    rw [hat.pc, take_dwords hlt, List.length_append, hr]
  constructor
  · obtain ⟨h0, -⟩ := List.getElem?_eq_some_iff.mp (dwords_at hlt 0 (Nat.succ_pos _))
    rw [hat.pc]
    exact h0
  · unfold executeInstruction
    rw [hfetch, ok_bind, hstep]
    simp only [hfile, hpc]

/-- The loop from instruction `k` on, with the clocks that are left for the others. -/
theorem executeInstructions_eq {alu : Alu V} {program : List Instruction} {u0 : ShaderUnit V}
    (h : u0.Ready alu program) (threadCount : Nat) (left : Nat) :
    ∀ {k spare : Nat} {u : ShaderUnit V}, k + left = program.length →
      AtInstruction program u0 k u → u.uniformDwords = u0.uniformDwords →
      u.executeInstructions alu (programDwords program).length (threadCount + 1) (left + spare) =
        .ok { u with
          gpr := fun l => if l < threadCount + 1 then
              u0.laneRun alu u0.uniformDwords (program.drop k) (u.gpr l)
            else u.gpr l
          pc := (programDwords program).length } := by
  induction left with
  | zero =>
    intro k spare u hk hat huniforms
    have hend : u.pc = (programDwords program).length := by
      rw [hat.pc, List.take_of_length_le (by omega)]
    -- behind the last instruction the loop stops, whatever clocks are spare
    have hstop : ¬ u.pc < (programDwords program).length := by omega
    have hrun : u.executeInstructions alu (programDwords program).length (threadCount + 1)
        (0 + spare) = .ok u := by
      cases spare with
      | zero => rfl
      | succ spare =>
        rw [Nat.zero_add, executeInstructions, if_neg hstop]
    rw [hrun, List.drop_of_length_le (by omega), ← hend]
    simp only [laneRun, List.map_nil, List.foldl_nil, ite_self]
  | succ left ih =>
    intro k spare u hk hat huniforms
    have hlt : k < program.length := by omega
    obtain ⟨hinside, hstep⟩ := executeInstruction_at h threadCount hlt hat huniforms
    have hat' : AtInstruction program u0 (k + 1) { u with
        gpr := fun l => if l < threadCount + 1 then
            u0.laneStep alu u0.uniformDwords (u.gpr l) (program[k].decoded alu)
          else u.gpr l
        pc := (programDwords (program.take (k + 1))).length } := ⟨hat.isa, hat.isaMetadata, rfl⟩
    rw [Nat.succ_add, executeInstructions, if_pos hinside, hstep, ok_bind,
      ih (by omega) hat' huniforms]
    dsimp only
    congr 2
    funext l
    split
    · rw [List.drop_eq_getElem_cons hlt]
      rfl
    · rfl

/-- The loop for as many clocks as a first part of the program has instructions. -/
theorem executeInstructions_take {alu : Alu V} {program : List Instruction} {u0 : ShaderUnit V}
    (h : u0.Ready alu program) (threadCount : Nat) (hat : AtInstruction program u0 0 u0) (k : Nat)
    (hk : k ≤ program.length) :
    u0.executeInstructions alu (programDwords program).length (threadCount + 1) k = .ok { u0 with
      gpr := fun l => if l < threadCount + 1 then
          u0.laneRun alu u0.uniformDwords (program.take k) (u0.gpr l)
        else u0.gpr l
      pc := (programDwords (program.take k)).length } := by
  induction k with
  | zero =>
    rw [executeInstructions, ← hat.pc]
    simp only [laneRun, List.take_zero, List.map_nil, List.foldl_nil, ite_self]
  | succ k ih =>
    have hrun := ih (by omega)
    have hat' : AtInstruction program u0 k { u0 with
        gpr := fun l => if l < threadCount + 1 then
            u0.laneRun alu u0.uniformDwords (program.take k) (u0.gpr l)
          else u0.gpr l
        pc := (programDwords (program.take k)).length } := ⟨rfl, rfl, rfl⟩
    obtain ⟨hinside, hstep⟩ := executeInstruction_at h threadCount hk hat' rfl
    rw [executeInstructions_succ hrun hinside hstep]
    congr 2
    funext l
    dsimp only
    split
    · rw [laneRun, laneRun, List.take_add_one, List.getElem?_eq_getElem hk, Option.toList_some,
        List.map_append, List.foldl_append]
      rfl
    · rfl

/-! ## A whole request -/

/-- What a lane sends of its registers. -/
def laneOutputs (u : ShaderUnit V) (file : LaneFile V) : List V :=
  u.outputsOf.flatMap fun (registerIndex, componentsCount) =>
    (List.range componentsCount).map fun component =>
      (file registerIndex).get (Fin.ofNat 4 component)

/-- The outputs of a thread, from its own dwords and from those that all threads share. -/
def threadOutputs (alu : Alu V) (program : List Instruction) (u : ShaderUnit V)
    (perThread uniforms attributes : Nat → V) : List V :=
  u.laneOutputs (u.laneRun alu uniforms program
    (u.startLane alu perThread attributes fun _ => .replicate alu.zero))

/-- The dwords of the attributes of a triangle. -/
def attributesDwords (u : ShaderUnit V) : Nat :=
  if u.isFs then verticesInPrimitive * (u.inputsOf.map Prod.snd).sum else 0

theorem startLane_congr {u : ShaderUnit V} (h : u.CountsFit) (alu : Alu V)
    {perThread perThread' attributes attributes' : Nat → V}
    (hthread : ∀ k < u.threadDwords, perThread k = perThread' k)
    (hattributes : ∀ k < u.attributesDwords, attributes k = attributes' k) (file : LaneFile V) :
    u.startLane alu perThread attributes file = u.startLane alu perThread' attributes' file := by
  unfold startLane threadDwords attributesDwords at *
  cases hfs : u.isFs with
  | false =>
    simp only [hfs, Bool.false_eq_true, if_false] at hthread ⊢
    exact storeRegisters_congr id hthread _
  | true =>
    simp only [hfs, if_true] at hthread hattributes ⊢
    rw [hthread 0 (by decide), hthread 1 (by decide)]
    refine storeRegisters_congr _ (fun k hk => hattributes k ?_) _
    rwa [attributesOf_sizes h] at hk

theorem laneRun_congr (alu : Alu V) (u : ShaderUnit V) {uniforms uniforms' : Nat → V}
    (huniforms : ∀ k < u.uniformsDwords, uniforms k = uniforms' k) (program : List Instruction)
    (file : LaneFile V) :
    u.laneRun alu uniforms program file = u.laneRun alu uniforms' program file := by
  have hstep : u.laneStep alu uniforms = u.laneStep alu uniforms' := by
    funext file inst
    unfold laneStep
    rw [storeRegisters_congr _ huniforms]
  unfold laneRun
  rw [hstep]

/-- The dwords behind those of the thread, the uniforms and the attributes do not matter. -/
theorem threadOutputs_congr {u : ShaderUnit V} (h : u.CountsFit) (alu : Alu V)
    (program : List Instruction) {perThread perThread' uniforms uniforms' attributes attributes' : Nat → V}
    (hthread : ∀ k < u.threadDwords, perThread k = perThread' k)
    (huniforms : ∀ k < u.uniformsDwords, uniforms k = uniforms' k)
    (hattributes : ∀ k < u.attributesDwords, attributes k = attributes' k) :
    u.threadOutputs alu program perThread uniforms attributes =
      u.threadOutputs alu program perThread' uniforms' attributes' := by
  unfold threadOutputs
  rw [startLane_congr h alu hthread hattributes, laneRun_congr alu u huniforms]

/-- Of the unit, only its header matters. -/
theorem threadOutputs_header (alu : Alu V) (program : List Instruction) {u v : ShaderUnit V}
    {hasNextCommand : BitVec 1}
    (hmeta : v.isaMetadata = { u.isaMetadata with hasNextCommand := hasNextCommand }) :
    v.threadOutputs alu program = u.threadOutputs alu program := by
  obtain ⟨isaMetadata, isa, gpr, pc, uniformDwords⟩ := v
  cases hmeta
  rfl

theorem appendOutputRegistersValues_eq {u : ShaderUnit V}
    (h : nonZeroCountToInt u.isaMetadata.outputsCount ≤ 3) (threadCount : Nat) :
    u.appendOutputRegistersValues threadCount =
      .ok ((List.range threadCount).flatMap fun l => u.laneOutputs (u.gpr l)) := by
  unfold appendOutputRegistersValues
  rw [outputRegisters_eq h]
  rfl

/-- The unit when its program starts. -/
def started (alu : Alu V) (threadCount : Nat) (stream : Nat → V) (u : ShaderUnit V) : ShaderUnit V :=
  { u with
    gpr := fun l => if l < threadCount then
        u.startLane alu (fun k => stream (l * u.threadDwords + k))
          (fun k => stream (threadCount * u.threadDwords + u.uniformsDwords + k))
          (fun _ => .replicate alu.zero)
      else fun _ => .replicate alu.zero
    pc := 0
    uniformDwords := fun k =>
      if k < u.uniformsDwords then stream (threadCount * u.threadDwords + k) else alu.zero }

theorem started_eq {u : ShaderUnit V} (h : u.CountsFit) (alu : Alu V) (threadCount : Nat)
    (stream : Nat → V) :
    (u.clearRegisters alu).initializeInputRegisters alu threadCount stream =
      .ok (u.started alu threadCount stream) :=
  @initializeInputRegisters_eq V (u.clearRegisters alu) ⟨h.uniforms, h.inputs⟩ alu threadCount stream

/-- **`ExecuteIsa` sends what each of its threads computes, one thread behind the other.** -/
theorem processExecuteIsaCommand_eq {alu : Alu V} {program : List Instruction} {u : ShaderUnit V}
    (h : u.Ready alu program) (threadCount : BitVec 5) (stream : Nat → V) :
    ∃ u', u.processExecuteIsaCommand alu threadCount stream = .ok (u',
        (List.range (nonZeroCountToInt threadCount)).flatMap fun l => u.threadOutputs alu program
          (fun k => stream (l * u.threadDwords + k))
          (fun k => stream (nonZeroCountToInt threadCount * u.threadDwords + k))
          (fun k => stream (nonZeroCountToInt threadCount * u.threadDwords + u.uniformsDwords + k))) ∧
      u'.isa = u.isa ∧ u'.isaMetadata = u.isaMetadata := by
  -- `u1` has received its inputs, `u2` has run the program
  let u1 := u.started alu (nonZeroCountToInt threadCount) stream
  have hready : u1.Ready alu program :=
    ⟨⟨h.counts.uniforms, h.counts.inputs⟩, h.outputs, h.programLength, h.isa, h.readable⟩
  have hstart : AtInstruction program u1 0 u1 := ⟨rfl, rfl, rfl⟩
  have hlength := length_le_programDwords program
  have hrun := @executeInstructions_eq V alu program u1 hready threadCount.toNat program.length 0
    ((programDwords program).length - program.length) u1 (Nat.zero_add _) hstart rfl
  rw [Nat.add_sub_cancel' hlength, List.drop_zero] at hrun
  let u2 : ShaderUnit V := { u1 with
    gpr := fun l => if l < threadCount.toNat + 1 then
        u1.laneRun alu u1.uniformDwords program (u1.gpr l)
      else u1.gpr l
    pc := (programDwords program).length }
  have hvalues := @appendOutputRegistersValues_eq V u2 h.outputs (nonZeroCountToInt threadCount)
  have houtputs : ∀ l < nonZeroCountToInt threadCount, u2.laneOutputs (u2.gpr l) =
      u.threadOutputs alu program (fun k => stream (l * u.threadDwords + k))
        (fun k => stream (nonZeroCountToInt threadCount * u.threadDwords + k))
        (fun k => stream (nonZeroCountToInt threadCount * u.threadDwords + u.uniformsDwords + k)) := by
    intro l hl
    have hgpr : u2.gpr l = u1.laneRun alu u1.uniformDwords program (u1.gpr l) := if_pos hl
    have hfile : u1.gpr l = u.startLane alu (fun k => stream (l * u.threadDwords + k))
        (fun k => stream (nonZeroCountToInt threadCount * u.threadDwords + u.uniformsDwords + k))
        (fun _ => .replicate alu.zero) := if_pos hl
    have huniforms : ∀ k < u.uniformsDwords, u1.uniformDwords k =
        stream (nonZeroCountToInt threadCount * u.threadDwords + k) := fun k hk => if_pos hk
    rw [hgpr, hfile]
    show u.laneOutputs (u.laneRun alu u1.uniformDwords program _) = _
    rw [laneRun_congr alu u huniforms]
    rfl
  refine ⟨u2, ?_, rfl, rfl⟩
  unfold processExecuteIsaCommand
  dsimp only
  rw [started_eq h.counts, ok_bind]
  show (u1.executeInstructions alu u.isaMetadata.programLength.toNat (threadCount.toNat + 1)
    u.isaMetadata.programLength.toNat >>= _) = _
  rw [h.programLength, hrun, ok_bind]
  show (u2.appendOutputRegistersValues (nonZeroCountToInt threadCount) >>= _) = _
  rw [hvalues, ok_bind]
  show Except.ok _ = Except.ok _
  congr 2
  apply List.flatMap_congr
  intro l hl
  exact houtputs l (List.mem_range.mp hl)

end ShaderUnit

end

end PicoGpu
