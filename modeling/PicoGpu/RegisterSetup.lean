import PicoGpu.CommandLoop
import Mathlib.Order.Fin.Basic

/- The registers at the first instruction of the source. The directive section emits a
   prologue: the interpolation of a fragment shader, then `lduni`, then `initregs`. The
   last two leave nothing of what came before in a register that is not an input. -/
namespace PicoGpu

section
variable {V : Type}

namespace ShaderUnit

/-! ## lduni and initregs -/

theorem isBitSet_foldl_setBit (registers : List RegisterIndex) (mask : BitVec 16)
    (r : RegisterIndex) :
    isBitSet (registers.foldl (fun mask register => setBit mask register.val) mask) r.val = true ↔
      isBitSet mask r.val = true ∨ r ∈ registers := by
  induction registers generalizing mask with
  | nil => simp
  | cons register registers ih =>
    rw [List.foldl_cons, ih, RegisterAllocator.isBitSet_setBit mask register.val r.isLt,
      Bool.or_eq_true, decide_eq_true_eq, List.mem_cons, or_assoc]
    simp only [Fin.ext_iff]

theorem isBitSet_usedRegisters (u : ShaderUnit V) (r : RegisterIndex) :
    isBitSet u.usedRegisters r.val = true ↔
      r ∈ u.uniformsOf.map Prod.fst ∨ r ∈ u.inputsOf.map Prod.fst := by
  unfold usedRegisters
  rw [isBitSet_foldl_setBit, List.map_append, List.mem_append]
  simp [isBitSet]

/-- The instructions that end the prologue. -/
def registerSetup : List Instruction := [⟨.lduni, .nullary⟩, ⟨.initregs, .nullary⟩]

theorem laneRun_append (alu : Alu V) (u : ShaderUnit V) (uniforms : Nat → V)
    (program program' : List Instruction) (file : LaneFile V) :
    u.laneRun alu uniforms (program ++ program') file =
      u.laneRun alu uniforms program' (u.laneRun alu uniforms program file) := by
  unfold laneRun
  rw [List.map_append, List.foldl_append]

/-- The uniforms are stored, and what is neither an input nor a uniform is cleared. -/
theorem laneRun_registerSetup (alu : Alu V) (u : ShaderUnit V) (uniforms : Nat → V)
    (file : LaneFile V) (r : RegisterIndex) :
    u.laneRun alu uniforms registerSetup file r =
      if r ∈ u.uniformsOf.map Prod.fst ∨ r ∈ u.inputsOf.map Prod.fst then
        storeRegisters (fun _ => .replicate alu.zero) u.uniformsOf uniforms file r
      else .replicate alu.zero := by
  have hrun : u.laneRun alu uniforms registerSetup file r =
      if isBitSet u.usedRegisters r.val = true then
        storeRegisters (fun _ => .replicate alu.zero) u.uniformsOf uniforms file r
      else .replicate alu.zero := rfl
  rw [hrun]
  simp only [isBitSet_usedRegisters]

/-- A uniform, whatever was in its register. -/
theorem registerSetup_uniform (alu : Alu V) (u : ShaderUnit V)
    (hnodup : (u.uniformsOf.map Prod.fst).Nodup) (uniforms : Nat → V) (file : LaneFile V) {i : Nat}
    (hi : i < u.uniformsOf.length) (c : Fin 4) :
    (u.laneRun alu uniforms registerSetup file u.uniformsOf[i].1).get c =
      if c.val < u.uniformsOf[i].2 then uniforms (offsetOf u.uniformsOf i + c) else alu.zero := by
  have hmem : u.uniformsOf[i].1 ∈ u.uniformsOf.map Prod.fst :=
    List.mem_map_of_mem (List.getElem_mem hi)
  rw [laneRun_registerSetup, if_pos (Or.inl hmem), storeRegisters_at _ hnodup hi,
    copyComponents_get, VectorRegister.replicate_get]

/-- An input that is not a uniform keeps what it had. -/
theorem registerSetup_input (alu : Alu V) (u : ShaderUnit V) (uniforms : Nat → V)
    (file : LaneFile V) {r : RegisterIndex} (hinput : r ∈ u.inputsOf.map Prod.fst)
    (huniform : r ∉ u.uniformsOf.map Prod.fst) :
    u.laneRun alu uniforms registerSetup file r = file r := by
  rw [laneRun_registerSetup, if_pos (Or.inr hinput), storeRegisters_of_notMem _ huniform]

end ShaderUnit

end

/-! ## The prologue -/

open PicoGpuBinary

/-- The directives themselves emit nothing. -/
theorem emittedAll_directives (directives : List Directive) {calls : List AssemblerCall}
    {b b1 : PicoGpuBinary} (h : AssemblerCall.performAll (directives.map Directive.call) b = .ok b1) :
    AssemblerCall.emittedAll (directives.map Directive.call ++ calls) b =
      AssemblerCall.emittedAll calls b1 := by
  induction directives generalizing b with
  | nil =>
    cases h
    rfl
  | cons d directives ih =>
    obtain ⟨b2, h2, h⟩ := bind_ok.mp h
    have h2 : d.call.perform b = .ok b2 := h2
    have hnone : d.call.emitted b = .ok [] := by cases d <;> rfl
    rw [List.map_cons, List.cons_append, AssemblerCall.emittedAll, hnone, ok_bind, h2, ok_bind, ih h]
    cases AssemblerCall.emittedAll calls b1 with
    | ok instructions => rfl
    | error e => rfl

theorem call_keeps_undefinedRegs {d : Directive} {b b' : PicoGpuBinary} (hd : d ≠ .undefinedRegs)
    (h : d.call.perform b = .ok b') (hb : b.CountsFit) :
    b'.undefinedRegs = b.undefinedRegs ∧ b'.CountsFit := by
  have hregister : ∀ {reg mask ioType}, b.encodeDirectiveInputOutput reg mask ioType = .ok b' →
      b'.undefinedRegs = b.undefinedRegs ∧ b'.CountsFit := by
    intro reg mask ioType h
    obtain ⟨hsame, hcounts⟩ := encodeDirectiveInputOutput_ok h hb
    exact ⟨hsame.undefinedRegs, hcounts⟩
  have htype : ∀ {programType}, b.encodeDirectiveShaderType programType = b' →
      b'.undefinedRegs = b.undefinedRegs ∧ b'.CountsFit := by
    rintro programType rfl
    unfold encodeDirectiveShaderType
    split
    · exact ⟨rfl, hb.addError _⟩
    · exact ⟨rfl, hb.registers, hb.uniforms, hb.inputs⟩
  cases d with
  | input => exact hregister h
  | output => exact hregister h
  | uniform => exact hregister h
  | vertexShader => exact htype (Except.ok.inj h)
  | fragmentShader => exact htype (Except.ok.inj h)
  | undefinedRegs => exact absurd rfl hd

/-- Without `#undefinedRegs` the flag stays as it was. -/
theorem directives_keep_undefinedRegs (directives : List Directive) {b b1 : PicoGpuBinary}
    (h : AssemblerCall.performAll (directives.map Directive.call) b = .ok b1) (hb : b.CountsFit)
    (hzeroed : .undefinedRegs ∉ directives) :
    b1.undefinedRegs = b.undefinedRegs ∧ b1.CountsFit := by
  induction directives generalizing b with
  | nil =>
    cases h
    exact ⟨rfl, hb⟩
  | cons d directives ih =>
    obtain ⟨b2, h2, h⟩ := bind_ok.mp h
    rw [List.mem_cons, not_or] at hzeroed
    obtain ⟨hsame, hcounts⟩ := call_keeps_undefinedRegs (Ne.symm hzeroed.1) h2 hb
    obtain ⟨hsame', hcounts'⟩ := ih h hcounts hzeroed.2
    exact ⟨hsame'.trans hsame, hcounts'⟩

theorem directiveInstructions_setup {b : PicoGpuBinary} (hb : b.CountsFit)
    {programType : ProgramType} (htype : b.programType = some programType)
    (hzeroed : b.undefinedRegs = false) {prologue : List Instruction}
    (h : b.directiveInstructions = .ok prologue) :
    ∃ preamble, prologue = preamble ++ ShaderUnit.registerSetup ∧
      (programType = .vertexShader → preamble = []) := by
  unfold directiveInstructions at h
  rw [htype] at h
  obtain ⟨b1, h1, h⟩ := bind_ok.mp h
  obtain ⟨b2, h2, h⟩ := bind_ok.mp h
  obtain ⟨b3, h3, h⟩ := bind_ok.mp h
  obtain ⟨preamble, hpreamble, h⟩ := bind_ok.mp h
  cases h
  have htype0 : (b.storeProgramType programType).programType = some programType := htype
  have hb0 : (b.storeProgramType programType).CountsFit := ⟨hb.registers, hb.uniforms, hb.inputs⟩
  obtain ⟨hsame1, hfit1⟩ := finalizeInputOutputDirectives_ok h1 hb0 (by rw [htype0]; rfl)
  obtain ⟨hsame2, hfit2⟩ := finalizeInputOutputDirectives_ok h2 hfit1
    (by rw [hsame1.programType, htype0]; rfl)
  obtain ⟨hsame3, -⟩ := finalizeInputOutputDirectives_ok h3 hfit2
    (by rw [hsame2.programType, hsame1.programType, htype0]; rfl)
  have hsame := (hsame1.trans hsame2).trans hsame3
  have hregs : b3.undefinedRegs = false := hsame.undefinedRegs.trans hzeroed
  refine ⟨preamble, by rw [hregs]; rfl, ?_⟩
  rintro rfl
  rw [hsame.programType, htype0, if_neg (by decide)] at hpreamble
  cases hpreamble
  rfl

/-- What the directives of an accepted source without `#undefinedRegs` emit. -/
theorem prologue_parsed {p : Program} {b : PicoGpuBinary} (h : p.parse .new = .ok b)
    (hzeroed : .undefinedRegs ∉ p.directives) : ∃ preamble,
      AssemblerCall.emittedAll p.directiveCalls .new = .ok (preamble ++ ShaderUnit.registerSetup) ∧
        (b.header.programType = .vertexShader → preamble = []) := by
  obtain ⟨prologue, hem, -⟩ := parse_assembled h
  obtain ⟨program, hb⟩ := Program.parse_parsed h
  obtain ⟨b2, h2, h⟩ := bind_ok.mp h
  obtain ⟨b3, h3, h⟩ := Program.parseInstructions_ok h
  obtain ⟨b1, h1, hfinalize⟩ := AssemblerCall.performAll_append.mp (Program.parseDirectives_ok h2)
  obtain ⟨hflag, hcounts⟩ := directives_keep_undefinedRegs p.directives h1 countsFit_new hzeroed
  obtain ⟨b2', hfinalize, hnil⟩ := bind_ok.mp hfinalize
  cases hnil
  obtain ⟨-, -, -, htype2, -⟩ := finalizeDirectives_ok hfinalize hcounts
  obtain ⟨code, programLength, hframe⟩ := instructionSection_frame h3 h
  have htype : b1.programType = some b.header.programType := by
    rw [← hb.accepted.programType, hframe, htype2]
  have hprologue : b1.directiveInstructions = .ok prologue := by
    rw [Program.directiveCalls, emittedAll_directives p.directives h1] at hem
    obtain ⟨instructions, hinstructions, hem⟩ := bind_ok.mp hem
    have hinstructions : b1.directiveInstructions = .ok instructions := hinstructions
    obtain ⟨b4, -, hem⟩ := bind_ok.mp hem
    cases hem
    rw [List.append_nil]
    exact hinstructions
  obtain ⟨preamble, rfl, hvs⟩ := directiveInstructions_setup hcounts htype hflag hprologue
  exact ⟨preamble, hem, hvs⟩

/-! ## The first instruction of the source -/

section
variable {V : Type}

/-- The registers of a lane as they are documented: uniforms and inputs in their components,
    and zero everywhere else. -/
structure RegistersSetUp (alu : Alu V) (b : PicoGpuBinary) (uniforms inputs : List V)
    (file : LaneFile V) : Prop where
  uniform : ∀ i, ∀ hi : i < b.uniforms.registers.length, ∀ c : Fin 4,
    (file b.uniforms.registers[i].1).get c =
      if c.val < b.uniforms.registers[i].2 then
        uniforms.getD (offsetOf b.uniforms.registers i + c) alu.zero
      else alu.zero
  input : b.header.programType = .vertexShader →
    ∀ i, ∀ hi : i < b.inputs.registers.length, ∀ c : Fin 4,
      (file b.inputs.registers[i].1).get c =
        if c.val < b.inputs.registers[i].2 then
          inputs.getD (offsetOf b.inputs.registers i + c) alu.zero
        else alu.zero
  other : ∀ r, r ∉ b.uniforms.registers.map Prod.fst → r ∉ b.inputs.registers.map Prod.fst →
    file r = .replicate alu.zero

/-- The dwords of a batch: the inputs of its threads, the uniforms, the attributes. -/
def batchStream (alu : Alu V) (threads : List (List V)) (uniforms attributes : List V) (k : Nat) : V :=
  (threads.flatten ++ uniforms ++ attributes).getD k alu.zero

section
variable {alu : Alu V} {threads : List (List V)} {size : Nat} {uniforms attributes : List V}

theorem batchStream_thread (hthreads : ∀ thread ∈ threads, thread.length = size) {l k : Nat}
    (hl : l < threads.length) (hk : k < size) :
    batchStream alu threads uniforms attributes (l * size + k) = threads[l].getD k alu.zero := by
  unfold batchStream
  rw [List.append_assoc, getD_flatten hthreads _ _ hl hk]

theorem batchStream_uniform (hthreads : ∀ thread ∈ threads, thread.length = size) {k : Nat}
    (hk : k < uniforms.length) :
    batchStream alu threads uniforms attributes (threads.length * size + k) =
      uniforms.getD k alu.zero := by
  unfold batchStream
  rw [List.append_assoc, ← length_flatten hthreads,
    List.getD_append_right _ _ _ _ (Nat.le_add_right _ _), Nat.add_sub_cancel_left,
    List.getD_append _ _ _ _ hk]

end

theorem ShaderUnit.Runs.inputsOf_fst {b : PicoGpuBinary} {u : ShaderUnit V} (hu : u.Runs b)
    (hb : b.Accepted) : u.inputsOf.map Prod.fst = b.inputs.registers.map Prod.fst := by
  rw [hu.inputsOf hb, PicoGpuBinary.streamInputs]
  split
  · cases b.inputs.registers <;> rfl
  · rfl

/-- `lduni` and `initregs` set up the registers, whatever the preamble has left in them; in a
    vertex shader there is no preamble. -/
theorem registersSetUp {b : PicoGpuBinary} (hb : b.Accepted)
    (hdisjoint : ∀ r ∈ b.inputs.registers.map Prod.fst, r ∉ b.uniforms.registers.map Prod.fst)
    (alu : Alu V) {u : ShaderUnit V} (hu : u.Runs b) {uniforms inputs : List V}
    {uniformDwords perThread : Nat → V}
    (huniforms : ∀ k < b.uniforms.sizes.sum, uniformDwords k = uniforms.getD k alu.zero)
    (hinputs : ∀ k < b.threadDwords, perThread k = inputs.getD k alu.zero) (attributes : Nat → V)
    {preamble : List Instruction} (hvs : b.header.programType = .vertexShader → preamble = []) :
    RegistersSetUp alu b uniforms inputs (u.laneRun alu uniformDwords
      (preamble ++ ShaderUnit.registerSetup)
      (u.startLane alu perThread attributes fun _ => .replicate alu.zero)) := by
  rw [ShaderUnit.laneRun_append]
  generalize hfile : u.laneRun alu uniformDwords preamble _ = file
  constructor
  · intro i hi c
    have hnodup := InputOutputRegisters.registers_nodup (hb.wellFormed .uniform)
    have hset := @ShaderUnit.registerSetup_uniform V alu u (by rw [hu.uniformsOf hb]; exact hnodup)
      uniformDwords file
    simp only [hu.uniformsOf hb] at hset
    rw [hset hi c]
    split
    · next hc =>
      have hle := offsetOf_add_le hi
      apply huniforms
      unfold InputOutputRegisters.sizes
      omega
    · rfl
  · intro hvertex i hi c
    have hnot : b.header.programType ≠ .fragmentShader := by
      rw [hvertex]
      decide
    have hfs : u.isFs = false := by
      rw [hu.isFs, hvertex]
      rfl
    have hregisters : u.inputsOf = b.inputs.registers := by
      rw [hu.inputsOf hb, streamInputs_vs hnot]
    have hnodup := InputOutputRegisters.registers_nodup (hb.wellFormed .input)
    have hmem : b.inputs.registers[i].1 ∈ b.inputs.registers.map Prod.fst :=
      List.mem_map_of_mem (List.getElem_mem hi)
    have hstart := @ShaderUnit.startLane_vs V u hfs (by rw [hregisters]; exact hnodup) alu perThread
      attributes fun _ => .replicate alu.zero
    simp only [hregisters] at hstart
    rw [ShaderUnit.registerSetup_input alu u _ _ (by rw [hregisters]; exact hmem)
      (by rw [hu.uniformsOf hb]; exact hdisjoint _ hmem), ← hfile, hvs hvertex]
    show (u.startLane alu _ _ _ _).get c = _
    rw [hstart hi c]
    split
    · next hc =>
      have hle := offsetOf_add_le hi
      apply hinputs
      rw [PicoGpuBinary.threadDwords, if_neg hnot]
      unfold InputOutputRegisters.sizes
      omega
    · exact VectorRegister.replicate_get _ c
  · intro r huniform hinput
    rw [ShaderUnit.laneRun_registerSetup, if_neg]
    rw [hu.uniformsOf hb, hu.inputsOf_fst hb]
    rintro (hr | hr)
    · exact huniform hr
    · exact hinput hr

/-- **Behind the prologue, each lane has its uniforms, a vertex shader its inputs, and every
    register that is neither is zero.** -/
theorem registers_at_first_instruction {p : Program} {b : PicoGpuBinary}
    (h : p.parse .new = .ok b) (hzeroed : .undefinedRegs ∉ p.directives)
    (hdisjoint : ∀ r ∈ b.inputs.registers.map Prod.fst, r ∉ b.uniforms.registers.map Prod.fst)
    (alu : Alu V) {u : ShaderUnit V} (hu : u.HoldsBinary b) {threads : List (List V)}
    (hcount : 1 ≤ threads.length ∧ threads.length ≤ 32)
    (hthreads : ∀ thread ∈ threads, thread.length = b.threadDwords) {uniforms : List V}
    (huniforms : uniforms.length = b.uniforms.sizes.sum) (attributes : List V) :
    ∃ prologue u0 u', AssemblerCall.emittedAll p.directiveCalls .new = .ok prologue ∧
      b.code = programDwords prologue ++
        programDwords (p.instructions.map SourceInstruction.encoded ++ b.finalCalls) ∧
      (u.clearRegisters alu).initializeInputRegisters alu threads.length
        (batchStream alu threads uniforms attributes) = .ok u0 ∧
      u0.executeInstructions alu u0.isaMetadata.programLength.toNat threads.length prologue.length =
        .ok u' ∧
      u'.pc = (programDwords prologue).length ∧
      ∀ l, ∀ hl : l < threads.length, RegistersSetUp alu b uniforms threads[l] (u'.gpr l) := by
  obtain ⟨preamble, hem, hvs⟩ := prologue_parsed h hzeroed
  have hb := Program.parsed_of_emitted h hem
  have hready : u.Ready alu _ := hu.ready hb
  have hruns : u.Runs b := hu.isaMetadata
  obtain ⟨t, ht⟩ : ∃ t, threads.length = t + 1 := ⟨threads.length - 1, by omega⟩
  let u0 := u.started alu threads.length (batchStream alu threads uniforms attributes)
  have hready0 : u0.Ready alu (preamble ++ ShaderUnit.registerSetup ++
      p.instructions.map SourceInstruction.encoded ++ b.finalCalls) :=
    hready.congr rfl rfl
  have hrun := ShaderUnit.executeInstructions_take hready0 t ⟨rfl, rfl, rfl⟩
    (preamble ++ ShaderUnit.registerSetup).length (by
      simp only [List.length_append]
      omega)
  rw [List.append_assoc, List.take_left, ← ht, ← List.append_assoc] at hrun
  rw [← hready0.programLength] at hrun
  refine ⟨_, u0, _, hem, ?_, ShaderUnit.started_eq hready.counts alu threads.length _, hrun, rfl, ?_⟩
  · rw [hb.code]
    simp only [programDwords, List.flatMap_append, List.append_assoc]
  · intro l hl
    have hgpr : u0.gpr l = u.startLane alu _ _ _ := if_pos hl
    have hsize := hu.threadDwords hb.accepted
    dsimp only
    rw [if_pos hl, hgpr]
    apply registersSetUp (u := u0) hb.accepted hdisjoint alu hruns _ _ _ hvs
    · intro k hk
      have hk' : k < u.uniformsDwords := by rwa [hruns.uniformsDwords hb.accepted]
      show (if k < u.uniformsDwords then _ else _) = _
      rw [if_pos hk', hsize]
      apply batchStream_uniform hthreads
      rwa [huniforms]
    · intro k hk
      rw [hsize]
      exact batchStream_thread hthreads hl hk

end

/-- The inputs of two threads. -/
def twoThreads : List (List Dword) := [[1, 2, 3, 4], [5, 6, 7, 8]]

theorem registers_at_first_instruction_one_input : ∃ prologue u0 u',
    AssemblerCall.emittedAll (oneInstruction .trap).directiveCalls .new = .ok prologue ∧
      (parsedBinary .trap).code = programDwords prologue ++
        programDwords ((oneInstruction .trap).instructions.map SourceInstruction.encoded ++
          (parsedBinary .trap).finalCalls) ∧
      ((binaryUnit (parsedBinary .trap)).clearRegisters integerAlu).initializeInputRegisters integerAlu
        twoThreads.length (batchStream integerAlu twoThreads [] []) = .ok u0 ∧
      u0.executeInstructions integerAlu u0.isaMetadata.programLength.toNat twoThreads.length
        prologue.length = .ok u' ∧
      u'.pc = (programDwords prologue).length ∧
      ∀ l, ∀ hl : l < twoThreads.length,
        RegistersSetUp integerAlu (parsedBinary .trap) [] twoThreads[l] (u'.gpr l) :=
  @registers_at_first_instruction Dword (oneInstruction .trap) (parsedBinary .trap) rfl (by decide)
    (by decide) integerAlu _ binaryUnit_holdsBinary twoThreads (by decide) (by decide) [] rfl []

end PicoGpu
