import PicoGpu.Assembly
import PicoGpu.ShaderUnit

/- The fetch loop of the shader unit over a program that the encode functions
   wrote: it meets the instructions at their start offsets and ends behind the
   last one. Each encode function appends the dwords of one instruction, the
   switch reads them back in the layout of the opcode, and the increment of `pc`
   is their number (`executeInstruction_encoded`); the rest is an induction over
   the program. -/
namespace PicoGpu

/-! ## The fetch loop -/

section
variable {V : Type} {alu : Alu V}

/-- The immediate values are applied: number `j` to the `j`-th selected component,
    and the last one to those that are left. -/
def AppliesImmediates (alu : Alu V) (i : Instruction) (file file' : LaneFile V) : Prop :=
  match i.opcode.operation alu, i.operands with
  | .unaryImm function, .unaryMathImm dest destMask imms =>
    ∀ j, selects destMask j → (file' dest).get j =
      function (alu.ofDword (imms.getD (min (selectedBefore destMask j) (imms.length - 1)) 0))
  | .binaryImm function, .binaryMathImm dest src destMask imms =>
    ∀ j, selects destMask j → (file' dest).get j = function ((file src).get j)
      (alu.ofDword (imms.getD (min (selectedBefore destMask j) (imms.length - 1)) 0))
  | _, _ => True

theorem appliesImmediates_lane {i : Instruction} (hfit : i.operands.ImmediatesFit)
    (file : LaneFile V) : AppliesImmediates alu i file
      (executeInstructionLane alu (i.opcode.operation alu) i.operands file).1 := by
  obtain ⟨opcode, operands⟩ := i
  unfold AppliesImmediates
  dsimp only
  split
  · next function dest destMask imms hop =>
    intro j hj
    rw [hop]
    simp only [executeInstructionLane]
    rw [writeImmediates_get hfit.1 (fun _ _ _ _ _ => rfl), if_pos ⟨rfl, hj⟩]
  · next function dest src destMask imms hop =>
    intro j hj
    rw [hop]
    simp only [executeInstructionLane]
    rw [writeImmediates_get hfit.1 (fun v _ _ _ hsrc => congrArg (function · v) (hsrc src)), if_pos ⟨rfl, hj⟩]
  · trivial

/-- The unit stands at the start of instruction `k` of the program in its memory. -/
structure AtInstruction (program : List Instruction) (u0 : ShaderUnit V) (k : Nat)
    (u : ShaderUnit V) : Prop where
  isa : u.isa = u0.isa
  isaMetadata : u.isaMetadata = u0.isaMetadata
  pc : u.pc = (programDwords (program.take k)).length

theorem take_dwords {program : List Instruction} {k : Nat} (hk : k < program.length) :
    programDwords (program.take (k + 1)) =
      programDwords (program.take k) ++ program[k].dwords := by
  unfold programDwords
  rw [List.take_add_one, List.getElem?_eq_getElem hk, Option.toList_some, List.flatMap_append,
    List.flatMap_singleton]

/-- The dwords of instruction `k` are in the program at its start offset. -/
theorem dwords_at {program : List Instruction} {k : Nat} (hk : k < program.length) (j : Nat)
    (hj : j < program[k].dwords.length) :
    (programDwords program)[(programDwords (program.take k)).length + j]? =
      some program[k].dwords[j] := by
  have hsplit : programDwords program =
      programDwords (program.take (k + 1)) ++ programDwords (program.drop (k + 1)) := by
    unfold programDwords
    rw [← List.flatMap_append, List.take_append_drop]
  have hlen : (programDwords (program.take k)).length + j <
      (programDwords (program.take (k + 1))).length := by
    rw [take_dwords hk, List.length_append]
    omega
  rw [hsplit, List.getElem?_append_left hlen, take_dwords hk, List.getElem?_append_right (by omega),
    Nat.add_sub_cancel_left, List.getElem?_eq_getElem hj]

/-- One iteration of the loop takes the unit from an instruction to the next. -/
theorem atInstruction_step {program : List Instruction} {u0 u : ShaderUnit V} {k : Nat}
    (h : AtInstruction program u0 k u) (hk : k < program.length) (hu : u0.CountsFit)
    (hisa : ∀ j, ∀ hj : j < (programDwords program).length, u0.isa j = (programDwords program)[j])
    (hr : program[k].Readable alu) (threadCount : Nat) :
    u.fetch alu = .ok (program[k].decoded alu) ∧
    ∃ u', u.executeInstruction alu (threadCount + 1) = .ok u' ∧
      AtInstruction program u0 (k + 1) u' ∧
      ∀ l < threadCount + 1,
        AppliesImmediates alu (program[k].decoded alu) (u.gpr l) (u'.gpr l) := by
  have hread : ∀ j, ∀ hj : j < program[k].dwords.length,
      u.isa (u.pc + j) = program[k].dwords[j] := by
    intro j hj
    obtain ⟨hlt, hget⟩ := List.getElem?_eq_some_iff.mp (dwords_at hk j hj)
    rw [h.isa, h.pc, hisa _ hlt, hget]
  have hcounts : u.CountsFit := ⟨by rw [h.isaMetadata]; exact hu.uniforms,
    by rw [h.isaMetadata]; exact hu.inputs⟩
  have hf := ShaderUnit.fetch_decoded hr hread
  obtain ⟨gpr, hstep, hlanes⟩ := ShaderUnit.executeInstruction_encoded hcounts hf
    (program[k].dispatched_decoded alu) threadCount
  refine ⟨hf, _, hstep, ⟨h.isa, h.isaMetadata, ?_⟩, fun l hl => ?_⟩
  · rw [take_dwords hk, List.length_append, ← h.pc, ← hr]
  · by_cases hn : (program[k].decoded alu).operands.layout = .nullary
    · -- no layout without operands has immediate values
      unfold AppliesImmediates
      split
      · next ho => rw [ho] at hn; exact nomatch hn
      · next ho => rw [ho] at hn; exact nomatch hn
      · trivial
    · show AppliesImmediates alu _ (u.gpr l) (gpr l)
      rw [hlanes hn l hl]
      exact appliesImmediates_lane (program[k].fit_decoded alu) _

/-- After `k` iterations the unit stands at instruction `k`. -/
theorem atInstruction_run {program : List Instruction} {u0 : ShaderUnit V} {isaSize : Nat}
    (hpc : u0.pc = 0) (hu : u0.CountsFit)
    (hisa : ∀ j, ∀ hj : j < (programDwords program).length, u0.isa j = (programDwords program)[j])
    (hsize : isaSize = (programDwords program).length)
    (hr : ∀ i ∈ program, i.Readable alu) (threadCount : Nat) : ∀ k ≤ program.length,
    ∃ u, u0.executeInstructions alu isaSize (threadCount + 1) k = .ok u ∧
      AtInstruction program u0 k u := by
  intro k hk
  induction k with
  | zero => exact ⟨u0, rfl, rfl, rfl, by simp [hpc, programDwords]⟩
  | succ k ih =>
    obtain ⟨u, hrun, hat⟩ := ih (by omega)
    have hmem : program[k] ∈ program := List.getElem_mem (by omega)
    obtain ⟨-, u', hstep, hat', -⟩ := atInstruction_step hat (by omega) hu hisa (hr _ hmem)
      threadCount
    have hlt : u.pc < isaSize := by
      have h0 := @dwords_at program k (by omega) 0 (Nat.succ_pos _)
      obtain ⟨hlt, -⟩ := List.getElem?_eq_some_iff.mp h0
      rw [hat.pc, hsize]
      omega
    exact ⟨u', ShaderUnit.executeInstructions_succ hrun hlt hstep, hat'⟩

/-- The instructions that the loop reads in as many clocks. -/
def ShaderUnit.fetched (alu : Alu V) (isaSize threadCount : Nat) :
    Nat → ShaderUnit V → Except FatalError (List Instruction)
  | 0, _ => .ok []
  | clocks + 1, u =>
    if u.pc < isaSize then do
      let inst ← u.fetch alu
      let u ← u.executeInstruction alu threadCount
      return inst :: (← fetched alu isaSize threadCount clocks u)
    else .ok []

/-- From instruction `k` on the loop reads the program to its end, and no further. -/
theorem fetched_from {program : List Instruction} {u0 : ShaderUnit V} {isaSize : Nat}
    (hu : u0.CountsFit)
    (hisa : ∀ j, ∀ hj : j < (programDwords program).length, u0.isa j = (programDwords program)[j])
    (hsize : isaSize = (programDwords program).length)
    (hr : ∀ i ∈ program, i.Readable alu) (threadCount spare : Nat) :
    ∀ (left k : Nat) (u : ShaderUnit V), k + left = program.length → AtInstruction program u0 k u →
      u.fetched alu isaSize (threadCount + 1) (left + spare) =
        .ok ((program.drop k).map (Instruction.decoded alu)) := by
  intro left
  induction left with
  | zero =>
    intro k u hk hat
    have hend : ¬ u.pc < isaSize := by
      rw [hat.pc, hsize, List.take_of_length_le (by omega)]
      omega
    rw [List.drop_of_length_le (by omega)]
    cases spare with
    | zero => rfl
    | succ spare => exact if_neg hend
  | succ left ih =>
    intro k u hk hat
    have hlt : k < program.length := by omega
    obtain ⟨hf, u', hstep, hat', -⟩ := atInstruction_step hat hlt hu hisa
      (hr _ (List.getElem_mem hlt)) threadCount
    have hpc : u.pc < isaSize := by
      obtain ⟨h0, -⟩ := List.getElem?_eq_some_iff.mp (dwords_at hlt 0 (Nat.succ_pos _))
      rw [hat.pc, hsize]
      omega
    rw [Nat.add_right_comm, ShaderUnit.fetched, if_pos hpc, hf, ok_bind, hstep, ok_bind,
      ih (k + 1) u' (by omega) hat', List.drop_eq_getElem_cons hlt]
    rfl

theorem length_le_programDwords (program : List Instruction) :
    program.length ≤ (programDwords program).length := by
  induction program with
  | nil => exact Nat.zero_le _
  | cons i program ih =>
    have hpos : 1 ≤ i.dwords.length := Nat.succ_pos _
    have hlen : (programDwords (i :: program)).length =
        i.dwords.length + (programDwords program).length := by simp [programDwords]
    rw [hlen, List.length_cons]
    omega

/-- What the loop reads of an assembled binary, given a clock for each of its dwords. -/
theorem fetched_assembled {program : List Instruction} {b : PicoGpuBinary}
    (hb : AssemblerCall.Assembled program b)
    (hlength : b.header.programLength.toNat = b.code.length)
    (hr : ∀ i ∈ program, i.Readable alu) {u : ShaderUnit V} (hpc : u.pc = 0)
    {hasNextCommand : BitVec 1}
    (hmeta : u.isaMetadata = { b.header with hasNextCommand := hasNextCommand })
    (hisa : ∀ j, ∀ hj : j < b.code.length, u.isa j = b.code[j]) (threadCount : BitVec 5)
    {clocks : Nat} (hclocks : b.code.length ≤ clocks) :
    u.fetched alu b.header.programLength.toNat (nonZeroCountToInt threadCount) clocks =
      .ok (program.map (Instruction.decoded alu)) := by
  have hu : u.CountsFit :=
    ⟨by rw [hmeta]; exact hb.counts.uniforms, by rw [hmeta]; exact hb.counts.inputs⟩
  have hread : ∀ j, ∀ hj : j < (programDwords program).length,
      u.isa j = (programDwords program)[j] := by
    rw [← hb.code]
    exact hisa
  have hle : program.length ≤ clocks := by
    have hprogram := length_le_programDwords program
    rw [← hb.code] at hprogram
    omega
  obtain ⟨spare, rfl⟩ := Nat.exists_eq_add_of_le hle
  exact fetched_from hu hread (hlength.trans (by rw [hb.code])) hr threadCount.toNat spare _ 0 u
    (Nat.zero_add _) ⟨rfl, rfl, by simp [hpc, programDwords]⟩

/-! ## The instructions that the assembler adds itself -/

theorem dispatched_interpolation {inputs : InputOutputRegisters} {is : List Instruction}
    (h : PicoGpuBinary.interpolationInstructions inputs = .ok is) : ∀ i ∈ is, i.Dispatched alu := by
  have hdepth : ∀ p r, ∀ i ∈ PicoGpuBinary.depthInstructions p r, i.Dispatched alu := by
    intro p r
    simp only [PicoGpuBinary.depthInstructions, List.forall_mem_cons]
    refine ⟨?_, ?_, ?_, ?_, ?_, ?_, ?_, ?_, ?_, ?_, ?_, ?_, ?_, ?_, ?_, ?_, ?_, ?_, ?_, ?_, ?_, ?_,
      fun _ hi => (nomatch hi)⟩ <;> rfl
  have hattribute : ∀ input r k, ∀ i ∈ PicoGpuBinary.attributeInstructions input r k,
      i.Dispatched alu := by
    intro input r k
    simp only [PicoGpuBinary.attributeInstructions, List.forall_mem_cons]
    refine ⟨?_, ?_, ?_, ?_, ?_, fun _ hi => (nomatch hi)⟩ <;> rfl
  obtain ⟨r, -, h⟩ := bind_ok.mp h
  cases h
  intro i hi
  simp only [List.mem_append] at hi
  rcases hi with (hi | hi) | hi
  · exact hdepth _ _ i hi
  · split at hi
    · exact hattribute _ _ _ i hi
    · exact nomatch hi
  · split at hi
    · exact hattribute _ _ _ i hi
    · exact nomatch hi

theorem dispatched_directives {b : PicoGpuBinary} {is : List Instruction}
    (h : b.directiveInstructions = .ok is) : ∀ i ∈ is, i.Dispatched alu := by
  unfold PicoGpuBinary.directiveInstructions at h
  split at h
  · cases h
    exact fun _ hi => (nomatch hi)
  · obtain ⟨b1, -, h⟩ := bind_ok.mp h
    obtain ⟨b2, -, h⟩ := bind_ok.mp h
    obtain ⟨b3, -, h⟩ := bind_ok.mp h
    obtain ⟨preamble, hpreamble, h⟩ := bind_ok.mp h
    cases h
    intro i hi
    rcases List.mem_append.mp hi with hi | hi
    · split at hpreamble
      · exact dispatched_interpolation hpreamble i hi
      · cases hpreamble
        exact nomatch hi
    · rcases List.mem_cons.mp hi with rfl | hi
      · rfl
      · split at hi
        · exact nomatch hi
        · rw [List.mem_singleton.mp hi]
          rfl

theorem dispatched_final (b : PicoGpuBinary) : ∀ i ∈ b.finalCalls, i.Dispatched alu := by
  unfold PicoGpuBinary.finalCalls
  intro i hi
  split at hi
  · rw [List.mem_singleton.mp hi]
    rfl
  · exact nomatch hi

/-- Every instruction is dispatched to its layout when those of the encode calls are. -/
theorem dispatched_emitted : ∀ {calls : List AssemblerCall} {b : PicoGpuBinary}
    {is : List Instruction}, (∀ i, .encode i ∈ calls → i.Dispatched alu) →
    AssemblerCall.emittedAll calls b = .ok is → ∀ i ∈ is, i.Dispatched alu
  | [], b, is, _, h => by
    cases h
    exact fun _ hi => (nomatch hi)
  | call :: calls, b, is, hd, h => by
    obtain ⟨is1, h1, h⟩ := bind_ok.mp h
    obtain ⟨b1, -, h⟩ := bind_ok.mp h
    obtain ⟨is2, h2, h⟩ := bind_ok.mp h
    cases h
    have ih := dispatched_emitted (fun i hi => hd i (List.mem_cons_of_mem _ hi)) h2
    intro i hi
    rcases List.mem_append.mp hi with hi | hi
    · cases call with
      | encode j =>
        cases h1
        rw [List.mem_singleton.mp hi]
        exact hd j List.mem_cons_self
      | finalizeDirectives => exact dispatched_directives h1 i hi
      | finalizeInstructions =>
        cases h1
        exact dispatched_final b i hi
      | _ =>
        cases h1
        exact nomatch hi
    · exact ih i hi

/-! ## The round trip -/

/-- **Whatever the calls of an assembly are, the fetch loop over its binary meets the
    encoded instructions at their start offsets, reads each as it was encoded and
    applies its immediate values in order, and it ends behind the last one.** -/
theorem encoding_roundtrip {calls : List AssemblerCall} {b : PicoGpuBinary}
    (hd : ∀ i, .encode i ∈ calls → i.Dispatched alu)
    (h : AssemblerCall.performAll (calls ++ [.finalizeInstructions]) .new = .ok b)
    {u : ShaderUnit V} (hpc : u.pc = 0) {hasNextCommand : BitVec 1}
    (hmeta : u.isaMetadata = { b.header with hasNextCommand := hasNextCommand })
    (hisa : ∀ j, ∀ hj : j < b.code.length, u.isa j = b.code[j]) (threadCount : BitVec 5) :
    ∃ program, AssemblerCall.emittedAll (calls ++ [.finalizeInstructions]) .new = .ok program ∧
      b.code = programDwords program ∧
      ∀ k ≤ program.length, ∃ u', u.executeInstructions alu b.header.programLength.toNat
          (nonZeroCountToInt threadCount) k = .ok u' ∧
        u'.pc = (programDwords (program.take k)).length ∧
        (∀ hk : k < program.length, u'.pc < b.header.programLength.toNat ∧
          u'.fetch alu = .ok program[k] ∧
          ∃ u'', u'.executeInstruction alu (nonZeroCountToInt threadCount) = .ok u'' ∧
            ∀ l < nonZeroCountToInt threadCount,
              AppliesImmediates alu program[k] (u'.gpr l) (u''.gpr l)) ∧
        (k = program.length → u'.pc = b.header.programLength.toNat) := by
  obtain ⟨program, hem, hb⟩ := AssemblerCall.assembled_run AssemblerCall.assembled_new h
  have hlength : b.header.programLength.toNat = b.code.length := by
    unfold AssemblerCall.performAll at h
    rw [List.foldlM_append] at h
    obtain ⟨b1, h1, h⟩ := bind_ok.mp h
    obtain ⟨b2, h2, h⟩ := bind_ok.mp h
    cases h
    obtain ⟨_, -, hb1⟩ := AssemblerCall.assembled_run AssemblerCall.assembled_new h1
    exact (PicoGpuBinary.finalizeInstructions_ok h2 hb1.fits).2.2.1
  have hdispatched : ∀ i ∈ program, i.Dispatched alu := by
    refine dispatched_emitted (fun i hi => ?_) hem
    rcases List.mem_append.mp hi with hi | hi
    · exact hd i hi
    · exact nomatch List.mem_singleton.mp hi
  obtain ⟨hcode, hfit, -, hcounts⟩ := hb
  have hu : u.CountsFit := ⟨by rw [hmeta]; exact hcounts.uniforms, by rw [hmeta]; exact hcounts.inputs⟩
  rw [List.nil_append] at hcode hfit
  have hread : ∀ j, ∀ hj : j < (programDwords program).length,
      u.isa j = (programDwords program)[j] := by
    rw [← hcode]
    exact hisa
  refine ⟨program, hem, hcode, fun k hk => ?_⟩
  obtain ⟨u', hrun, hat⟩ := atInstruction_run hpc hu hread (hlength.trans (by rw [hcode]))
    (fun i hi => (hdispatched i hi).readable (hfit i hi)) threadCount.toNat k hk
  refine ⟨u', hrun, hat.pc, fun hk => ?_, ?_⟩
  · have hmem : program[k] ∈ program := List.getElem_mem hk
    have hd := hdispatched _ hmem
    obtain ⟨hf, u'', hstep, -, himms⟩ := atInstruction_step hat hk hu hread
      (hd.readable (hfit _ hmem)) threadCount.toNat
    rw [hd.decoded (hfit _ hmem)] at hf himms
    refine ⟨?_, hf, u'', hstep, himms⟩
    obtain ⟨hlt, -⟩ := List.getElem?_eq_some_iff.mp (dwords_at hk 0 (Nat.succ_pos _))
    rw [hlength, hcode, hat.pc]
    omega
  · rintro rfl
    rw [hat.pc, List.take_length, hlength, hcode]

end

/-- The integer operations on dwords. The float operations are left at zero: the
    program below has none. -/
def integerAlu : Alu Dword where
  zero := 0
  one := 1
  ofDword := id
  fadd := fun _ _ => 0
  fsub := fun _ _ => 0
  fmul := fun _ _ => 0
  fdiv := fun _ _ => 0
  fneg := fun _ => 0
  fsqrt := fun _ => 0
  fmax := fun _ _ => 0
  fmin := fun _ _ => 0
  iadd := fun a b => a + b
  isub := fun a b => a - b
  imul := fun a b => a * b
  idiv := fun a b => a.sdiv b
  ineg := fun a => -a
  imax := fun a b => if a.slt b then b else a
  imin := fun a b => if a.slt b then a else b

/-- Two instructions of a vertex shader, three dwords. -/
def roundtripCalls : List AssemblerCall :=
  [.encodeDirectiveShaderType .vertexShader,
    .encode ⟨.iadd_imm, .binaryMathImm 1 0 0b1100 [5]⟩, .encode ⟨.mov, .unaryMath 2 1 0b1111⟩]

def roundtripBinary : PicoGpuBinary :=
  { PicoGpuBinary.new with
    programType := some .vertexShader
    header := { CommandStoreIsa.zero with programLength := 3 }
    code := [0x00030052, 5, 0x0003c49e] }

/-- A unit that a binary was stored in. -/
def binaryUnit (b : PicoGpuBinary) : ShaderUnit Dword where
  isaMetadata := b.header
  isa := fun j => b.code.getD j 0
  gpr := fun _ _ => .replicate 0
  pc := 0
  uniformDwords := fun _ => 0

theorem encoding_roundtrip_three_dwords : ∃ program,
    AssemblerCall.emittedAll (roundtripCalls ++ [.finalizeInstructions]) .new = .ok program ∧
      roundtripBinary.code = programDwords program ∧
      ∀ k ≤ program.length, ∃ u', (binaryUnit roundtripBinary).executeInstructions integerAlu
          roundtripBinary.header.programLength.toNat (nonZeroCountToInt (31 : BitVec 5)) k =
          .ok u' ∧
        u'.pc = (programDwords (program.take k)).length ∧
        (∀ hk : k < program.length, u'.pc < roundtripBinary.header.programLength.toNat ∧
          u'.fetch integerAlu = .ok program[k] ∧
          ∃ u'', u'.executeInstruction integerAlu (nonZeroCountToInt (31 : BitVec 5)) = .ok u'' ∧
            ∀ l < nonZeroCountToInt (31 : BitVec 5),
              AppliesImmediates integerAlu program[k] (u'.gpr l) (u''.gpr l)) ∧
        (k = program.length → u'.pc = roundtripBinary.header.programLength.toNat) := by
  refine @encoding_roundtrip _ integerAlu roundtripCalls _ ?_ ?_ (binaryUnit roundtripBinary) rfl 0 rfl ?_ 31
  · intro i hi
    simp only [roundtripCalls, List.mem_cons, reduceCtorEq, AssemblerCall.encode.injEq, false_or,
      List.not_mem_nil, or_false] at hi
    rcases hi with rfl | rfl <;> rfl
  · rfl
  · intro j hj
    exact (List.getElem_eq_getD 0).symm

end PicoGpu
