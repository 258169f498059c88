import PicoGpu.CommandLoop

/- The integer divisions of a shader.

   Correspondence (shader_unit.cpp ↔ here):
     a call of the lambda of `idiv` or `idiv_imm`   ↔ `IntegerDivision`
     the loops over the components, with the calls  ↔ `maskedCalls`, `immediateCalls`
     `executeInstructions`, with the calls          ↔ `ShaderUnit.divisions`
   The lambdas divide with the `/` of C++, which is undefined for a divisor of zero and
   where the quotient does not fit; the process is killed then. Nothing checks the
   operands before. -/
namespace PicoGpu

/-- The arguments of a lambda that divides. -/
structure IntegerDivision where
  src1 : Dword
  src2 : Dword
  deriving DecidableEq, Repr

/-- The quotient of the two ints exists and is an int. -/
def IntegerDivision.Defined (d : IntegerDivision) : Prop :=
  d.src2 ≠ 0 ∧ ¬ (d.src1 = BitVec.intMin 32 ∧ d.src2 = -1)

instance (d : IntegerDivision) : Decidable d.Defined :=
  inferInstanceAs (Decidable (_ ∧ _))

/-- What the lambda returns for its arguments. -/
def Alu.quotient (alu : Alu Dword) (d : IntegerDivision) : Dword := alu.idiv d.src1 d.src2

/-! ## The calls of one lane -/

section
variable (alu : Alu Dword) (destMask : BitVec 4) (dest : RegisterIndex)

/-- The loop of `writeMasked` with the calls that compute the components. -/
def maskedCalls (call : LaneFile Dword → Fin 4 → IntegerDivision) :
    List (Fin 4) → LaneFile Dword → LaneFile Dword × List IntegerDivision
  | [], file => (file, [])
  | i :: l, file =>
    if selects destMask i then
      let (file', calls) := maskedCalls call l (file.assign dest i (alu.quotient (call file i)))
      (file', call file i :: calls)
    else maskedCalls call l file

/-- The loop of `writeImmediates` with the calls that compute the components. -/
def immediateCalls (immCount : Nat) (immediateValues : Nat → Dword)
    (call : Dword → LaneFile Dword → Fin 4 → IntegerDivision) :
    List (Fin 4) → LaneFile Dword → Nat → LaneFile Dword × List IntegerDivision
  | [], file, _ => (file, [])
  | i :: l, file, immediateValueIndex =>
    if selects destMask i then
      let src2 := immediateValues immediateValueIndex
      let (file', calls) := immediateCalls immCount immediateValues call l
        (file.assign dest i (alu.quotient (call src2 file i)))
        (if immediateValueIndex + 1 < immCount then immediateValueIndex + 1
          else immediateValueIndex)
      (file', call src2 file i :: calls)
    else immediateCalls immCount immediateValues call l file immediateValueIndex

/-- The arguments of `idiv`. -/
def registerCall (src1 src2 : RegisterIndex) (file : LaneFile Dword) (i : Fin 4) :
    IntegerDivision := ⟨(file src1).get i, (file src2).get i⟩

/-- The arguments of `idiv_imm`. -/
def immediateCall (src : RegisterIndex) (src2 : Dword) (file : LaneFile Dword) (i : Fin 4) :
    IntegerDivision := ⟨(file src).get i, src2⟩

/-- The divisions of a lane for an instruction. -/
def laneDivisions (inst : Instruction) (file : LaneFile Dword) : List IntegerDivision :=
  match inst.opcode, inst.operands with
  | .idiv, .binaryMath dest src1 src2 destMask =>
    (maskedCalls alu destMask dest (registerCall src1 src2) [0, 1, 2, 3] file).2
  | .idiv_imm, .binaryMathImm dest src destMask imms =>
    (immediateCalls alu destMask dest imms.length (fun k => alu.ofDword (imms.getD k 0))
      (immediateCall src) [0, 1, 2, 3] file 0).2
  | _, _ => []

variable {alu destMask dest}

/-- The calls go with the writes of the interpreter. -/
theorem maskedCalls_fst (src1 src2 : RegisterIndex) (file : LaneFile Dword) :
    (maskedCalls alu destMask dest (registerCall src1 src2) [0, 1, 2, 3] file).1 =
      (executeInstructionLane alu (Opcode.operation alu .idiv)
        (.binaryMath dest src1 src2 destMask) file).1 := by
  have hloop : ∀ (l : List (Fin 4)) (file : LaneFile Dword),
      (maskedCalls alu destMask dest (registerCall src1 src2) l file).1 =
        l.foldl (fun file i => if selects destMask i then
          file.assign dest i (alu.idiv ((file src1).get i) ((file src2).get i)) else file) file := by
    intro l
    induction l with
    | nil => exact fun _ => rfl
    | cons i l ih =>
      intro file
      rw [maskedCalls, List.foldl_cons]
      split <;> exact ih _
  exact hloop _ file

theorem immediateCalls_fst (src : RegisterIndex) (imms : List Dword) (file : LaneFile Dword) :
    (immediateCalls alu destMask dest imms.length (fun k => alu.ofDword (imms.getD k 0))
      (immediateCall src) [0, 1, 2, 3] file 0).1 =
      (executeInstructionLane alu (Opcode.operation alu .idiv_imm)
        (.binaryMathImm dest src destMask imms) file).1 := by
  have hloop : ∀ (l : List (Fin 4)) (file : LaneFile Dword) (index : Nat),
      (immediateCalls alu destMask dest imms.length (fun k => alu.ofDword (imms.getD k 0))
        (immediateCall src) l file index).1 =
      (l.foldl (fun (file, immediateValueIndex) i =>
        if selects destMask i then
          (file.assign dest i (alu.idiv ((file src).get i)
            (alu.ofDword (imms.getD immediateValueIndex 0))),
            if immediateValueIndex + 1 < imms.length then immediateValueIndex + 1
            else immediateValueIndex)
        else (file, immediateValueIndex)) (file, index)).1 := by
    intro l
    induction l with
    | nil => exact fun _ _ => rfl
    | cons i l ih =>
      intro file index
      rw [immediateCalls, List.foldl_cons]
      cases hs : selects destMask i with
      | true =>
        simp only [if_true]
        exact ih _ _
      | false =>
        simp only [Bool.false_eq_true, if_false]
        exact ih _ _
  exact hloop _ file 0

/-- The arguments of a component are taken from the same component of other registers. -/
def CallsComponentwise (call : LaneFile Dword → Fin 4 → IntegerDivision) : Prop :=
  ∀ file file' i, (∀ r, (file r).get i = (file' r).get i) → call file i = call file' i

theorem CallsComponentwise.assign {call : LaneFile Dword → Fin 4 → IntegerDivision}
    (h : CallsComponentwise call) {i j : Fin 4} (hne : j ≠ i) (file : LaneFile Dword)
    (dest : RegisterIndex) (v : Dword) : call (file.assign dest i v) j = call file j := by
  apply h
  intro r
  rw [LaneFile.get_assign, if_neg fun hr => hne hr.2]

theorem registerCall_componentwise (src1 src2 : RegisterIndex) :
    CallsComponentwise (registerCall src1 src2) := by
  intro file file' i h
  unfold registerCall
  rw [h, h]

theorem immediateCall_componentwise (src : RegisterIndex) (src2 : Dword) :
    CallsComponentwise (immediateCall src src2) := by
  intro file file' i h
  unfold immediateCall
  rw [h]

/-- Each selected component is computed once, from the registers as they were. -/
theorem mem_maskedCalls {call : LaneFile Dword → Fin 4 → IntegerDivision}
    (h : CallsComponentwise call) {file : LaneFile Dword} {d : IntegerDivision}
    (l : List (Fin 4)) (hl : l.Nodup) (current : LaneFile Dword)
    (hsame : ∀ i ∈ l, call current i = call file i) :
    d ∈ (maskedCalls alu destMask dest call l current).2 ↔
      ∃ i ∈ l, selects destMask i = true ∧ d = call file i := by
  induction l generalizing current with
  | nil => simp [maskedCalls]
  | cons i l ih =>
    obtain ⟨hi, hl⟩ := List.nodup_cons.mp hl
    have hhere := hsame i List.mem_cons_self
    have hrest : ∀ j ∈ l, call current j = call file j :=
      fun j hj => hsame j (List.mem_cons_of_mem _ hj)
    rw [maskedCalls, List.exists_mem_cons_iff]
    cases hs : selects destMask i with
    | true =>
      have hnext : ∀ v, ∀ j ∈ l, call (current.assign dest i v) j = call file j := by
        intro v j hj
        have hne : j ≠ i := fun heq => hi (heq ▸ hj)
        rw [h.assign hne, hrest j hj]
      simp only [if_true, List.mem_cons, hhere, true_and]
      rw [ih hl _ (hnext _)]
    | false =>
      simp only [Bool.false_eq_true, if_false, false_and, false_or]
      exact ih hl _ hrest

/-- The immediate values come with the components as `writeImmediates` gives them. -/
theorem mem_immediateCalls {immCount : Nat} {imm : Nat → Dword}
    {call : Dword → LaneFile Dword → Fin 4 → IntegerDivision}
    (h : ∀ v, CallsComponentwise (call v)) {file : LaneFile Dword} {d : IntegerDivision}
    (l : List (Fin 4)) (hl : l.Nodup) (current : LaneFile Dword) (index : Nat)
    (hsame : ∀ v, ∀ i ∈ l, call v current i = call v file i) :
    d ∈ (immediateCalls alu destMask dest immCount imm call l current index).2 ↔
      ∃ i ∈ l, selects destMask i = true ∧
        d = call (imm (immediateIndex destMask immCount l index i)) file i := by
  induction l generalizing current index with
  | nil => simp [immediateCalls]
  | cons i l ih =>
    obtain ⟨hi, hl⟩ := List.nodup_cons.mp hl
    have hhere := fun v => hsame v i List.mem_cons_self
    have hrest : ∀ v, ∀ j ∈ l, call v current j = call v file j :=
      fun v j hj => hsame v j (List.mem_cons_of_mem _ hj)
    let next := if selects destMask i then
      if index + 1 < immCount then index + 1 else index else index
    have htail : (∃ j ∈ l, selects destMask j = true ∧
          d = call (imm (immediateIndex destMask immCount (i :: l) index j)) file j) ↔
        ∃ j ∈ l, selects destMask j = true ∧
          d = call (imm (immediateIndex destMask immCount l next j)) file j := by
      refine exists_congr fun j => and_congr_right fun hj => ?_
      have hne : j ≠ i := fun heq => hi (heq ▸ hj)
      rw [immediateIndex, if_neg hne]
    rw [immediateCalls, List.exists_mem_cons_iff, htail, immediateIndex, if_pos rfl]
    cases hs : selects destMask i with
    | true =>
      have hnext : ∀ x v, ∀ j ∈ l, call v (current.assign dest i x) j = call v file j := by
        intro x v j hj
        have hne : j ≠ i := fun heq => hi (heq ▸ hj)
        rw [(h v).assign hne, hrest v j hj]
      simp only [if_true, List.mem_cons, hhere, true_and]
      rw [ih hl _ _ (hnext _)]
      simp only [next, hs, if_true]
    | false =>
      simp only [Bool.false_eq_true, if_false, false_and, false_or]
      rw [ih hl _ _ hrest]
      simp only [next, hs, Bool.false_eq_true, if_false]

/-- No selected component of the divisor is zero, and none is -1 where the dividend is the
    smallest int; component number `k` of the immediate values goes with selected component
    number `k`, and the last one with those that are left. -/
def DividesWell (alu : Alu Dword) (inst : Instruction) (file : LaneFile Dword) : Prop :=
  match inst.opcode, inst.operands with
  | .idiv, .binaryMath _ src1 src2 destMask => ∀ i, selects destMask i = true →
    IntegerDivision.Defined ⟨(file src1).get i, (file src2).get i⟩
  | .idiv_imm, .binaryMathImm _ src destMask imms => ∀ i, selects destMask i = true →
    IntegerDivision.Defined ⟨(file src).get i,
      alu.ofDword (imms.getD (min (selectedBefore destMask i) (imms.length - 1)) 0)⟩
  | _, _ => True

theorem mem_components (i : Fin 4) : i ∈ [(0 : Fin 4), 1, 2, 3] := by
  revert i
  decide

/-- A lane divides well exactly when it does so with the registers it has before. -/
theorem laneDivisions_defined {inst : Instruction} (himms : ∀ dest src destMask imms,
      inst.operands = .binaryMathImm dest src destMask imms → 1 ≤ imms.length)
    (file : LaneFile Dword) :
    (∀ d ∈ laneDivisions alu inst file, d.Defined) ↔ DividesWell alu inst file := by
  obtain ⟨opcode, operands⟩ := inst
  unfold laneDivisions DividesWell
  dsimp only
  split
  · next dest src1 src2 destMask =>
    have hmem := fun d => @mem_maskedCalls alu destMask dest _ (registerCall_componentwise src1 src2)
      file d [0, 1, 2, 3] (by decide) file fun _ _ => rfl
    simp only [hmem, mem_components, true_and]
    constructor
    · exact fun h i hi => h _ ⟨i, hi, rfl⟩
    · rintro h d ⟨i, hi, rfl⟩
      exact h i hi
  · next dest src destMask imms =>
    have hmem := fun d => @mem_immediateCalls alu destMask dest imms.length
      (fun k => alu.ofDword (imms.getD k 0)) _ (immediateCall_componentwise src) file d
      [0, 1, 2, 3] (by decide) file 0 fun _ _ _ => rfl
    simp only [hmem, mem_components, true_and,
      immediateIndex_eq destMask (himms dest src destMask imms rfl)]
    constructor
    · exact fun h i hi => h _ ⟨i, hi, rfl⟩
    · rintro h d ⟨i, hi, rfl⟩
      exact h i hi
  · exact ⟨fun _ => trivial, fun _ _ hd => absurd hd List.not_mem_nil⟩

end

/-! ## The calls of a unit -/

namespace ShaderUnit

/-- The divisions of the lanes for the instruction at `pc`. -/
def instructionDivisions (alu : Alu Dword) (threadCount : Nat) (u : ShaderUnit Dword) :
    Except FatalError (List IntegerDivision) := do
  let inst ← u.fetch alu
  return (List.range threadCount).flatMap fun l => laneDivisions alu inst (u.gpr l)

/-- The loop of `executeInstructions` with the divisions that it evaluates. -/
def divisions (alu : Alu Dword) (isaSize threadCount : Nat) :
    Nat → ShaderUnit Dword → Except FatalError (List IntegerDivision)
  | 0, _ => .ok []
  | clocks + 1, u =>
    if u.pc < isaSize then do
      let calls ← u.instructionDivisions alu threadCount
      let rest ← divisions alu isaSize threadCount clocks (← u.executeInstruction alu threadCount)
      return calls ++ rest
    else .ok []

/-- The divisions of `ExecuteIsa`, as `processExecuteIsaCommand` comes to them. -/
def requestDivisions (alu : Alu Dword) (threadCount : BitVec 5) (stream : Nat → Dword)
    (u : ShaderUnit Dword) : Except FatalError (List IntegerDivision) := do
  let threadCount := nonZeroCountToInt threadCount
  let u ← (u.clearRegisters alu).initializeInputRegisters alu threadCount stream
  let isaSize := u.isaMetadata.programLength.toNat
  u.divisions alu isaSize threadCount isaSize

section
variable {alu : Alu Dword} {isaSize threadCount : Nat}

/-- A loop that goes through has evaluated its divisions. -/
theorem divisions_ok (clocks : Nat) {u u' : ShaderUnit Dword}
    (h : u.executeInstructions alu isaSize threadCount clocks = .ok u') :
    ∃ calls, u.divisions alu isaSize threadCount clocks = .ok calls := by
  induction clocks generalizing u with
  | zero => exact ⟨[], rfl⟩
  | succ clocks ih =>
    rw [executeInstructions] at h
    rw [divisions]
    split at h
    · next hpc =>
      obtain ⟨u1, h1, h⟩ := bind_ok.mp h
      obtain ⟨inst, hfetch, hexecute⟩ := bind_ok.mp h1
      obtain ⟨rest, hrest⟩ := ih h
      obtain ⟨here, hhere⟩ : ∃ here, u.instructionDivisions alu threadCount = .ok here := by
        rw [instructionDivisions, hfetch]
        exact ⟨_, rfl⟩
      refine ⟨here ++ rest, ?_⟩
      rw [if_pos hpc, hhere, ok_bind, h1, ok_bind, hrest]
      rfl
    · next hpc => exact ⟨[], by rw [if_neg hpc]⟩

/-- What `executeInstruction` fetches has immediate values in the layout that has them. -/
theorem fetch_immediates {u : ShaderUnit Dword} {inst : Instruction} (h : u.fetch alu = .ok inst)
    {dest src : RegisterIndex} {destMask : BitVec 4} {imms : List Dword}
    (hoperands : inst.operands = .binaryMathImm dest src destMask imms) : 1 ≤ imms.length := by
  unfold fetch at h
  split at h
  · exact nomatch h
  · cases h
    dsimp only at hoperands
    unfold Operands.read at hoperands
    split at hoperands <;> cases hoperands
    simp [nonZeroCountToInt]

/-- Each of the lanes divides well when the unit comes to an instruction. -/
def StepDivides (alu : Alu Dword) (isaSize threadCount : Nat) (u : ShaderUnit Dword) : Prop :=
  u.pc < isaSize → ∀ inst, u.fetch alu = .ok inst →
    ∀ l < threadCount, DividesWell alu inst (u.gpr l)

theorem instructionDivisions_defined {u : ShaderUnit Dword} {calls : List IntegerDivision}
    (hpc : u.pc < isaSize) (h : u.instructionDivisions alu threadCount = .ok calls) :
    (∀ d ∈ calls, d.Defined) ↔ u.StepDivides alu isaSize threadCount := by
  obtain ⟨inst, hfetch, h⟩ := bind_ok.mp h
  cases h
  have hlane := fun l => @laneDivisions_defined alu inst
    (fun _ _ _ _ => fetch_immediates hfetch) (u.gpr l)
  simp only [List.mem_flatMap, List.mem_range]
  constructor
  · intro h _ inst' hfetch' l hl
    rw [hfetch] at hfetch'
    cases hfetch'
    exact (hlane l).mp fun d hd => h d ⟨l, hl, hd⟩
  · rintro h d ⟨l, hl, hd⟩
    exact (hlane l).mpr (h hpc inst hfetch l hl) d hd

/-- The divisions of a run are defined exactly when every step of it divides well. -/
theorem divisions_defined (clocks : Nat) {u : ShaderUnit Dword} {calls : List IntegerDivision}
    (h : u.divisions alu isaSize threadCount clocks = .ok calls) :
    (∀ d ∈ calls, d.Defined) ↔ ∀ k < clocks, ∀ uk,
      u.executeInstructions alu isaSize threadCount k = .ok uk →
        uk.StepDivides alu isaSize threadCount := by
  induction clocks generalizing u calls with
  | zero =>
    cases h
    exact ⟨fun _ k hk => absurd hk (Nat.not_lt_zero k), fun _ _ hd => absurd hd List.not_mem_nil⟩
  | succ clocks ih =>
    rw [divisions] at h
    split at h
    · next hpc =>
      obtain ⟨here, hhere, h⟩ := bind_ok.mp h
      obtain ⟨u1, h1, h⟩ := bind_ok.mp h
      obtain ⟨rest, hrest, h⟩ := bind_ok.mp h
      cases h
      have hsteps : ∀ k, u.executeInstructions alu isaSize threadCount (k + 1) =
          u1.executeInstructions alu isaSize threadCount k := by
        intro k
        rw [executeInstructions, if_pos hpc, h1]
        rfl
      rw [List.forall_mem_append, instructionDivisions_defined hpc hhere, ih hrest]
      constructor
      · rintro ⟨hfirst, hlater⟩ k hk uk huk
        cases k with
        | zero =>
          cases huk
          exact hfirst
        | succ k =>
          rw [hsteps] at huk
          exact hlater k (Nat.lt_of_succ_lt_succ hk) uk huk
      · intro h
        refine ⟨h 0 (Nat.succ_pos _) u rfl, fun k hk uk huk => ?_⟩
        exact h (k + 1) (Nat.succ_lt_succ hk) uk (by rw [hsteps]; exact huk)
    · next hpc =>
      cases h
      refine ⟨fun _ k hk uk huk hlt => ?_, fun _ _ hd => absurd hd List.not_mem_nil⟩
      -- the loop has ended, and the unit stays where it is
      have hstay : u.executeInstructions alu isaSize threadCount k = .ok u := by
        cases k with
        | zero => rfl
        | succ k => rw [executeInstructions, if_neg hpc]
      rw [hstay] at huk
      cases huk
      exact absurd hlt hpc

/-- A program in a unit evaluates defined divisions exactly when each lane divides well at each
    instruction. -/
theorem requestDivisions_lanes {program : List Instruction} {u : ShaderUnit Dword}
    (h : u.Ready alu program) (threadCount : BitVec 5) (stream : Nat → Dword) :
    ∃ calls, u.requestDivisions alu threadCount stream = .ok calls ∧
      ((∀ d ∈ calls, d.Defined) ↔ ∀ k, ∀ hk : k < program.length,
        ∀ l < nonZeroCountToInt threadCount, DividesWell alu (program[k].decoded alu)
          (u.laneRun alu (u.started alu (nonZeroCountToInt threadCount) stream).uniformDwords
            (program.take k) ((u.started alu (nonZeroCountToInt threadCount) stream).gpr l))) := by
  let u1 := u.started alu (nonZeroCountToInt threadCount) stream
  let behind : Nat → ShaderUnit Dword := fun k => { u1 with
    gpr := fun l => if l < threadCount.toNat + 1 then
        u1.laneRun alu u1.uniformDwords (program.take k) (u1.gpr l)
      else u1.gpr l
    pc := (programDwords (program.take k)).length }
  have hready : u1.Ready alu program :=
    ⟨⟨h.counts.uniforms, h.counts.inputs⟩, h.outputs, h.programLength, h.isa, h.readable⟩
  have hstart : AtInstruction program u1 0 u1 := ⟨rfl, rfl, rfl⟩
  have hat : ∀ k, AtInstruction program u1 k (behind k) := fun k => ⟨rfl, rfl, rfl⟩
  have htake : ∀ k ≤ program.length, u1.executeInstructions alu (programDwords program).length
      (threadCount.toNat + 1) k = .ok (behind k) :=
    executeInstructions_take hready threadCount.toNat hstart
  have hwhole : ∀ spare, u1.executeInstructions alu (programDwords program).length
      (threadCount.toNat + 1) (program.length + spare) = .ok { u1 with
        gpr := fun l => if l < threadCount.toNat + 1 then
            u1.laneRun alu u1.uniformDwords program (u1.gpr l)
          else u1.gpr l
        pc := (programDwords program).length } :=
    fun spare => executeInstructions_eq hready threadCount.toNat program.length
      (Nat.zero_add _) hstart rfl
  have hlength := length_le_programDwords program
  obtain ⟨spare, hspare⟩ := Nat.exists_eq_add_of_le hlength
  obtain ⟨calls, hcalls⟩ := divisions_ok _ (hwhole spare)
  rw [← hspare] at hcalls
  refine ⟨calls, ?_, ?_⟩
  · unfold requestDivisions
    dsimp only
    rw [started_eq h.counts, ok_bind]
    show u1.divisions alu u.isaMetadata.programLength.toNat (threadCount.toNat + 1)
      u.isaMetadata.programLength.toNat = _
    rw [h.programLength]
    exact hcalls
  rw [divisions_defined _ hcalls]
  constructor
  · intro hsteps k hk l hl
    obtain ⟨hinside, -⟩ := executeInstruction_at hready threadCount.toNat hk (hat k) rfl
    have hwell := hsteps k (Nat.lt_of_lt_of_le hk hlength) _ (htake k (Nat.le_of_lt hk)) hinside _
      (fetch_at hready hk (hat k)) l hl
    have hlane : (behind k).gpr l = u1.laneRun alu u1.uniformDwords (program.take k) (u1.gpr l) :=
      if_pos hl
    rwa [hlane] at hwell
  · intro hlanes k hk uk huk hpc inst hfetch l hl
    by_cases hin : k < program.length
    · rw [htake k (Nat.le_of_lt hin)] at huk
      cases huk
      rw [fetch_at hready hin (hat k)] at hfetch
      cases hfetch
      have hlane : (behind k).gpr l = u1.laneRun alu u1.uniformDwords (program.take k) (u1.gpr l) :=
        if_pos hl
      rw [hlane]
      exact hlanes k hin l hl
    · -- the unit is behind the program
      obtain ⟨more, rfl⟩ := Nat.exists_eq_add_of_le (Nat.le_of_not_lt hin)
      rw [hwhole more] at huk
      cases huk
      exact absurd hpc (Nat.lt_irrefl _)

end

/-- `idiv r2.x r0 r1`, where `r1` is zeroed before the instructions of the shader, and
    `idiv_imm r2.x r0 -1`. -/
def divideByZeroed : SourceInstruction := .idiv (.masked 2 (.one .swizzleX)) 0 1

def divideByMinusOne : SourceInstruction := .idiv_imm (.masked 2 (.one .swizzleX)) 0 (-1)

/-- Accepted shaders divide by zero, and the smallest int by -1. -/
theorem requestDivisions_undefined :
    ((oneInstruction divideByZeroed).parse .new = .ok (parsedBinary divideByZeroed) ∧
      (binaryUnit (parsedBinary divideByZeroed)).requestDivisions integerAlu 0 (fun _ => 7) =
        .ok [⟨7, 0⟩]) ∧
    ((oneInstruction divideByMinusOne).parse .new = .ok (parsedBinary divideByMinusOne) ∧
      (binaryUnit (parsedBinary divideByMinusOne)).requestDivisions integerAlu 0
        (fun _ => BitVec.intMin 32) = .ok [⟨BitVec.intMin 32, -1⟩]) ∧
    ¬ IntegerDivision.Defined ⟨7, 0⟩ ∧ ¬ IntegerDivision.Defined ⟨BitVec.intMin 32, -1⟩ :=
  ⟨⟨rfl, rfl⟩, ⟨rfl, rfl⟩, by decide, by decide⟩

end ShaderUnit

end PicoGpu
