import PicoGpu.RoundTrip
import Mathlib.Data.Fintype.EquivFin

/- What one instruction writes: which components of which register, and from which
   values. `Operation.assignment` is the meaning of an instruction, with all sources
   read first; the loops of `executeInstructionLane` write one component at a time
   through references into the register file, so that a source that is also the
   destination may be read half written. -/
namespace PicoGpu

/-! ## Gathering in place -/

/-- Components that are written one after the other, each from a component of the same
    vector: all have been read before they are written just if those that are read too
    late had not changed. -/
theorem gather_in_place {ι α : Type} [LT ι] [WellFoundedLT ι] [DecidableLT ι] {p : ι → ι}
    {old new : ι → α} (h : ∀ c, new c = if p c < c then new (p c) else old (p c)) :
    (∀ c, new c = old (p c)) ↔ ∀ c, p c < c → old (p (p c)) = old (p c) := by
  constructor
  · intro hall c hlt
    have hc := h c
    rw [if_pos hlt, hall c, hall (p c)] at hc
    exact hc.symm
  · intro hkept c
    induction c using WellFoundedLT.induction with
    | ind c ih =>
      rw [h c]
      split
      · next hlt => rw [ih (p c) hlt, hkept c hlt]
      · rfl

section
variable {V : Type}

/-! ## The meaning of an instruction -/

/-- Components of one register and their new values. -/
structure Assignment (V : Type) where
  dest : RegisterIndex
  written : Fin 4 → Bool
  value : Fin 4 → V

def swizzlePattern (x y z w : SwizzlePatternComponent) : Fin 4 → Fin 4
  | 0 => Fin.ofNat 4 x.value
  | 1 => Fin.ofNat 4 y.value
  | 2 => Fin.ofNat 4 z.value
  | 3 => Fin.ofNat 4 w.value

/-- What is assigned when every source is read from `file`. -/
def Operation.assignment (alu : Alu V) (operation : Operation V) (inst : Operands)
    (file : LaneFile V) : Option (Assignment V) :=
  match operation, inst with
  | .unary function, .unaryMath dest src destMask =>
    some ⟨dest, selects destMask, fun c => function ((file src).get c)⟩
  | .unaryVectorVector function, .unaryMath dest src _ =>
    some ⟨dest, fun _ => true, (function (file src)).get⟩
  | .binary function, .binaryMath dest src1 src2 destMask =>
    some ⟨dest, selects destMask, fun c => function ((file src1).get c) ((file src2).get c)⟩
  | .binaryVectorScalar function, .binaryMath dest src1 src2 destMask =>
    some ⟨dest, selects destMask, fun _ => function (file src1) (file src2)⟩
  | .binaryVectorVector function, .binaryMath dest src1 src2 _ =>
    some ⟨dest, fun _ => true, (function (file src1) (file src2)).get⟩
  | .ternary function, .ternaryMath dest src1 src2 src3 destMask =>
    some ⟨dest, selects destMask, fun c =>
      function ((file src1).get c) ((file src2).get c) ((file src3).get c)⟩
  | .unaryImm function, .unaryMathImm dest destMask imms =>
    some ⟨dest, selects destMask, fun c =>
      function (alu.ofDword (imms.getD (min (selectedBefore destMask c) (imms.length - 1)) 0))⟩
  | .binaryImm function, .binaryMathImm dest src destMask imms =>
    some ⟨dest, selects destMask, fun c => function ((file src).get c)
      (alu.ofDword (imms.getD (min (selectedBefore destMask c) (imms.length - 1)) 0))⟩
  | .swizzle, .swizzle dest src x y z w =>
    some ⟨dest, fun _ => true, fun c => (file src).get (swizzlePattern x y z w c)⟩
  | _, _ => none

/-- `file'` is `file` with the components assigned. -/
def Assignment.Made (a : Assignment V) (file file' : LaneFile V) : Prop :=
  ∀ r c, (file' r).get c = if r = a.dest ∧ a.written c = true then a.value c else (file r).get c

theorem made_writeMasked {value : LaneFile V → Fin 4 → V} (h : Componentwise value)
    (destMask : BitVec 4) (dest : RegisterIndex) (file : LaneFile V) :
    Assignment.Made ⟨dest, selects destMask, value file⟩ file
      (writeMasked destMask dest value file) :=
  fun r c => writeMasked_get h destMask dest file r c

/-- A vector result is stored whole. -/
theorem made_update (dest : RegisterIndex) (result : VectorRegister V) (file : LaneFile V) :
    Assignment.Made ⟨dest, fun _ => true, result.get⟩ file (Function.update file dest result) := by
  intro r c
  by_cases hr : r = dest
  · subst hr
    simp
  · simp [hr]

/-! ## The swizzle -/

theorem writeSwizzle_eq (dest src : RegisterIndex) (x y z w : SwizzlePatternComponent)
    (file : LaneFile V) : writeSwizzle dest src x y z w file =
      [(0 : Fin 4), 1, 2, 3].foldl
        (fun file c => file.assign dest c ((file src).get (swizzlePattern x y z w c))) file := rfl

/-- Each component is read from the registers as the assignments before left them. -/
theorem writeSwizzle_get (dest src : RegisterIndex) (x y z w : SwizzlePatternComponent)
    (file : LaneFile V) (c : Fin 4) :
    (writeSwizzle dest src x y z w file dest).get c =
      if dest = src ∧ swizzlePattern x y z w c < c then
        (writeSwizzle dest src x y z w file dest).get (swizzlePattern x y z w c)
      else (file src).get (swizzlePattern x y z w c) := by
  rw [writeSwizzle_eq]
  generalize swizzlePattern x y z w = p
  simp only [List.foldl_cons, List.foldl_nil]
  by_cases hsame : dest = src
  · subst hsame
    have hcases : p c = 0 ∨ p c = 1 ∨ p c = 2 ∨ p c = 3 := by omega
    match c with
    | 0 | 1 | 2 | 3 => rcases hcases with hp | hp | hp | hp <;> simp [LaneFile.get_assign, hp]
  · have hsame' : ¬ src = dest := fun h => hsame h.symm
    match c with
    | 0 | 1 | 2 | 3 => simp [LaneFile.get_assign, hsame, hsame']

theorem writeSwizzle_other {dest r : RegisterIndex} (hr : r ≠ dest) (src : RegisterIndex)
    (x y z w : SwizzlePatternComponent) (file : LaneFile V) :
    writeSwizzle dest src x y z w file r = file r := by
  apply VectorRegister.ext_get
  intro c
  unfold writeSwizzle
  simp [LaneFile.get_assign, hr]

/-! ## One lane -/

/-- A component that is read after it was written still has its value. Only a swizzle
    within one register can read a component that it wrote. -/
def Operands.ReadsUnchanged (file : LaneFile V) : Operands → Prop
  | .swizzle dest src x y z w => dest = src → ∀ c,
      swizzlePattern x y z w c < c →
        (file src).get (swizzlePattern x y z w (swizzlePattern x y z w c)) =
          (file src).get (swizzlePattern x y z w c)
  | _ => True

section
variable {alu : Alu V} {operation : Operation V} {inst : Operands}

/-- The loops make the assignment, but for the swizzle. -/
theorem executeInstructionLane_made (hlayout : operation.layout = inst.layout)
    (hn : inst.layout ≠ .nullary) (hs : inst.layout ≠ .swizzle) (hfit : inst.ImmediatesFit)
    (file : LaneFile V) : ∃ a, operation.assignment alu inst file = some a ∧
      a.Made file (executeInstructionLane alu operation inst file).1 := by
  cases inst with
  | nullary => exact absurd rfl hn
  | swizzle => exact absurd rfl hs
  | unaryMath dest src destMask =>
    cases operation with
    | unary function =>
      refine ⟨_, rfl, made_writeMasked ?_ destMask dest file⟩
      intro file file' c h
      simp only [h]
    | unaryVectorVector function => exact ⟨_, rfl, made_update dest _ file⟩
    | _ => cases hlayout
  | binaryMath dest src1 src2 destMask =>
    cases operation with
    | binary function =>
      refine ⟨_, rfl, made_writeMasked ?_ destMask dest file⟩
      intro file file' c h
      simp only [h]
    | binaryVectorScalar function =>
      refine ⟨_, rfl, made_writeMasked ?_ destMask dest file⟩
      intro file file' c h
      rfl
    | binaryVectorVector function => exact ⟨_, rfl, made_update dest _ file⟩
    | _ => cases hlayout
  | ternaryMath dest src1 src2 src3 destMask =>
    cases operation with
    | ternary function =>
      refine ⟨_, rfl, made_writeMasked ?_ destMask dest file⟩
      intro file file' c h
      simp only [h]
    | _ => cases hlayout
  | unaryMathImm dest destMask imms =>
    cases operation with
    | unaryImm function =>
      refine ⟨_, rfl, fun r c => writeImmediates_get hfit.1 ?_ destMask dest file r c⟩
      intro v file file' c h
      rfl
    | _ => cases hlayout
  | binaryMathImm dest src destMask imms =>
    cases operation with
    | binaryImm function =>
      refine ⟨_, rfl, fun r c => writeImmediates_get hfit.1 ?_ destMask dest file r c⟩
      intro v file file' c h
      simp only [h]
    | _ => cases hlayout

/-- What is not assigned keeps its value; what is assigned has the value it should have, as
    long as the sources were read unchanged. -/
theorem executeInstructionLane_spec (hlayout : operation.layout = inst.layout)
    (hn : inst.layout ≠ .nullary) (hfit : inst.ImmediatesFit) (file : LaneFile V) :
    ∃ a, operation.assignment alu inst file = some a ∧
      (∀ r c, ¬ (r = a.dest ∧ a.written c = true) →
        ((executeInstructionLane alu operation inst file).1 r).get c = (file r).get c) ∧
      ((∀ c, a.written c = true →
        ((executeInstructionLane alu operation inst file).1 a.dest).get c = a.value c) ↔
        inst.ReadsUnchanged file) := by
  by_cases hs : inst.layout = .swizzle
  · cases inst with
    | swizzle dest src x y z w =>
      cases operation with
      | swizzle =>
        refine ⟨_, rfl, ?_, ?_⟩
        · intro r c hr
          have hne : r ≠ dest := fun heq => hr ⟨heq, rfl⟩
          show (writeSwizzle dest src x y z w file r).get c = _
          rw [writeSwizzle_other hne]
        · show (∀ c, _ → (writeSwizzle dest src x y z w file dest).get c = _) ↔ _
          unfold Operands.ReadsUnchanged
          by_cases hsame : dest = src
          · have hget := writeSwizzle_get dest src x y z w file
            simp only [hsame, true_and] at hget
            simp only [hsame, forall_const]
            exact gather_in_place hget
          · simp [writeSwizzle_get, hsame]
      | _ => cases hlayout
    | _ => cases hs
  · obtain ⟨a, ha, hmade⟩ := @executeInstructionLane_made V alu _ _ hlayout hn hs hfit file
    refine ⟨a, ha, ?_, ?_⟩
    · intro r c hr
      rw [hmade, if_neg hr]
    · have hreads : inst.ReadsUnchanged file := by
        cases inst with
        | swizzle => exact absurd rfl hs
        | _ => trivial
      refine ⟨fun _ => hreads, ?_⟩
      intro _ c hc
      rw [hmade, if_pos ⟨rfl, hc⟩]

end

/-! ## One instruction -/

theorem ShaderUnit.fetch_dispatched {alu : Alu V} {u : ShaderUnit V} {i : Instruction}
    (h : u.fetch alu = .ok i) : i.Dispatched alu ∧ i.operands.ImmediatesFit := by
  unfold fetch at h
  split at h
  · cases h
  · next opcode _ =>
    cases h
    constructor
    · unfold Instruction.Dispatched
      rw [Operands.read_layout]
    · simp only [Operands.read_fit]

/-- The running lanes take the step of the instruction, the others none. -/
theorem ShaderUnit.executeInstruction_gpr {alu : Alu V} {u u' : ShaderUnit V} {i : Instruction}
    {threadCount : Nat} (hfetch : u.fetch alu = .ok i) (hn : i.operands.layout ≠ .nullary)
    (hstep : u.executeInstruction alu threadCount = .ok u') (l : Nat) :
    u'.gpr l = if l < threadCount then
      (executeInstructionLane alu (i.opcode.operation alu) i.operands (u.gpr l)).1 else u.gpr l := by
  obtain ⟨hd, -⟩ := fetch_dispatched hfetch
  cases threadCount with
  | succ threadCount =>
    rw [executeInstruction_lanes hfetch hd hn] at hstep
    cases hstep
    rfl
  | zero =>
    obtain ⟨htrap, hlduni, hinitregs⟩ := hd.operands hn
    unfold executeInstruction at hstep
    rw [hfetch, ok_bind] at hstep
    unfold execute at hstep
    rw [if_neg (Nat.not_lt_zero l)]
    cases hop : i.opcode.operation alu with
    | trap => exact absurd hop htrap
    | lduni => exact absurd hop hlduni
    | initregs => exact absurd hop hinitregs
    | _ =>
      rw [hop] at hstep
      cases hstep
      rfl

/-- Every component that the instruction writes has the value that its operation has on the
    registers before. -/
def ReadsBeforeWrites (alu : Alu V) (i : Instruction) (file file' : LaneFile V) : Prop :=
  ∀ a, (i.opcode.operation alu).assignment alu i.operands file = some a →
    ∀ c, a.written c = true → (file' a.dest).get c = a.value c

/-- **An instruction reads before it writes, but for a swizzle within one register** that
    overwrites a component it still has to read. -/
theorem instructions_read_before_they_write (alu : Alu V) (u u' : ShaderUnit V) (i : Instruction)
    (threadCount : Nat) (hfetch : u.fetch alu = .ok i)
    (hstep : u.executeInstruction alu threadCount = .ok u') :
    (∀ l < threadCount, ReadsBeforeWrites alu i (u.gpr l) (u'.gpr l)) ↔
      ∀ l < threadCount, i.operands.ReadsUnchanged (u.gpr l) := by
  obtain ⟨hd, hfit⟩ := ShaderUnit.fetch_dispatched hfetch
  apply forall_congr'
  intro l
  apply forall_congr'
  intro hl
  by_cases hn : i.operands.layout = .nullary
  · obtain ⟨opcode, operands⟩ := i
    cases operands with
    | nullary =>
      refine ⟨fun _ => trivial, ?_⟩
      intro _ a ha
      unfold Operation.assignment at ha
      split at ha <;> cases ha
      all_goals contradiction
    | _ => cases hn
  · obtain ⟨a, ha, -, hwritten⟩ := executeInstructionLane_spec hd hn hfit (u.gpr l)
    rw [← hwritten, ShaderUnit.executeInstruction_gpr hfetch hn hstep, if_pos hl]
    unfold ReadsBeforeWrites
    rw [ha]
    constructor
    · intro h
      exact h a rfl
    · intro h a' ha'
      cases ha'
      exact h

/-- A unit before its first instruction, with these registers in each lane. -/
def instructionUnit (i : Instruction) (file : LaneFile Dword) : ShaderUnit Dword where
  isaMetadata := .zero
  isa := fun k => i.dwords.getD k 0
  gpr := fun _ => file
  pc := 0
  uniformDwords := fun _ => 0

/-- `swizzle r0 r0.yxzw` -/
def swapInPlace : Instruction := ⟨.swizzle, .swizzle 0 0 .swizzleY .swizzleX .swizzleZ .swizzleW⟩

/-- The old `x` is lost: `y` is read into `x` first. -/
theorem swizzle_reads_written : ∃ u',
    (instructionUnit swapInPlace fun _ => ⟨1, 2, 3, 4⟩).fetch integerAlu = .ok swapInPlace ∧
    (instructionUnit swapInPlace fun _ => ⟨1, 2, 3, 4⟩).executeInstruction integerAlu 1 = .ok u' ∧
    u'.gpr 0 0 = ⟨2, 2, 3, 4⟩ ∧
    ¬ ReadsBeforeWrites integerAlu swapInPlace (fun _ => ⟨1, 2, 3, 4⟩) (u'.gpr 0) := by
  refine ⟨_, rfl, rfl, rfl, ?_⟩
  intro h
  have hy := h _ rfl 1 rfl
  cases hy

/-- `iadd r0 r0 r1` reads and writes `r0`. -/
def addInPlace : Instruction := ⟨.iadd, .binaryMath 0 0 1 0b1111⟩

theorem instructions_read_before_they_write_iadd : ∃ u',
    (instructionUnit addInPlace fun _ => ⟨1, 2, 3, 4⟩).executeInstruction integerAlu 1 = .ok u' ∧
    ∀ l < 1, ReadsBeforeWrites integerAlu addInPlace (fun _ => ⟨1, 2, 3, 4⟩) (u'.gpr l) := by
  refine ⟨_, rfl, ?_⟩
  apply (instructions_read_before_they_write integerAlu
    (instructionUnit addInPlace fun _ => ⟨1, 2, 3, 4⟩) _ addInPlace 1 rfl rfl).mpr
  intro l _
  trivial

/-! ## Destination masks -/

def Operation.ignoresMask : Operation V → Bool
  | .unaryVectorVector _ | .binaryVectorVector _ => true
  | _ => false

/-- The opcodes with a vector result, which is stored without a look at the mask. -/
def Opcode.ignoresMask : Opcode → Bool
  | fcross | fnorm => true
  | _ => false

theorem Opcode.operation_ignoresMask (alu : Alu V) (opcode : Opcode) :
    (opcode.operation alu).ignoresMask = opcode.ignoresMask := by
  cases opcode <;> rfl

/-- The destination of an instruction with a mask. -/
def Operands.masked : Operands → Option (RegisterIndex × BitVec 4)
  | .unaryMath dest _ destMask | .binaryMath dest _ _ destMask | .ternaryMath dest _ _ _ destMask
  | .unaryMathImm dest destMask _ | .binaryMathImm dest _ destMask _ => some (dest, destMask)
  | .nullary | .swizzle .. => none

/-- Nothing changes but the selected components of the destination in the running lanes. -/
def MaskRespected (threadCount : Nat) (dest : RegisterIndex) (destMask : BitVec 4)
    (gpr gpr' : Nat → LaneFile V) : Prop :=
  ∀ l r c, ¬ (l < threadCount ∧ r = dest ∧ selects destMask c = true) →
    (gpr' l r).get c = (gpr l r).get c

/-- The instruction respects its mask with whatever is in the registers. -/
def ShaderUnit.RespectsMask (alu : Alu V) (u : ShaderUnit V) (threadCount : Nat)
    (dest : RegisterIndex) (destMask : BitVec 4) : Prop :=
  ∀ gpr u', { u with gpr := gpr }.executeInstruction alu threadCount = .ok u' →
    MaskRespected threadCount dest destMask gpr u'.gpr

/-- Some vector differs in every component from what it is normalized to and from its cross
    product with itself. Among the floats ⟨2, 2, 2, 2⟩ is one. -/
def Alu.MovesVectors (alu : Alu V) : Prop :=
  ∃ a : VectorRegister V, ∀ c, (alu.fnorm a).get c ≠ a.get c ∧ (alu.fcross a a).get c ≠ a.get c

theorem selects_all (c : Fin 4) : selects 15 c = true := by
  revert c
  decide

theorem exists_unselected {destMask : BitVec 4} (h : destMask ≠ 15) :
    ∃ c, selects destMask c = false := by
  revert destMask
  decide

section
variable {alu : Alu V} {inst : Operands} {dest : RegisterIndex} {destMask : BitVec 4}

theorem Operands.masked_layout (h : inst.masked = some (dest, destMask)) :
    inst.layout ≠ .nullary ∧ inst.layout ≠ .swizzle := by
  cases inst with
  | nullary => cases h
  | swizzle => cases h
  | _ => exact ⟨InstructionLayout.noConfusion, InstructionLayout.noConfusion⟩

theorem assignment_masked {operation : Operation V} (h : inst.masked = some (dest, destMask))
    {file : LaneFile V} {a : Assignment V} (ha : operation.assignment alu inst file = some a) :
    a.dest = dest ∧ ∀ c, a.written c = (operation.ignoresMask || selects destMask c) := by
  unfold Operation.assignment at ha
  split at ha
  all_goals cases ha
  all_goals cases h
  all_goals exact ⟨rfl, fun c => by simp [Operation.ignoresMask]⟩

/-- Where all registers of a lane are equal, an instruction that ignores its mask changes
    every component of its destination. -/
theorem moves_destination {i : Instruction} (hignores : i.opcode.ignoresMask = true)
    (hd : i.Dispatched alu) (hmasked : i.operands.masked = some (dest, destMask))
    {a : VectorRegister V}
    (ha : ∀ c, (alu.fnorm a).get c ≠ a.get c ∧ (alu.fcross a a).get c ≠ a.get c) (c : Fin 4) :
    ((executeInstructionLane alu (i.opcode.operation alu) i.operands fun _ => a).1 dest).get c ≠
      a.get c := by
  obtain ⟨opcode, operands⟩ := i
  cases opcode with
  | fcross =>
    cases operands with
    | binaryMath dest' src1 src2 destMask' =>
      cases hmasked
      show (Function.update (fun _ => a) dest (alu.fcross a a) dest).get c ≠ a.get c
      rw [Function.update_self]
      exact (ha c).2
    | _ => cases hd
  | fnorm =>
    cases operands with
    | unaryMath dest' src destMask' =>
      cases hmasked
      show (Function.update (fun _ => a) dest (alu.fnorm a) dest).get c ≠ a.get c
      rw [Function.update_self]
      exact (ha c).1
    | _ => cases hd
  | _ => cases hignores

end

/-- **An instruction respects its mask, but for `fcross` and `fnorm`**, whose result is stored
    whole. -/
theorem destMask_respected (alu : Alu V) (u : ShaderUnit V) (i : Instruction)
    (dest : RegisterIndex) (destMask : BitVec 4) (threadCount : Nat) (hfetch : u.fetch alu = .ok i)
    (hmasked : i.operands.masked = some (dest, destMask)) :
    ((i.opcode.ignoresMask = true → destMask = 15 ∨ threadCount = 0) →
      u.RespectsMask alu threadCount dest destMask) ∧
    (alu.MovesVectors → u.RespectsMask alu threadCount dest destMask →
      i.opcode.ignoresMask = true → destMask = 15 ∨ threadCount = 0) := by
  obtain ⟨hd, hfit⟩ := ShaderUnit.fetch_dispatched hfetch
  obtain ⟨hn, -⟩ := Operands.masked_layout hmasked
  constructor
  · intro hcond gpr u' hstep l r c hout
    rw [@ShaderUnit.executeInstruction_gpr V alu { u with gpr := gpr } u' i _ hfetch hn hstep]
    split
    · next hl =>
      obtain ⟨a, ha, hkept, -⟩ := executeInstructionLane_spec hd hn hfit (gpr l)
      obtain ⟨hdest, hwritten⟩ := assignment_masked hmasked ha
      apply hkept
      rintro ⟨hr, hc⟩
      apply hout
      refine ⟨hl, hr.trans hdest, ?_⟩
      rw [hwritten, Opcode.operation_ignoresMask, Bool.or_eq_true] at hc
      rcases hc with hignores | hselected
      · rcases hcond hignores with hall | hzero
        · rw [hall]
          exact selects_all c
        · omega
      · exact hselected
    · rfl
  · rintro ⟨a, ha⟩ hrespects hignores
    by_contra hnot
    push Not at hnot
    obtain ⟨hmask, hcount⟩ := hnot
    obtain ⟨c, hc⟩ := exists_unselected hmask
    obtain ⟨t, rfl⟩ := Nat.exists_eq_succ_of_ne_zero hcount
    have hstep := @ShaderUnit.executeInstruction_lanes V { u with gpr := fun _ _ => a } alu i hfetch
      hd hn t
    have hkept := hrespects (fun _ _ => a) _ hstep 0 dest c (by simp [hc])
    rw [@ShaderUnit.executeInstruction_gpr V alu { u with gpr := fun _ _ => a } _ i _ hfetch hn hstep,
      if_pos (Nat.succ_pos t)] at hkept
    exact moves_destination hignores hd hmasked ha c hkept

/-- `fnorm r1.x r0` -/
def normalizeX : Instruction := ⟨.fnorm, .unaryMath 1 0 0b1000⟩

/-- Normalizing ⟨1, 0, 0, 0⟩ to `r1.x` also sets `r1.y`, to zero. -/
theorem fnorm_writes_unselected :
    (instructionUnit normalizeX fun _ => ⟨0, 0, 0, 0⟩).fetch integerAlu = .ok normalizeX ∧
      normalizeX.operands.masked = some (1, 0b1000) ∧
      ¬ (instructionUnit normalizeX fun _ => ⟨0, 0, 0, 0⟩).RespectsMask integerAlu 1 1 0b1000 := by
  refine ⟨rfl, rfl, ?_⟩
  intro hrespects
  have hy := hrespects (fun _ r => if r = 0 then ⟨0x3f800000, 0, 0, 0⟩ else ⟨7, 7, 7, 7⟩) _ rfl 0 1 1
    (by decide)
  cases hy

/-- A sum keeps to its mask, and a normalized vector does not. -/
theorem destMask_respected_iadd_fnorm :
    (instructionUnit ⟨.iadd, .binaryMath 2 0 1 0b1000⟩ fun _ => ⟨1, 2, 3, 4⟩).RespectsMask integerAlu
      1 2 0b1000 ∧
    ¬ (instructionUnit normalizeX fun _ => ⟨0, 0, 0, 0⟩).RespectsMask integerAlu 1 1 0b1000 := by
  constructor
  · apply (destMask_respected integerAlu _ ⟨.iadd, .binaryMath 2 0 1 0b1000⟩ 2 0b1000 1 rfl rfl).1
    intro hignores
    cases hignores
  · intro hrespects
    have hmoves : integerAlu.MovesVectors := ⟨⟨2, 2, 2, 2⟩, by decide⟩
    rcases (destMask_respected integerAlu _ normalizeX 1 0b1000 1 rfl rfl).2 hmoves hrespects rfl with
      hall | hzero
    · cases hall
    · cases hzero

end

end PicoGpu
