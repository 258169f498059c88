import PicoGpu.Isa
import Mathlib.Logic.Function.Basic

/- The interpreter of a shader unit: `executeInstructions` and what it calls.

   Correspondence (shader_unit.cpp ↔ here):
     the switch of `executeInstructions`     ↔ `Opcode.operation`
     the overloads `executeInstructionLane`  ↔ the cases of `executeInstructionLane`
     one iteration of the loop               ↔ `executeInstruction`
   A register component is of any type `V`, with the operations that the lambdas
   of the switch use as an `Alu V`. The simulator's are those on 32-bit values
   that are read as floats or ints; with exact numbers for `V` the same program
   text has its meaning over a field. -/
namespace PicoGpu

structure VectorRegister (V : Type) where
  x : V
  y : V
  z : V
  w : V
  deriving DecidableEq, Repr

namespace VectorRegister

variable {V : Type}

/-- `operator[]`. -/
def get (r : VectorRegister V) : Fin 4 → V
  | 0 => r.x
  | 1 => r.y
  | 2 => r.z
  | 3 => r.w

def set (r : VectorRegister V) (v : V) : Fin 4 → VectorRegister V
  | 0 => { r with x := v }
  | 1 => { r with y := v }
  | 2 => { r with z := v }
  | 3 => { r with w := v }

def replicate (v : V) : VectorRegister V := ⟨v, v, v, v⟩

theorem replicate_get (v : V) (j : Fin 4) : (replicate v).get j = v := by
  match j with
  | 0 | 1 | 2 | 3 => rfl

theorem get_set (r : VectorRegister V) (v : V) (i j : Fin 4) :
    (r.set v i).get j = if j = i then v else r.get j := by
  match i, j with
  | 0, 0 | 0, 1 | 0, 2 | 0, 3 | 1, 0 | 1, 1 | 1, 2 | 1, 3 => rfl
  | 2, 0 | 2, 1 | 2, 2 | 2, 3 | 3, 0 | 3, 1 | 3, 2 | 3, 3 => rfl

theorem ext_get {r s : VectorRegister V} (h : ∀ i, r.get i = s.get i) : r = s := by
  obtain ⟨rx, ry, rz, rw⟩ := r
  obtain ⟨sx, sy, sz, sw⟩ := s
  have h0 : rx = sx := h 0
  have h1 : ry = sy := h 1
  have h2 : rz = sz := h 2
  have h3 : rw = sw := h 3
  rw [h0, h1, h2, h3]

end VectorRegister

/-- The operations of the lambdas. `zero` is the value of an all-zero register,
    `ofDword` that of a dword that is copied into one, and `one` the `1` of `frcp`. -/
structure Alu (V : Type) where
  zero : V
  one : V
  ofDword : Dword → V
  fadd : V → V → V
  fsub : V → V → V
  fmul : V → V → V
  fdiv : V → V → V
  fneg : V → V
  fsqrt : V → V
  fmax : V → V → V
  fmin : V → V → V
  iadd : V → V → V
  isub : V → V → V
  imul : V → V → V
  idiv : V → V → V
  ineg : V → V
  imax : V → V → V
  imin : V → V → V

section
variable {V : Type}

namespace Alu
variable (alu : Alu V)

def fdot (a b : VectorRegister V) : V :=
  alu.fadd (alu.fadd (alu.fadd (alu.fmul a.x b.x) (alu.fmul a.y b.y)) (alu.fmul a.z b.z))
    (alu.fmul a.w b.w)

def fcross (a b : VectorRegister V) : VectorRegister V where
  x := alu.fsub (alu.fmul a.y b.z) (alu.fmul a.z b.y)
  y := alu.fsub (alu.fmul a.z b.x) (alu.fmul a.x b.z)
  z := alu.fsub (alu.fmul a.x b.y) (alu.fmul a.y b.x)
  w := alu.zero

def fcross2 (a b : VectorRegister V) : V := alu.fsub (alu.fmul a.x b.y) (alu.fmul a.y b.x)

def fmad (a b c : V) : V := alu.fadd (alu.fmul a b) c

def frcp (a : V) : V := alu.fdiv alu.one a

def fnorm (a : VectorRegister V) : VectorRegister V :=
  let len := alu.fsqrt (alu.fdot a a)
  ⟨alu.fdiv a.x len, alu.fdiv a.y len, alu.fdiv a.z len, alu.fdiv a.w len⟩

end Alu

/-- What a case of the switch does: the overload of `executeInstructionLane` it
    selects, which fixes the layout, with its function. -/
inductive Operation (V : Type) where
  | unary (function : V → V)
  | unaryVectorVector (function : VectorRegister V → VectorRegister V)
  | binary (function : V → V → V)
  | binaryVectorScalar (function : VectorRegister V → VectorRegister V → V)
  | binaryVectorVector (function : VectorRegister V → VectorRegister V → VectorRegister V)
  | ternary (function : V → V → V → V)
  | unaryImm (function : V → V)
  | binaryImm (function : V → V → V)
  | swizzle
  | trap
  | lduni
  | initregs

def Operation.layout : Operation V → InstructionLayout
  | unary _ | unaryVectorVector _ => .unaryMath
  | binary _ | binaryVectorScalar _ | binaryVectorVector _ => .binaryMath
  | ternary _ => .ternaryMath
  | unaryImm _ => .unaryMathImm
  | binaryImm _ => .binaryMathImm
  | swizzle => .swizzle
  | trap | lduni | initregs => .nullary

def Opcode.operation (alu : Alu V) : Opcode → Operation V
  | fadd => .binary alu.fadd
  | fadd_imm => .binaryImm alu.fadd
  | fsub => .binary alu.fsub
  | fsub_imm => .binaryImm alu.fsub
  | fmul => .binary alu.fmul
  | fmul_imm => .binaryImm alu.fmul
  | fdiv => .binary alu.fdiv
  | fdiv_imm => .binaryImm alu.fdiv
  | fneg => .unary alu.fneg
  | fdot => .binaryVectorScalar alu.fdot
  | fcross => .binaryVectorVector alu.fcross
  | fcross2 => .binaryVectorScalar alu.fcross2
  | fmad => .ternary alu.fmad
  | frcp => .unary alu.frcp
  | fnorm => .unaryVectorVector alu.fnorm
  | fmax => .binary alu.fmax
  | fmin => .binary alu.fmin
  | iadd => .binary alu.iadd
  | iadd_imm => .binaryImm alu.iadd
  | isub => .binary alu.isub
  | isub_imm => .binaryImm alu.isub
  | imul => .binary alu.imul
  | imul_imm => .binaryImm alu.imul
  | idiv => .binary alu.idiv
  | idiv_imm => .binaryImm alu.idiv
  | ineg => .unary alu.ineg
  | imax => .binary alu.imax
  | imin => .binary alu.imin
  | init => .unaryImm id
  | swizzle => .swizzle
  | mov => .unary id
  | trap => .trap
  | lduni => .lduni
  | initregs => .initregs

/-- The registers of one lane. -/
abbrev LaneFile (V : Type) := RegisterIndex → VectorRegister V

/-! ## One lane -/

/-- Assign one component of a register. -/
def LaneFile.assign (file : LaneFile V) (dest : RegisterIndex) (i : Fin 4) (v : V) : LaneFile V :=
  Function.update file dest ((file dest).set v i)

/-- The bit of a destination mask that selects component `i`. -/
def selects (destMask : BitVec 4) (i : Fin 4) : Bool := isBitSet destMask (3 - i)

/-- The loop over the components: each selected one is computed from the registers
    as the iterations before left them. -/
def writeMasked (destMask : BitVec 4) (dest : RegisterIndex) (value : LaneFile V → Fin 4 → V)
    (file : LaneFile V) : LaneFile V :=
  [0, 1, 2, 3].foldl
    (fun file i => if selects destMask i then file.assign dest i (value file i) else file) file

/-- The loop over the components with `immediateValueIndex`: the last immediate
    value is used again for the components that are left. -/
def writeImmediates (destMask : BitVec 4) (dest : RegisterIndex) (immCount : Nat)
    (immediateValues : Nat → V) (value : LaneFile V → Fin 4 → V → V) (file : LaneFile V) :
    LaneFile V :=
  ([0, 1, 2, 3].foldl
    (fun (file, immediateValueIndex) i =>
      if selects destMask i then
        (file.assign dest i (value file i (immediateValues immediateValueIndex)),
          if immediateValueIndex + 1 < immCount then immediateValueIndex + 1
          else immediateValueIndex)
      else (file, immediateValueIndex)) (file, 0)).1

/-- The four assignments of the swizzle, one after the other. -/
def writeSwizzle (dest src : RegisterIndex) (x y z w : SwizzlePatternComponent)
    (file : LaneFile V) : LaneFile V :=
  [((0 : Fin 4), x), (1, y), (2, z), (3, w)].foldl
    (fun file (i, pattern) => file.assign dest i ((file src).get (Fin.ofNat 4 pattern.value))) file

/-- The registers of a lane after an instruction, and the increment of `pc`. -/
def executeInstructionLane (alu : Alu V) (operation : Operation V) (inst : Operands)
    (file : LaneFile V) : LaneFile V × Nat :=
  match operation, inst with
  | .unary function, .unaryMath dest src destMask =>
    (writeMasked destMask dest (fun file i => function ((file src).get i)) file, 1)
  | .unaryVectorVector function, .unaryMath dest src _ =>
    (Function.update file dest (function (file src)), 1)
  | .binary function, .binaryMath dest src1 src2 destMask =>
    (writeMasked destMask dest
      (fun file i => function ((file src1).get i) ((file src2).get i)) file, 1)
  | .binaryVectorScalar function, .binaryMath dest src1 src2 destMask =>
    let result := function (file src1) (file src2)
    (writeMasked destMask dest (fun _ _ => result) file, 1)
  | .binaryVectorVector function, .binaryMath dest src1 src2 _ =>
    (Function.update file dest (function (file src1) (file src2)), 1)
  | .ternary function, .ternaryMath dest src1 src2 src3 destMask =>
    (writeMasked destMask dest (fun file i =>
      function ((file src1).get i) ((file src2).get i) ((file src3).get i)) file, 1)
  | .unaryImm function, .unaryMathImm dest destMask imms =>
    (writeImmediates destMask dest imms.length (fun k => alu.ofDword (imms.getD k 0))
      (fun _ _ src2 => function src2) file, 1 + imms.length)
  | .binaryImm function, .binaryMathImm dest src destMask imms =>
    (writeImmediates destMask dest imms.length (fun k => alu.ofDword (imms.getD k 0))
      (fun file i src2 => function ((file src).get i) src2) file, 1 + imms.length)
  | .swizzle, .swizzle dest src x y z w => (writeSwizzle dest src x y z w file, 1)
  -- no operation meets the operands of another layout than its own
  | _, _ => (file, 0)

end

/-! ## What the loops over the components write -/

section
variable {V : Type}

theorem LaneFile.get_assign (file : LaneFile V) (dest r : RegisterIndex) (i j : Fin 4) (v : V) :
    (file.assign dest i v r).get j = if r = dest ∧ j = i then v else (file r).get j := by
  unfold LaneFile.assign
  by_cases hr : r = dest
  · subst hr
    simp [VectorRegister.get_set]
  · simp [hr]

/-- The value of a component is computed from the same component of other registers. -/
def Componentwise (value : LaneFile V → Fin 4 → V) : Prop :=
  ∀ file file' i, (∀ r, (file r).get i = (file' r).get i) → value file i = value file' i

/-- An assignment to one component leaves the values of the others. -/
theorem Componentwise.assign {value : LaneFile V → Fin 4 → V} (h : Componentwise value)
    {i j : Fin 4} (hne : j ≠ i) (file : LaneFile V) (dest : RegisterIndex) (v : V) :
    value (file.assign dest i v) j = value file j := by
  apply h
  intro r
  rw [LaneFile.get_assign, if_neg fun hr => hne hr.2]

theorem foldl_masked {destMask : BitVec 4} {dest : RegisterIndex}
    {value : LaneFile V → Fin 4 → V} (h : Componentwise value) (r : RegisterIndex) (j : Fin 4) :
    ∀ (l : List (Fin 4)) (_ : l.Nodup) (file : LaneFile V),
      ((l.foldl (fun file i => if selects destMask i then file.assign dest i (value file i)
        else file) file) r).get j =
      if r = dest ∧ l.any (j = ·) ∧ selects destMask j then value file j else (file r).get j
  | [], _, file => by simp
  | i :: l, hl, file => by
    have hi : i ∉ l := (List.nodup_cons.mp hl).1
    rw [List.foldl_cons, foldl_masked h r j l (List.nodup_cons.mp hl).2]
    by_cases hj : j = i
    · subst hj
      cases hs : selects destMask j <;> simp [hi, LaneFile.get_assign]
    · cases hs : selects destMask i
      · simp [hj]
      · simp [hj, h.assign hj, LaneFile.get_assign]

/-- A masked write changes the selected components of its destination only, and
    computes each of them from the registers as they were. -/
theorem writeMasked_get {value : LaneFile V → Fin 4 → V} (h : Componentwise value)
    (destMask : BitVec 4) (dest : RegisterIndex) (file : LaneFile V) (r : RegisterIndex)
    (j : Fin 4) :
    (writeMasked destMask dest value file r).get j =
      if r = dest ∧ selects destMask j then value file j else (file r).get j := by
  have hmem : [(0 : Fin 4), 1, 2, 3].any (j = ·) := by
    revert j
    decide
  unfold writeMasked
  rw [foldl_masked h r j _ (by decide)]
  simp only [hmem, true_and]

/-- The immediate value that the loop has come to when it reaches component `j`. -/
def immediateIndex (destMask : BitVec 4) (immCount : Nat) : List (Fin 4) → Nat → Fin 4 → Nat
  | [], index, _ => index
  | i :: l, index, j =>
    if j = i then index
    else immediateIndex destMask immCount l
      (if selects destMask i then if index + 1 < immCount then index + 1 else index else index) j

theorem foldl_immediates (destMask : BitVec 4) (dest : RegisterIndex) (immCount : Nat)
    (imm : Nat → V) {value : LaneFile V → Fin 4 → V → V}
    (h : ∀ v, Componentwise fun file i => value file i v) (r : RegisterIndex) (j : Fin 4) :
    ∀ (l : List (Fin 4)) (_ : l.Nodup) (file : LaneFile V) (index : Nat),
      ((l.foldl (fun (file, immediateValueIndex) i =>
        if selects destMask i then
          (file.assign dest i (value file i (imm immediateValueIndex)),
            if immediateValueIndex + 1 < immCount then immediateValueIndex + 1
            else immediateValueIndex)
        else (file, immediateValueIndex)) (file, index)).1 r).get j =
      if r = dest ∧ l.any (j = ·) ∧ selects destMask j then
        value file j (imm (immediateIndex destMask immCount l index j))
      else (file r).get j
  | [], _, file, index => by simp
  | i :: l, hl, file, index => by
    have hi : i ∉ l := (List.nodup_cons.mp hl).1
    have ih := foldl_immediates destMask dest immCount imm h r j l (List.nodup_cons.mp hl).2
    rw [List.foldl_cons]
    by_cases hj : j = i
    · subst hj
      cases hs : selects destMask j <;> simp [ih, hi, immediateIndex, LaneFile.get_assign]
    · cases hs : selects destMask i
      · simp [ih, hj, hs, immediateIndex]
      · simp [ih, hj, hs, immediateIndex, (h _).assign hj, LaneFile.get_assign]

/-- The selected components before component `j`. -/
def selectedBefore (destMask : BitVec 4) (j : Fin 4) : Nat :=
  [(0 : Fin 4), 1, 2, 3].countP fun i => i < j && selects destMask i

/-- The loop counts the selected components that it has passed, up to the last value. -/
theorem immediateIndex_count {destMask : BitVec 4} {immCount : Nat} {j : Fin 4} {l : List (Fin 4)}
    (hsorted : l.Pairwise (· < ·)) (hj : j ∈ l) {index : Nat} (hindex : index < immCount) :
    immediateIndex destMask immCount l index j =
      min (index + l.countP fun i => i < j && selects destMask i) (immCount - 1) := by
  induction l generalizing index with
  | nil => cases hj
  | cons i l ih =>
    obtain ⟨hi, hsorted⟩ := List.pairwise_cons.mp hsorted
    rw [immediateIndex]
    split
    · next heq =>
      subst heq
      have hnone : (j :: l).countP (fun i => i < j && selects destMask i) = 0 := by
        rw [List.countP_eq_zero]
        intro k hk
        rcases List.mem_cons.mp hk with rfl | hk
        · simp
        · simp [Fin.not_lt.mpr (Fin.le_of_lt (hi k hk))]
      omega
    · next hne =>
      have hj : j ∈ l := (List.mem_cons.mp hj).resolve_left hne
      have hlt : i < j := hi j hj
      cases hs : selects destMask i with
      | false =>
        rw [if_neg Bool.false_ne_true, ih hsorted hj hindex, List.countP_cons_of_neg (by simp [hs])]
      | true =>
        rw [if_pos rfl, List.countP_cons_of_pos (by simp [hs, hlt])]
        split
        · next hnext =>
          rw [ih hsorted hj hnext]
          omega
        · rw [ih hsorted hj hindex]
          omega

theorem immediateIndex_eq (destMask : BitVec 4) {immCount : Nat} (h : 1 ≤ immCount) (j : Fin 4) :
    immediateIndex destMask immCount [0, 1, 2, 3] 0 j =
      min (selectedBefore destMask j) (immCount - 1) := by
  have hj : j ∈ [(0 : Fin 4), 1, 2, 3] := by
    revert j
    decide
  rw [immediateIndex_count (by decide) hj h, Nat.zero_add, selectedBefore]

/-- Selected component number `k` gets immediate value number `k`, or the last one. -/
theorem writeImmediates_get {immCount : Nat} (hcount : 1 ≤ immCount) {imm : Nat → V}
    {value : LaneFile V → Fin 4 → V → V} (h : ∀ v, Componentwise fun file i => value file i v)
    (destMask : BitVec 4) (dest : RegisterIndex) (file : LaneFile V) (r : RegisterIndex)
    (j : Fin 4) :
    (writeImmediates destMask dest immCount imm value file r).get j =
      if r = dest ∧ selects destMask j then
        value file j (imm (min (selectedBefore destMask j) (immCount - 1)))
      else (file r).get j := by
  have hmem : [(0 : Fin 4), 1, 2, 3].any (j = ·) := by
    revert j
    decide
  unfold writeImmediates
  rw [foldl_immediates destMask dest immCount imm h r j _ (by decide), immediateIndex_eq destMask hcount]
  simp only [hmem, true_and]

end

/-! ## The unit -/

structure ShaderUnit (V : Type) where
  isaMetadata : CommandStoreIsa
  isa : Nat → Dword
  gpr : Nat → LaneFile V
  pc : Nat
  uniformDwords : Nat → V

section
variable {V : Type}

/-- `executeInstructionForLanes`: the lanes below `threadCount`, one by one. -/
def executeInstructionForLanes (threadCount : Nat) (lane : LaneFile V → LaneFile V × Nat)
    (gpr : Nat → LaneFile V) : (Nat → LaneFile V) × Nat :=
  (List.range threadCount).foldl
    (fun (gpr, _) l => (Function.update gpr l (lane (gpr l)).1, (lane (gpr l)).2)) (gpr, 0)

/-- Put one value into a register of the lanes below `threadCount`. -/
def writeLanes (threadCount : Nat) (register : RegisterIndex) (value : VectorRegister V)
    (gpr : Nat → LaneFile V) : Nat → LaneFile V :=
  fun l => if l < threadCount then Function.update (gpr l) register value else gpr l

/-- The switch over `index` of the getters for sizes and registers. -/
def IoFields.select (fields : IoFields) (caller : String) :
    Nat → Except FatalError (BitVec 2 × RegisterIndex)
  | 0 => .ok (fields.size0, fields.register0)
  | 1 => .ok (fields.size1, fields.register1)
  | 2 => .ok (fields.size2, fields.register2)
  | _ => .error ("Invalid index for " ++ caller)

namespace ShaderUnit

def getUniformSize (u : ShaderUnit V) (index : Nat) : Except FatalError (BitVec 2) :=
  Prod.fst <$> u.isaMetadata.uniforms.select "getUniformSize" index

def getUniformRegisterIndex (u : ShaderUnit V) (index : Nat) : Except FatalError RegisterIndex :=
  Prod.snd <$> u.isaMetadata.uniforms.select "getUniformRegisterIndex" index

def getInputRegisterIndex (u : ShaderUnit V) (index : Nat) : Except FatalError RegisterIndex :=
  Prod.snd <$> u.isaMetadata.inputs.select "getInputOutputRegisterIndex" index

/-- One uniform of `loadUniforms`, from the dword at `offset` on. -/
def loadUniform (alu : Alu V) (threadCount : Nat) (u : ShaderUnit V) :
    (Nat → LaneFile V) × Nat → Nat → Except FatalError ((Nat → LaneFile V) × Nat)
  | (gpr, offset), uniformIndex => do
    let componentsCount := nonZeroCountToInt (← u.getUniformSize uniformIndex)
    let registerIndex ← u.getUniformRegisterIndex uniformIndex
    let registerValue := [0, 1, 2, 3].foldl
      (fun (r : VectorRegister V) (component : Fin 4) =>
        if component < componentsCount then r.set (u.uniformDwords (offset + component)) component
        else r)
      (VectorRegister.replicate alu.zero)
    return (writeLanes threadCount registerIndex registerValue gpr, offset + componentsCount)

def loadUniforms (alu : Alu V) (threadCount : Nat) (u : ShaderUnit V) :
    Except FatalError (Nat → LaneFile V) := do
  let (gpr, _) ← (List.range u.isaMetadata.uniformsCount.toNat).foldlM
    (u.loadUniform alu threadCount) (u.gpr, 0)
  return gpr

/-- The mask of the registers that hold uniforms or inputs. -/
def usedRegisterMask (u : ShaderUnit V) : Except FatalError (BitVec 16) := do
  let mask ← (List.range u.isaMetadata.uniformsCount.toNat).foldlM
    (fun mask i => return setBit mask (← u.getUniformRegisterIndex i).val) (0 : BitVec 16)
  (List.range (nonZeroCountToInt u.isaMetadata.inputsCount)).foldlM
    (fun mask i => return setBit mask (← u.getInputRegisterIndex i).val) mask

def zeroInitializeUnusedRegisters (alu : Alu V) (threadCount : Nat) (u : ShaderUnit V) :
    Except FatalError (Nat → LaneFile V) := do
  let usedRegisterMask ← u.usedRegisterMask
  return (List.finRange 16).foldl
    (fun gpr (registerIndex : RegisterIndex) =>
      if isBitSet usedRegisterMask registerIndex then gpr
      else writeLanes threadCount registerIndex (.replicate alu.zero) gpr) u.gpr

/-- The opcode at `pc` and, in the layout its case of the switch uses, the operands. -/
def fetch (alu : Alu V) (u : ShaderUnit V) : Except FatalError Instruction :=
  match Opcode.ofValue (headerOpcode (u.isa u.pc)) with
  | none => .error ("Unknown opcode: " ++ toString (headerOpcode (u.isa u.pc)))
  | some opcode =>
    .ok ⟨opcode, .read (opcode.operation alu).layout fun k => u.isa (u.pc + k)⟩

/-- The case of the switch for `inst`. -/
def execute (alu : Alu V) (threadCount : Nat) (inst : Instruction) (u : ShaderUnit V) :
    Except FatalError (ShaderUnit V) :=
  match inst.opcode.operation alu with
  | .trap => .ok { u with pc := u.pc + 1 }
  | .lduni => do return { u with gpr := ← u.loadUniforms alu threadCount, pc := u.pc + 1 }
  | .initregs => do
    return { u with gpr := ← u.zeroInitializeUnusedRegisters alu threadCount, pc := u.pc + 1 }
  | operation =>
    let (gpr, pcIncrement) := executeInstructionForLanes threadCount
      (executeInstructionLane alu operation inst.operands) u.gpr
    .ok { u with gpr := gpr, pc := u.pc + pcIncrement }

/-- One iteration of the loop of `executeInstructions`. -/
def executeInstruction (alu : Alu V) (threadCount : Nat) (u : ShaderUnit V) :
    Except FatalError (ShaderUnit V) := do
  u.execute alu threadCount (← u.fetch alu)

/-- The loop of `executeInstructions` for as many clocks; it waits one clock
    after each instruction. -/
def executeInstructions (alu : Alu V) (isaSize threadCount : Nat) :
    Nat → ShaderUnit V → Except FatalError (ShaderUnit V)
  | 0, u => .ok u
  | clocks + 1, u =>
    if u.pc < isaSize then do
      executeInstructions alu isaSize threadCount clocks (← u.executeInstruction alu threadCount)
    else .ok u

end ShaderUnit

/-! ## What an instruction does to the unit -/

/-- The lanes below `threadCount` each take the step; the others stay. -/
theorem executeInstructionForLanes_eq {lane : LaneFile V → LaneFile V × Nat} {increment : Nat}
    (h : ∀ file, (lane file).2 = increment) (gpr : Nat → LaneFile V) : ∀ threadCount,
    executeInstructionForLanes (threadCount + 1) lane gpr =
      (fun l => if l < threadCount + 1 then (lane (gpr l)).1 else gpr l, increment)
  | 0 => by
    unfold executeInstructionForLanes
    simp only [Nat.zero_add, List.range_one, List.foldl_cons, List.foldl_nil, h]
    refine Prod.ext (funext fun l => ?_) rfl
    by_cases hl : l = 0
    · subst hl; simp
    · simp [hl]
  | threadCount + 1 => by
    have ih := executeInstructionForLanes_eq h gpr threadCount
    unfold executeInstructionForLanes at ih ⊢
    rw [List.range_succ, List.foldl_append, ih]
    simp only [List.foldl_cons, List.foldl_nil, h]
    refine Prod.ext (funext fun l => ?_) rfl
    by_cases hl : l = threadCount + 1
    · subst hl; simp
    · have hiff : l < threadCount + 1 + 1 ↔ l < threadCount + 1 := by omega
      simp [hl, hiff]

theorem executeInstructionLane_increment (alu : Alu V) {operation : Operation V} {inst : Operands}
    (h : operation.layout = inst.layout) (hn : inst.layout ≠ .nullary) (file : LaneFile V) :
    (executeInstructionLane alu operation inst file).2 = 1 + inst.immediateValues.length := by
  cases operation <;> cases inst <;> first
    | rfl
    | exact absurd rfl hn
    | exact nomatch h

/-- What the switch reads where `i` was written: the operands in the layout that it
    selects for the opcode. -/
def Instruction.decoded (alu : Alu V) (i : Instruction) : Instruction :=
  ⟨i.opcode, .read (i.opcode.operation alu).layout fun k => i.dwords.getD k 0⟩

/-- The switch reads as many dwords as were written. -/
def Instruction.Readable (alu : Alu V) (i : Instruction) : Prop :=
  (i.decoded alu).dwords.length = i.dwords.length

/-- The opcode of an instruction is one that the switch reads in its layout. -/
def Instruction.Dispatched (alu : Alu V) (i : Instruction) : Prop :=
  (i.opcode.operation alu).layout = i.operands.layout

/-- Without operands there is nothing to read behind the opcode. -/
theorem Instruction.Dispatched.nullary {alu : Alu V} {i : Instruction} (h : i.Dispatched alu)
    (hn : i.operands.layout = .nullary) : i.dwords.length = 1 ∧
      (i.opcode.operation alu = .trap ∨ i.opcode.operation alu = .lduni ∨
        i.opcode.operation alu = .initregs) := by
  constructor
  · rw [i.dwords_length]
    cases hoperands : i.operands <;> rw [hoperands] at hn <;> first | rfl | cases hn
  · have hlayout : (i.opcode.operation alu).layout = .nullary := h.trans hn
    cases hop : i.opcode.operation alu with
    | trap => exact Or.inl rfl
    | lduni => exact Or.inr (Or.inl rfl)
    | initregs => exact Or.inr (Or.inr rfl)
    | _ =>
      rw [hop] at hlayout
      cases hlayout

theorem Instruction.Dispatched.operands {alu : Alu V} {i : Instruction} (h : i.Dispatched alu)
    (hn : i.operands.layout ≠ .nullary) : i.opcode.operation alu ≠ .trap ∧
      i.opcode.operation alu ≠ .lduni ∧ i.opcode.operation alu ≠ .initregs := by
  have hlayout : (i.opcode.operation alu).layout ≠ .nullary := fun hlayout => hn (h.symm.trans hlayout)
  refine ⟨?_, ?_, ?_⟩ <;>
  · intro hop
    rw [hop] at hlayout
    exact hlayout rfl

theorem Instruction.Dispatched.decoded {alu : Alu V} {i : Instruction} (h : i.Dispatched alu)
    (hfit : i.operands.ImmediatesFit) : i.decoded alu = i := by
  have hread : Operands.read i.operands.layout (fun k => i.dwords.getD k 0) = i.operands :=
    Operands.read_dwords i hfit fun k hk => (List.getElem_eq_getD 0).symm
  unfold Instruction.decoded
  rw [show (i.opcode.operation alu).layout = i.operands.layout from h, hread]

theorem Instruction.Dispatched.readable {alu : Alu V} {i : Instruction} (h : i.Dispatched alu)
    (hfit : i.operands.ImmediatesFit) : i.Readable alu := by
  unfold Instruction.Readable
  rw [h.decoded hfit]

theorem Instruction.dispatched_decoded (alu : Alu V) (i : Instruction) :
    (i.decoded alu).Dispatched alu := by
  simp only [Instruction.Dispatched, Instruction.decoded, Operands.read_layout]

theorem Instruction.fit_decoded (alu : Alu V) (i : Instruction) :
    (i.decoded alu).operands.ImmediatesFit := by
  simp only [Instruction.decoded, Operands.read_fit]

namespace ShaderUnit

variable {u : ShaderUnit V}

/-- Reading dwords that an instruction was encoded to. -/
theorem fetch_decoded {alu : Alu V} {i : Instruction} (hr : i.Readable alu)
    (hisa : ∀ k, ∀ hk : k < i.dwords.length, u.isa (u.pc + k) = i.dwords[k]) :
    u.fetch alu = .ok (i.decoded alu) := by
  have hget : ∀ k < i.dwords.length, i.dwords.getD k 0 = u.isa (u.pc + k) := by
    intro k hk
    rw [hisa k hk]
    exact (List.getElem_eq_getD 0).symm
  have hop := i.headerOpcode_dwords (hisa 0 (Nat.succ_pos _))
  rw [Nat.add_zero] at hop
  unfold fetch
  rw [hop, Opcode.ofValue_value]
  show Except.ok (Instruction.mk _ _) = Except.ok (Instruction.mk _ _)
  congr 2
  symm
  apply Operands.read_congr (hget 0 (Nat.succ_pos _))
  intro k hk
  -- the immediate values that are read are dwords of the instruction
  have hlen : (i.decoded alu).operands.immediateValues.length + 1 = i.dwords.length := hr
  exact hget (1 + k) (by rw [← hlen, Nat.add_comm]; exact Nat.succ_lt_succ hk)

/-- An instruction with operands takes one step in every running lane. -/
theorem execute_lanes {alu : Alu V} {i : Instruction} (hd : i.Dispatched alu)
    (hn : i.operands.layout ≠ .nullary) (threadCount : Nat) (u : ShaderUnit V) :
    u.execute alu (threadCount + 1) i = .ok { u with
      gpr := fun l => if l < threadCount + 1 then
        (executeInstructionLane alu (i.opcode.operation alu) i.operands (u.gpr l)).1 else u.gpr l
      pc := u.pc + i.dwords.length } := by
  have hlanes := executeInstructionForLanes_eq
    (fun file => executeInstructionLane_increment alu hd hn file) u.gpr threadCount
  unfold execute
  rw [i.dwords_length]
  obtain ⟨htrap, hlduni, hinitregs⟩ := hd.operands hn
  cases hop : i.opcode.operation alu with
  | trap => exact absurd hop htrap
  | lduni => exact absurd hop hlduni
  | initregs => exact absurd hop hinitregs
  | _ =>
    rw [hop] at hlanes
    simp only [hlanes]

theorem executeInstruction_lanes {alu : Alu V} {i : Instruction} (hf : u.fetch alu = .ok i)
    (hd : i.Dispatched alu) (hn : i.operands.layout ≠ .nullary) (threadCount : Nat) :
    u.executeInstruction alu (threadCount + 1) = .ok { u with
      gpr := fun l => if l < threadCount + 1 then
        (executeInstructionLane alu (i.opcode.operation alu) i.operands (u.gpr l)).1 else u.gpr l
      pc := u.pc + i.dwords.length } := by
  unfold executeInstruction
  rw [hf, ok_bind]
  exact execute_lanes hd hn threadCount u

/-- A further iteration of the loop. -/
theorem executeInstructions_succ {alu : Alu V} {isaSize threadCount : Nat} : ∀ {clocks : Nat}
    {u u1 u2 : ShaderUnit V}, u.executeInstructions alu isaSize threadCount clocks = .ok u1 →
    u1.pc < isaSize → u1.executeInstruction alu threadCount = .ok u2 →
    u.executeInstructions alu isaSize threadCount (clocks + 1) = .ok u2
  | 0, u, u1, u2, h, hlt, hstep => by
    cases h
    rw [executeInstructions, if_pos hlt, hstep]
    rfl
  | clocks + 1, u, u1, u2, h, hlt, hstep => by
    rw [executeInstructions] at h ⊢
    by_cases hpc : u.pc < isaSize
    · rw [if_pos hpc] at h ⊢
      obtain ⟨u', hu', hrest⟩ := bind_ok.mp h
      rw [hu']
      exact executeInstructions_succ hrest hlt hstep
    · rw [if_neg hpc] at h
      cases h
      exact absurd hlt hpc

/-- The header describes at most three inputs and three uniforms, as every header
    does that the directives of a shader wrote. -/
structure CountsFit (u : ShaderUnit V) : Prop where
  uniforms : u.isaMetadata.uniformsCount.toNat ≤ 3
  inputs : nonZeroCountToInt u.isaMetadata.inputsCount ≤ 3

theorem select_ok (fields : IoFields) (caller : String) {index : Nat} (h : index < 3) :
    ∃ r, fields.select caller index = .ok r := by
  match index with
  | 0 | 1 | 2 => exact ⟨_, rfl⟩

theorem loadUniforms_ok (h : u.CountsFit) (alu : Alu V) (threadCount : Nat) :
    ∃ gpr, u.loadUniforms alu threadCount = .ok gpr := by
  have hstep : ∀ i ∈ List.range u.isaMetadata.uniformsCount.toNat,
      ∀ s, ∃ s', u.loadUniform alu threadCount s i = .ok s' := by
    intro i hi s
    have hi : i < 3 := Nat.lt_of_lt_of_le (List.mem_range.mp hi) h.uniforms
    obtain ⟨r, hr⟩ := select_ok u.isaMetadata.uniforms "getUniformSize" hi
    obtain ⟨r', hr'⟩ := select_ok u.isaMetadata.uniforms "getUniformRegisterIndex" hi
    simp only [loadUniform, getUniformSize, getUniformRegisterIndex, hr, hr', map_ok, ok_bind]
    exact ⟨_, rfl⟩
  obtain ⟨s', hs'⟩ := foldlM_ok (s := (u.gpr, 0)) hstep
  unfold loadUniforms
  rw [hs']
  exact ⟨_, rfl⟩

theorem zeroInitializeUnusedRegisters_ok (h : u.CountsFit) (alu : Alu V) (threadCount : Nat) :
    ∃ gpr, u.zeroInitializeUnusedRegisters alu threadCount = .ok gpr := by
  have huni : ∀ i ∈ List.range u.isaMetadata.uniformsCount.toNat, ∀ mask : BitVec 16,
      ∃ mask', (return setBit mask (← u.getUniformRegisterIndex i).val) =
        (.ok mask' : Except FatalError (BitVec 16)) := by
    intro i hi mask
    obtain ⟨r, hr⟩ := select_ok u.isaMetadata.uniforms "getUniformRegisterIndex"
      (Nat.lt_of_lt_of_le (List.mem_range.mp hi) h.uniforms)
    unfold getUniformRegisterIndex
    rw [hr]
    exact ⟨_, rfl⟩
  have hinp : ∀ i ∈ List.range (nonZeroCountToInt u.isaMetadata.inputsCount), ∀ mask : BitVec 16,
      ∃ mask', (return setBit mask (← u.getInputRegisterIndex i).val) =
        (.ok mask' : Except FatalError (BitVec 16)) := by
    intro i hi mask
    obtain ⟨r, hr⟩ := select_ok u.isaMetadata.inputs "getInputOutputRegisterIndex"
      (Nat.lt_of_lt_of_le (List.mem_range.mp hi) h.inputs)
    unfold getInputRegisterIndex
    rw [hr]
    exact ⟨_, rfl⟩
  obtain ⟨m1, h1⟩ := foldlM_ok (s := (0 : BitVec 16)) huni
  obtain ⟨m2, h2⟩ := foldlM_ok (s := m1) hinp
  unfold zeroInitializeUnusedRegisters usedRegisterMask
  rw [h1]
  simp only [bind, Except.bind] at h2 ⊢
  rw [h2]
  exact ⟨_, rfl⟩

/-- One iteration of the loop over an instruction that was encoded at `pc`: the
    increment of `pc` is the number of its dwords. -/
theorem executeInstruction_encoded {alu : Alu V} {i : Instruction} (hu : u.CountsFit)
    (hf : u.fetch alu = .ok i) (hd : (i.opcode.operation alu).layout = i.operands.layout)
    (threadCount : Nat) : ∃ gpr, u.executeInstruction alu (threadCount + 1) =
      .ok { u with gpr := gpr, pc := u.pc + i.dwords.length } ∧
      (i.operands.layout ≠ .nullary → ∀ l < threadCount + 1,
        gpr l = (executeInstructionLane alu (i.opcode.operation alu) i.operands (u.gpr l)).1) := by
  by_cases hn : i.operands.layout = .nullary
  · have hlen : i.dwords.length = 1 := by
      obtain ⟨opcode, operands⟩ := i
      cases operands <;> first | rfl | exact nomatch hn
    rw [hn] at hd
    unfold executeInstruction execute
    rw [hf, hlen, ok_bind]
    cases hop : i.opcode.operation alu with
    | trap => exact ⟨u.gpr, rfl, fun h => absurd hn h⟩
    | lduni =>
      obtain ⟨gpr, hg⟩ := loadUniforms_ok hu alu (threadCount + 1)
      exact ⟨gpr, by simp only [hg]; rfl, fun h => absurd hn h⟩
    | initregs =>
      obtain ⟨gpr, hg⟩ := zeroInitializeUnusedRegisters_ok hu alu (threadCount + 1)
      exact ⟨gpr, by simp only [hg]; rfl, fun h => absurd hn h⟩
    | _ => rw [hop] at hd; exact nomatch hd
  · refine ⟨_, executeInstruction_lanes hf hd hn threadCount, fun _ l hl => ?_⟩
    exact if_pos hl

end ShaderUnit

end

end PicoGpu
