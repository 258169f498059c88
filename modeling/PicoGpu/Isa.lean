import PicoGpu.Lib.BitFields
import PicoGpu.Util

/- isa.h: the opcodes, the instruction layouts and the command headers of the
   shader units. A bit field is given by its width; `unpack` and `pack` take the
   fields of a dword from its low end, as the compilers that build the simulator
   lay them out. -/
namespace PicoGpu
open BitFields

/-- A general purpose register; the bit fields that hold one have four bits. -/
abbrev RegisterIndex := Fin 16

namespace Isa

def simdSize : Nat := 32
def maxIsaSize : Nat := 512
def maxInputOutputRegisters : Nat := 3
def commandSizeInDwords : Nat := 3

end Isa

/-! ## Commands -/

inductive CommandType where
  | storeIsa | executeIsa
  deriving DecidableEq, Repr

inductive ProgramType where
  | vertexShader | fragmentShader
  deriving DecidableEq, Repr

def CommandType.value : CommandType → Nat
  | storeIsa => 0
  | executeIsa => 1

def ProgramType.value : ProgramType → Nat
  | vertexShader => 0
  | fragmentShader => 1

/-- The `inputSize`/`inputRegister` fields of `CommandStoreIsa`, and the ones of
    the same form for outputs and uniforms. -/
structure IoFields where
  size0 : BitVec 2
  register0 : RegisterIndex
  size1 : BitVec 2
  register1 : RegisterIndex
  size2 : BitVec 2
  register2 : RegisterIndex
  deriving DecidableEq, Repr

structure CommandStoreIsa where
  commandType : CommandType
  hasNextCommand : BitVec 1
  programLength : BitVec 9
  programType : ProgramType
  inputsCount : BitVec 2
  inputs : IoFields
  outputsCount : BitVec 2
  outputs : IoFields
  uniformsCount : BitVec 3
  uniforms : IoFields
  deriving DecidableEq, Repr

def IoFields.zero : IoFields := ⟨0, 0, 0, 0, 0, 0⟩

/-- The command with all bits zero. -/
def CommandStoreIsa.zero : CommandStoreIsa :=
  ⟨.storeIsa, 0, 0, .vertexShader, 0, .zero, 0, .zero, 0, .zero⟩

/-- `raw`. The field that would cross the end of the second dword starts the third. -/
def CommandStoreIsa.raw (c : CommandStoreIsa) : List Dword :=
  [BitVec.ofNat 32 (pack
    [(1, c.commandType.value), (1, c.hasNextCommand.toNat), (9, c.programLength.toNat),
      (1, c.programType.value), (2, c.inputsCount.toNat), (2, c.inputs.size0.toNat),
      (4, c.inputs.register0), (2, c.inputs.size1.toNat), (4, c.inputs.register1),
      (2, c.inputs.size2.toNat), (4, c.inputs.register2)]),
    BitVec.ofNat 32 (pack
      [(2, c.outputsCount.toNat), (2, c.outputs.size0.toNat), (4, c.outputs.register0),
        (2, c.outputs.size1.toNat), (4, c.outputs.register1), (2, c.outputs.size2.toNat),
        (4, c.outputs.register2), (3, c.uniformsCount.toNat), (2, c.uniforms.size0.toNat),
        (4, c.uniforms.register0), (2, c.uniforms.size1.toNat)]),
    BitVec.ofNat 32 (pack
      [(4, c.uniforms.register1), (2, c.uniforms.size2.toNat), (4, c.uniforms.register2)])]

def CommandType.ofValue (n : Nat) : CommandType := if n = 0 then storeIsa else executeIsa

def ProgramType.ofValue (n : Nat) : ProgramType := if n = 0 then vertexShader else fragmentShader

/-- The fields that the bit fields of the union show of its three dwords. -/
def CommandStoreIsa.ofRaw (raw : Nat → Dword) : CommandStoreIsa :=
  let first := fun k => (unpack [1, 1, 9, 1, 2, 2, 4, 2, 4, 2, 4] (raw 0).toNat).getD k 0
  let second := fun k => (unpack [2, 2, 4, 2, 4, 2, 4, 3, 2, 4, 2] (raw 1).toNat).getD k 0
  let third := fun k => (unpack [4, 2, 4] (raw 2).toNat).getD k 0
  { commandType := .ofValue (first 0)
    hasNextCommand := BitVec.ofNat 1 (first 1)
    programLength := BitVec.ofNat 9 (first 2)
    programType := .ofValue (first 3)
    inputsCount := BitVec.ofNat 2 (first 4)
    inputs := ⟨BitVec.ofNat 2 (first 5), Fin.ofNat 16 (first 6), BitVec.ofNat 2 (first 7),
      Fin.ofNat 16 (first 8), BitVec.ofNat 2 (first 9), Fin.ofNat 16 (first 10)⟩
    outputsCount := BitVec.ofNat 2 (second 0)
    outputs := ⟨BitVec.ofNat 2 (second 1), Fin.ofNat 16 (second 2), BitVec.ofNat 2 (second 3),
      Fin.ofNat 16 (second 4), BitVec.ofNat 2 (second 5), Fin.ofNat 16 (second 6)⟩
    uniformsCount := BitVec.ofNat 3 (second 7)
    uniforms := ⟨BitVec.ofNat 2 (second 8), Fin.ofNat 16 (second 9), BitVec.ofNat 2 (second 10),
      Fin.ofNat 16 (third 0), BitVec.ofNat 2 (third 1), Fin.ofNat 16 (third 2)⟩ }

theorem CommandStoreIsa.raw_length (c : CommandStoreIsa) :
    c.raw.length = Isa.commandSizeInDwords := rfl

theorem CommandType.ofValue_mod (t : CommandType) : CommandType.ofValue (t.value % 2 ^ 1) = t := by
  cases t <;> rfl

theorem ProgramType.ofValue_mod (t : ProgramType) : ProgramType.ofValue (t.value % 2 ^ 1) = t := by
  cases t <;> rfl

theorem ofNat_toNat_mod {width : Nat} (x : BitVec width) :
    BitVec.ofNat width (x.toNat % 2 ^ width) = x := by
  rw [Nat.mod_eq_of_lt x.isLt, BitVec.ofNat_toNat, BitVec.setWidth_eq]

theorem registerIndex_mod (r : RegisterIndex) : Fin.ofNat 16 (r.val % 2 ^ 4) = r := by
  rw [Nat.mod_eq_of_lt (show r.val < 2 ^ 4 from r.isLt), Fin.ofNat_val_eq_self]

/-- The header is read as it was written. -/
theorem CommandStoreIsa.ofRaw_raw (c : CommandStoreIsa) :
    CommandStoreIsa.ofRaw (fun k => c.raw.getD k 0) = c := by
  have hread : ∀ (fields : List (Nat × Nat)) (widths : List Nat), widths = fields.map Prod.fst →
      widths.sum ≤ 32 → unpack widths (BitVec.ofNat 32 (pack fields)).toNat =
        fields.map fun f => f.2 % 2 ^ f.1 := by
    intro fields widths hwidths hsum
    subst hwidths
    exact unpack_word fields hsum
  unfold CommandStoreIsa.ofRaw CommandStoreIsa.raw
  simp only [List.getD_cons_zero, List.getD_cons_succ]
  rw [hread _ [1, 1, 9, 1, 2, 2, 4, 2, 4, 2, 4] rfl (by decide),
    hread _ [2, 2, 4, 2, 4, 2, 4, 3, 2, 4, 2] rfl (by decide), hread _ [4, 2, 4] rfl (by decide)]
  simp only [List.map_cons, List.map_nil, List.getD_cons_zero, List.getD_cons_succ,
    CommandType.ofValue_mod, ProgramType.ofValue_mod, ofNat_toNat_mod, registerIndex_mod]

/-! ## Opcodes -/

inductive Opcode where
  | fadd | fadd_imm | fsub | fsub_imm | fmul | fmul_imm | fdiv | fdiv_imm | fneg | fdot | fcross
  | fcross2 | fmad | frcp | fnorm | fmax | fmin
  | iadd | iadd_imm | isub | isub_imm | imul | imul_imm | idiv | idiv_imm | ineg | imax | imin
  | init | swizzle | mov | trap
  | lduni | initregs
  deriving DecidableEq, Repr

namespace Opcode

/-- The enumerators in their order. -/
def all : List Opcode :=
  [fadd, fadd_imm, fsub, fsub_imm, fmul, fmul_imm, fdiv, fdiv_imm, fneg, fdot, fcross, fcross2,
    fmad, frcp, fnorm, fmax, fmin, iadd, iadd_imm, isub, isub_imm, imul, imul_imm, idiv, idiv_imm,
    ineg, imax, imin, init, swizzle, mov, trap, lduni, initregs]

def value (opcode : Opcode) : Nat := all.idxOf opcode

def ofValue (n : Nat) : Option Opcode := all[n]?

theorem ofValue_value (opcode : Opcode) : ofValue opcode.value = some opcode := by
  cases opcode <;> rfl

/-- The static assertion behind `Opcode::COUNT`. -/
theorem value_lt (opcode : Opcode) : opcode.value < 2 ^ 6 := by
  cases opcode <;> decide

end Opcode

inductive SwizzlePatternComponent where
  | swizzleX | swizzleY | swizzleZ | swizzleW
  deriving DecidableEq, Repr

namespace SwizzlePatternComponent

def value : SwizzlePatternComponent → Nat
  | swizzleX => 0
  | swizzleY => 1
  | swizzleZ => 2
  | swizzleW => 3

def ofValue : Nat → SwizzlePatternComponent
  | 0 => swizzleX
  | 1 => swizzleY
  | 2 => swizzleZ
  | _ => swizzleW

theorem ofValue_value (c : SwizzlePatternComponent) : ofValue c.value = c := by
  cases c <;> rfl

end SwizzlePatternComponent

/-! ## Instructions -/

/-- The instruction layouts. -/
inductive InstructionLayout where
  | nullary | unaryMath | binaryMath | ternaryMath | unaryMathImm | binaryMathImm | swizzle
  deriving DecidableEq, Repr

/-- The fields of each layout after the opcode, its `reserved` ones left out. -/
inductive Operands where
  | nullary
  | unaryMath (dest src : RegisterIndex) (destMask : BitVec 4)
  | binaryMath (dest src1 src2 : RegisterIndex) (destMask : BitVec 4)
  | ternaryMath (dest src1 src2 src3 : RegisterIndex) (destMask : BitVec 4)
  | unaryMathImm (dest : RegisterIndex) (destMask : BitVec 4) (immediateValues : List Dword)
  | binaryMathImm (dest src : RegisterIndex) (destMask : BitVec 4) (immediateValues : List Dword)
  | swizzle (dest src : RegisterIndex)
      (patternX patternY patternZ patternW : SwizzlePatternComponent)
  deriving DecidableEq, Repr

namespace Operands

def layout : Operands → InstructionLayout
  | nullary => .nullary
  | unaryMath .. => .unaryMath
  | binaryMath .. => .binaryMath
  | ternaryMath .. => .ternaryMath
  | unaryMathImm .. => .unaryMathImm
  | binaryMathImm .. => .binaryMathImm
  | swizzle .. => .swizzle

/-- What follows the first dword. -/
def immediateValues : Operands → List Dword
  | unaryMathImm _ _ imms | binaryMathImm _ _ _ imms => imms
  | _ => []

/-- The fields of the first dword, with their widths. -/
def fields (opcode : Opcode) : Operands → List (Nat × Nat)
  | nullary => [(6, opcode.value)]
  | unaryMath dest src destMask =>
    [(6, opcode.value), (4, dest), (4, src), (4, destMask.toNat)]
  | binaryMath dest src1 src2 destMask =>
    [(6, opcode.value), (4, dest), (4, src1), (4, src2), (4, destMask.toNat)]
  | ternaryMath dest src1 src2 src3 destMask =>
    [(6, opcode.value), (4, dest), (4, src1), (4, src2), (4, src3), (4, destMask.toNat)]
  | unaryMathImm dest destMask imms =>
    [(6, opcode.value), (4, dest), (4, destMask.toNat),
      (2, (intToNonZeroCount 2 imms.length).toNat), (16, 0)]
  | binaryMathImm dest src destMask imms =>
    [(6, opcode.value), (4, dest), (4, src), (4, destMask.toNat),
      (2, (intToNonZeroCount 2 imms.length).toNat), (12, 0)]
  | swizzle dest src x y z w =>
    [(6, opcode.value), (4, dest), (4, src), (2, x.value), (2, y.value), (2, z.value), (2, w.value)]

end Operands

structure Instruction where
  opcode : Opcode
  operands : Operands
  deriving DecidableEq, Repr

/-- The dwords of an instruction. -/
def Instruction.dwords (i : Instruction) : List Dword :=
  BitVec.ofNat 32 (pack (i.operands.fields i.opcode)) :: i.operands.immediateValues

theorem Instruction.dwords_length (i : Instruction) :
    i.dwords.length = 1 + i.operands.immediateValues.length := by
  rw [Instruction.dwords, List.length_cons, Nat.add_comm]

/-- `instruction.header.opcode`. -/
def headerOpcode (dword : Dword) : Nat := (unpack [6] dword.toNat).getD 0 0

/-- The widths of the bit fields of a layout. -/
def InstructionLayout.widths : InstructionLayout → List Nat
  | nullary => [6]
  | unaryMath => [6, 4, 4, 4]
  | binaryMath => [6, 4, 4, 4, 4]
  | ternaryMath => [6, 4, 4, 4, 4, 4]
  | unaryMathImm => [6, 4, 4, 2, 16]
  | binaryMathImm => [6, 4, 4, 4, 2, 12]
  | swizzle => [6, 4, 4, 2, 2, 2, 2]

/-- The operands that a union cast to `layout` shows at `dwords`. -/
def Operands.read (layout : InstructionLayout) (dwords : Nat → Dword) : Operands :=
  let field : Nat → Nat := fun k => (unpack layout.widths (dwords 0).toNat).getD k 0
  let reg : Nat → RegisterIndex := fun k => Fin.ofNat 16 (field k)
  let mask : Nat → BitVec 4 := fun k => BitVec.ofNat 4 (field k)
  let pattern : Nat → SwizzlePatternComponent := fun k => .ofValue (field k)
  let immediateValues : Nat → List Dword := fun k =>
    (List.range (nonZeroCountToInt (BitVec.ofNat 2 (field k)))).map fun j => dwords (1 + j)
  match layout with
  | .nullary => .nullary
  | .unaryMath => .unaryMath (reg 1) (reg 2) (mask 3)
  | .binaryMath => .binaryMath (reg 1) (reg 2) (reg 3) (mask 4)
  | .ternaryMath => .ternaryMath (reg 1) (reg 2) (reg 3) (reg 4) (mask 5)
  | .unaryMathImm => .unaryMathImm (reg 1) (mask 2) (immediateValues 3)
  | .binaryMathImm => .binaryMathImm (reg 1) (reg 2) (mask 3) (immediateValues 4)
  | .swizzle => .swizzle (reg 1) (reg 2) (pattern 3) (pattern 4) (pattern 5) (pattern 6)

/-- One to four immediate values, where the layout has them. -/
def Operands.ImmediatesFit : Operands → Prop
  | unaryMathImm _ _ imms | binaryMathImm _ _ _ imms => 1 ≤ imms.length ∧ imms.length ≤ 4
  | _ => True

/-! ## Round trip of one instruction -/

theorem Operands.fields_widths (opcode : Opcode) (o : Operands) :
    (o.fields opcode).map Prod.fst = o.layout.widths := by
  cases o <;> rfl

theorem InstructionLayout.widths_sum (layout : InstructionLayout) : layout.widths.sum ≤ 32 := by
  cases layout <;> decide

/-- The fields of an encoded instruction, read back. -/
theorem Operands.unpack_fields (opcode : Opcode) (o : Operands) :
    unpack o.layout.widths (BitVec.ofNat 32 (pack (o.fields opcode))).toNat =
      (o.fields opcode).map fun f => f.2 % 2 ^ f.1 := by
  rw [← o.fields_widths opcode]
  apply unpack_word
  rw [o.fields_widths opcode]
  exact o.layout.widths_sum

@[simp] theorem reg_field (r : RegisterIndex) : Fin.ofNat 16 (r.val % 2 ^ 4) = r := by
  apply Fin.ext
  simp [Nat.mod_eq_of_lt r.isLt]

@[simp] theorem bits_field {width : Nat} (b : BitVec width) :
    BitVec.ofNat width (b.toNat % 2 ^ width) = b := by
  rw [Nat.mod_eq_of_lt b.isLt, BitVec.ofNat_toNat, BitVec.setWidth_eq]

@[simp] theorem pattern_field (c : SwizzlePatternComponent) :
    SwizzlePatternComponent.ofValue (c.value % 2 ^ 2) = c := by
  cases c <;> rfl

theorem Instruction.headerOpcode_dwords (i : Instruction) {dword : Dword}
    (h : dword = BitVec.ofNat 32 (pack (i.operands.fields i.opcode))) :
    headerOpcode dword = i.opcode.value := by
  have hf := i.operands.unpack_fields i.opcode
  have hv := Nat.mod_eq_of_lt i.opcode.value_lt
  rw [← h] at hf
  -- the opcode is the first field of every layout
  have hhead : dword.toNat % 2 ^ 6 = i.opcode.value % 2 ^ 6 := by
    obtain ⟨opcode, operands⟩ := i
    cases operands <;> exact (List.cons.inj hf).1
  exact hhead.trans hv

/-- The dwords after the first one, as the immediate values that are read. -/
theorem immediates_read {imms : List Dword} {dwords : Nat → Dword} (h1 : 1 ≤ imms.length)
    (h4 : imms.length ≤ 4) (h : ∀ k, ∀ hk : k < imms.length, dwords (1 + k) = imms[k]) :
    (List.range (nonZeroCountToInt (intToNonZeroCount 2 imms.length))).map
      (fun j => dwords (1 + j)) = imms := by
  rw [nonZeroCount_roundtrip h1 h4]
  apply List.ext_getElem
  · simp
  · intro k hk _
    simp only [List.length_map, List.length_range] at hk
    simp [h k hk]

/-- Reading the layout an instruction was written with gives its operands back. -/
theorem Operands.read_dwords (i : Instruction) (hfit : i.operands.ImmediatesFit)
    {dwords : Nat → Dword} (h : ∀ k, ∀ hk : k < i.dwords.length, dwords k = i.dwords[k]) :
    Operands.read i.operands.layout dwords = i.operands := by
  have hd : dwords 0 = BitVec.ofNat 32 (pack (i.operands.fields i.opcode)) :=
    h 0 (Nat.succ_pos _)
  have hf := i.operands.unpack_fields i.opcode
  rw [← hd] at hf
  have himms : ∀ k, ∀ hk : k < i.operands.immediateValues.length,
      dwords (1 + k) = i.operands.immediateValues[k] := by
    intro k hk
    rw [Nat.add_comm]
    exact h (k + 1) (Nat.succ_lt_succ hk)
  unfold Operands.read
  rw [hf]
  obtain ⟨opcode, operands⟩ := i
  cases operands with
  | nullary => rfl
  | unaryMathImm dest destMask imms =>
    simp only [Operands.layout, Operands.fields, List.map_cons, List.map_nil, List.getD_cons_succ,
      List.getD_cons_zero, reg_field, bits_field, immediates_read hfit.1 hfit.2 himms]
  | binaryMathImm dest src destMask imms =>
    simp only [Operands.layout, Operands.fields, List.map_cons, List.map_nil, List.getD_cons_succ,
      List.getD_cons_zero, reg_field, bits_field, immediates_read hfit.1 hfit.2 himms]
  | _ =>
    simp only [Operands.layout, Operands.fields, List.map_cons, List.map_nil, List.getD_cons_succ,
      List.getD_cons_zero, reg_field, bits_field, pattern_field]

/-! ## Reading any dwords -/

theorem Operands.read_layout (layout : InstructionLayout) (dwords : Nat → Dword) :
    (Operands.read layout dwords).layout = layout := by
  cases layout <;> rfl

/-- A count field always gives one to four immediate values. -/
theorem Operands.read_fit (layout : InstructionLayout) (dwords : Nat → Dword) :
    (Operands.read layout dwords).ImmediatesFit := by
  have hcount : ∀ count : BitVec 2, 1 ≤ nonZeroCountToInt count ∧ nonZeroCountToInt count ≤ 4 :=
    fun count => ⟨Nat.succ_pos _, count.isLt⟩
  cases layout with
  | unaryMathImm => simp [Operands.read, Operands.ImmediatesFit, hcount]
  | binaryMathImm => simp [Operands.read, Operands.ImmediatesFit, hcount]
  | _ => trivial

/-- The operands depend on the first dword and on the immediate values it counts. -/
theorem Operands.read_congr {layout : InstructionLayout} {dwords dwords' : Nat → Dword}
    (h0 : dwords 0 = dwords' 0)
    (h : ∀ k < (Operands.read layout dwords).immediateValues.length,
      dwords (1 + k) = dwords' (1 + k)) :
    Operands.read layout dwords = Operands.read layout dwords' := by
  cases layout with
  | unaryMathImm =>
    simp only [Operands.read, Operands.immediateValues, List.length_map, List.length_range] at h ⊢
    rw [← h0, List.map_congr_left fun k hk => h k (List.mem_range.mp hk)]
  | binaryMathImm =>
    simp only [Operands.read, Operands.immediateValues, List.length_map, List.length_range] at h ⊢
    rw [← h0, List.map_congr_left fun k hk => h k (List.mem_range.mp hk)]
  | _ => simp only [Operands.read, h0]

end PicoGpu
