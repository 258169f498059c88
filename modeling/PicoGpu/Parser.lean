import PicoGpu.RoundTrip

/- The source language of the assembler (parser.y): the syntax trees of its
   grammar and the actions of their productions. The scanner's tokens come with
   their values; the value of a `NUMBER_FLOAT` is given by its bits. What an action
   prints is left out, and `YYABORT` ends the parse with its message. -/
namespace PicoGpu

/-- How a parse stops early: the simulation is aborted, or `gpuasm_parse` returns 1. -/
inductive ParseStop where
  | fatal (error : FatalError)
  | yyabort (error : String)
  deriving DecidableEq, Repr

/-- A call that an action makes. -/
def calling {α : Type} : Except FatalError α → Except ParseStop α
  | .ok a => .ok a
  | .error error => .error (.fatal error)

theorem calling_ok {α : Type} {x : Except FatalError α} {a : α} (h : calling x = .ok a) :
    x = .ok a := by
  cases x with
  | ok a' => cases h; rfl
  | error e => exact nomatch h

/-! ## Masks -/

/-- The productions of `REG_MASK`. -/
inductive RegMask where
  | one (a : SwizzlePatternComponent)
  | two (a b : SwizzlePatternComponent)
  | three (a b c : SwizzlePatternComponent)
  | four (a b c d : SwizzlePatternComponent)
  deriving DecidableEq, Repr

def RegMask.components : RegMask → List SwizzlePatternComponent
  | one a => [a]
  | two a b => [a, b]
  | three a b c => [a, b, c]
  | four a b c d => [a, b, c, d]

def hasDuplicates : List SwizzlePatternComponent → Bool
  | [] => false
  | p1 :: values => values.any (fun p2 => p1 = p2) || hasDuplicates values

def constructMask (values : List SwizzlePatternComponent) : Dword :=
  values.foldl (fun mask component => mask ||| (1 : Dword) <<< (3 - component.value)) 0

/-- Only the productions with more than one component check for duplicates; one
    component alone has none. -/
def RegMask.action (m : RegMask) : Except ParseStop Dword :=
  if hasDuplicates m.components then
    .error (.yyabort "duplicate components in dst register mask")
  else .ok (constructMask m.components)

/-- The productions of `DST_REG`. -/
inductive DstReg where
  | reg (reg : RegisterIndex)
  | masked (reg : RegisterIndex) (mask : RegMask)
  deriving DecidableEq, Repr

structure DstRegister where
  reg : RegisterIndex
  mask : Dword
  deriving DecidableEq, Repr

def DstReg.action : DstReg → Except ParseStop DstRegister
  | reg r => .ok ⟨r, 0b1111⟩
  | masked r m => do return ⟨r, ← m.action⟩

/-- The mask as it is stored in a bit field of four bits. -/
def DstRegister.destMask (d : DstRegister) : BitVec 4 := d.mask.setWidth 4

/-! ## Immediate values -/

structure NumberFloat where
  bits : Dword
  deriving DecidableEq, Repr

def asint (arg : NumberFloat) : Dword := arg.bits

/-- The productions of `IMMEDIATE_INTS` and `IMMEDIATE_FLOATS`. -/
inductive Immediates (α : Type) where
  | one (a : α)
  | two (a b : α)
  | three (a b c : α)
  | four (a b c d : α)
  deriving DecidableEq, Repr

structure ImmediateArgs where
  count : Nat
  args : List Dword

def ImmediateArgs.toVector (immediateArgs : ImmediateArgs) : List Dword :=
  immediateArgs.args.take immediateArgs.count

/-- The actions, with the conversion of a number to its bits. -/
def Immediates.action {α : Type} (bits : α → Dword) : Immediates α → ImmediateArgs
  | one a => ⟨1, [bits a, 0, 0, 0]⟩
  | two a b => ⟨2, [bits a, bits b, 0, 0]⟩
  | three a b c => ⟨3, [bits a, bits b, bits c, 0]⟩
  | four a b c d => ⟨4, [bits a, bits b, bits c, bits d]⟩

/-! ## Instructions -/

/-- The productions of `INSTRUCTION`, named by their mnemonics. -/
inductive SourceInstruction where
  | fadd (dst : DstReg) (src1 src2 : RegisterIndex)
  | fadd_imm (dst : DstReg) (src : RegisterIndex) (imm : NumberFloat)
  | fsub (dst : DstReg) (src1 src2 : RegisterIndex)
  | fsub_imm (dst : DstReg) (src : RegisterIndex) (imm : NumberFloat)
  | fmul (dst : DstReg) (src1 src2 : RegisterIndex)
  | fmul_imm (dst : DstReg) (src : RegisterIndex) (imm : NumberFloat)
  | fdiv (dst : DstReg) (src1 src2 : RegisterIndex)
  | fdiv_imm (dst : DstReg) (src : RegisterIndex) (imm : NumberFloat)
  | fneg (dst : DstReg) (src : RegisterIndex)
  | fdot (dst : DstReg) (src1 src2 : RegisterIndex)
  | fcross (dst src1 src2 : RegisterIndex)
  | fcross2 (dst : DstReg) (src1 src2 : RegisterIndex)
  | frcp (dst : DstReg) (src : RegisterIndex)
  | fnorm (dst : DstReg) (src : RegisterIndex)
  | fmax (dst : DstReg) (src1 src2 : RegisterIndex)
  | fmin (dst : DstReg) (src1 src2 : RegisterIndex)
  | fmad (dst : DstReg) (src1 src2 src3 : RegisterIndex)
  | iadd (dst : DstReg) (src1 src2 : RegisterIndex)
  | iadd_imm (dst : DstReg) (src : RegisterIndex) (imm : Dword)
  | isub (dst : DstReg) (src1 src2 : RegisterIndex)
  | isub_imm (dst : DstReg) (src : RegisterIndex) (imm : Dword)
  | imul (dst : DstReg) (src1 src2 : RegisterIndex)
  | imul_imm (dst : DstReg) (src : RegisterIndex) (imm : Dword)
  | idiv (dst : DstReg) (src1 src2 : RegisterIndex)
  | idiv_imm (dst : DstReg) (src : RegisterIndex) (imm : Dword)
  | ineg (dst : DstReg) (src : RegisterIndex)
  | imax (dst : DstReg) (src1 src2 : RegisterIndex)
  | imin (dst : DstReg) (src1 src2 : RegisterIndex)
  | swizzle (dst src : RegisterIndex) (x y z w : SwizzlePatternComponent)
  | trap
  | mov (dst : DstReg) (src : RegisterIndex)
  | finit (dst : DstReg) (imms : Immediates NumberFloat)
  | iinit (dst : DstReg) (imms : Immediates Dword)
  deriving DecidableEq, Repr

namespace SourceInstruction
open PicoGpuBinary

/-- A production with a `DST_REG` whose action calls an encode function. -/
def withDst (dst : DstReg)
    (encode : RegisterIndex → BitVec 4 → PicoGpuBinary → Except FatalError PicoGpuBinary)
    (b : PicoGpuBinary) : Except ParseStop PicoGpuBinary := do
  let d ← dst.action
  calling (encode d.reg d.destMask b)

def action : SourceInstruction → PicoGpuBinary → Except ParseStop PicoGpuBinary
  | fadd dst src1 src2 => withDst dst fun reg mask => encodeBinaryMath .fadd reg src1 src2 mask
  | fadd_imm dst src imm =>
    withDst dst fun reg mask => encodeBinaryMathImm .fadd_imm reg src mask [asint imm]
  | fsub dst src1 src2 => withDst dst fun reg mask => encodeBinaryMath .fsub reg src1 src2 mask
  | fsub_imm dst src imm =>
    withDst dst fun reg mask => encodeBinaryMathImm .fsub_imm reg src mask [asint imm]
  | fmul dst src1 src2 => withDst dst fun reg mask => encodeBinaryMath .fmul reg src1 src2 mask
  | fmul_imm dst src imm =>
    withDst dst fun reg mask => encodeBinaryMathImm .fmul_imm reg src mask [asint imm]
  | fdiv dst src1 src2 => withDst dst fun reg mask => encodeBinaryMath .fdiv reg src1 src2 mask
  | fdiv_imm dst src imm =>
    withDst dst fun reg mask => encodeBinaryMathImm .fdiv_imm reg src mask [asint imm]
  | fneg dst src => withDst dst fun reg mask => encodeUnaryMath .fneg reg src mask
  | fdot dst src1 src2 => withDst dst fun reg mask => encodeBinaryMath .fdot reg src1 src2 mask
  | fcross dst src1 src2 => fun b => calling (encodeBinaryMath .fcross dst src1 src2 0b1111 b)
  | fcross2 dst src1 src2 =>
    withDst dst fun reg mask => encodeBinaryMath .fcross2 reg src1 src2 mask
  | frcp dst src => withDst dst fun reg mask => encodeUnaryMath .frcp reg src mask
  | fnorm dst src => withDst dst fun reg mask => encodeUnaryMath .fnorm reg src mask
  | fmax dst src1 src2 => withDst dst fun reg mask => encodeBinaryMath .fmax reg src1 src2 mask
  | fmin dst src1 src2 => withDst dst fun reg mask => encodeBinaryMath .fmin reg src1 src2 mask
  -- the opcode of the source is `fcross2` here
  | fmad dst src1 src2 src3 =>
    withDst dst fun reg mask => encodeTernaryMath .fcross2 reg src1 src2 src3 mask
  | iadd dst src1 src2 => withDst dst fun reg mask => encodeBinaryMath .iadd reg src1 src2 mask
  | iadd_imm dst src imm =>
    withDst dst fun reg mask => encodeBinaryMathImm .iadd_imm reg src mask [imm]
  | isub dst src1 src2 => withDst dst fun reg mask => encodeBinaryMath .isub reg src1 src2 mask
  | isub_imm dst src imm =>
    withDst dst fun reg mask => encodeBinaryMathImm .isub_imm reg src mask [imm]
  | imul dst src1 src2 => withDst dst fun reg mask => encodeBinaryMath .imul reg src1 src2 mask
  | imul_imm dst src imm =>
    withDst dst fun reg mask => encodeBinaryMathImm .imul_imm reg src mask [imm]
  | idiv dst src1 src2 => withDst dst fun reg mask => encodeBinaryMath .idiv reg src1 src2 mask
  | idiv_imm dst src imm =>
    withDst dst fun reg mask => encodeBinaryMathImm .idiv_imm reg src mask [imm]
  | ineg dst src => withDst dst fun reg mask => encodeUnaryMath .ineg reg src mask
  | imax dst src1 src2 => withDst dst fun reg mask => encodeBinaryMath .imax reg src1 src2 mask
  | imin dst src1 src2 => withDst dst fun reg mask => encodeBinaryMath .imin reg src1 src2 mask
  | swizzle dst src x y z w => fun b => calling (encodeSwizzle .swizzle dst src x y z w b)
  | trap => fun b => calling (encodeNullary .trap b)
  | mov dst src => withDst dst fun reg mask => encodeUnaryMath .mov reg src mask
  | finit dst imms =>
    withDst dst fun reg mask => encodeUnaryMathImm .init reg mask (imms.action asint).toVector
  | iinit dst imms =>
    withDst dst fun reg mask => encodeUnaryMathImm .init reg mask (imms.action id).toVector

end SourceInstruction

/-! ## Programs -/

/-- The productions of `DIRECTIVE`. -/
inductive Directive where
  | input (reg : RegisterIndex) (mask : RegMask)
  | output (reg : RegisterIndex) (mask : RegMask)
  | uniform (reg : RegisterIndex) (mask : RegMask)
  | vertexShader
  | fragmentShader
  | undefinedRegs
  deriving DecidableEq, Repr

/-- `VALIDATE_BINARY`. -/
def validateBinary (b : PicoGpuBinary) : Except ParseStop PicoGpuBinary :=
  if b.hasError then .error (.yyabort b.error) else .ok b

namespace Directive

/-- The three productions with a register. -/
def inputOutput (ioType : IoType) (reg : RegisterIndex) (mask : RegMask) (b : PicoGpuBinary) :
    Except ParseStop PicoGpuBinary := do
  let b ← calling (b.encodeDirectiveInputOutput reg (← mask.action) ioType)
  validateBinary b

def action : Directive → PicoGpuBinary → Except ParseStop PicoGpuBinary
  | input reg mask => inputOutput .input reg mask
  | output reg mask => inputOutput .output reg mask
  | uniform reg mask => inputOutput .uniform reg mask
  | vertexShader => fun b => .ok (b.encodeDirectiveShaderType .vertexShader)
  | fragmentShader => fun b => .ok (b.encodeDirectiveShaderType .fragmentShader)
  | undefinedRegs => fun b => validateBinary b.encodeDirectiveUndefinedRegs

end Directive

/-- A derivation of `PROGRAM`. -/
structure Program where
  directives : List Directive
  instructions : List SourceInstruction
  directives_ne : directives ≠ []
  instructions_ne : instructions ≠ []

namespace Program

/-- `DIRECTIVE_SECTION`. -/
def parseDirectives (p : Program) (b : PicoGpuBinary) : Except ParseStop PicoGpuBinary := do
  let b ← p.directives.foldlM (fun b d => d.action b) b
  let b ← calling b.finalizeDirectives
  validateBinary b

/-- `INSTRUCTION_SECTION`. -/
def parseInstructions (p : Program) (b : PicoGpuBinary) : Except ParseStop PicoGpuBinary := do
  let b ← p.instructions.foldlM (fun b s => s.action b) b
  let b ← calling b.finalizeInstructions
  validateBinary b

def parse (p : Program) (b : PicoGpuBinary) : Except ParseStop PicoGpuBinary := do
  p.parseInstructions (← p.parseDirectives b)

end Program

/-! ## What the source says -/

/-- The components that a destination names: all of them without a mask. -/
def DstReg.names : DstReg → Fin 4 → Bool
  | reg _, _ => true
  | masked _ m, j => m.components.any fun component => component.value = j

def DstReg.register : DstReg → RegisterIndex
  | reg r => r
  | masked r _ => r

/-- The mask with the bits of the named components. -/
def DstReg.mask (dst : DstReg) : BitVec 4 :=
  BitVec.ofBoolListLE [dst.names 3, dst.names 2, dst.names 1, dst.names 0]

def Immediates.toList {α : Type} : Immediates α → List α
  | one a => [a]
  | two a b => [a, b]
  | three a b c => [a, b, c]
  | four a b c d => [a, b, c, d]

/-- The instruction that a line of source names: the operation of the mnemonic with
    the destination, the sources and the immediate values as they stand there. -/
def SourceInstruction.written : SourceInstruction → Instruction
  | fadd dst src1 src2 => ⟨.fadd, .binaryMath dst.register src1 src2 dst.mask⟩
  | fadd_imm dst src imm => ⟨.fadd_imm, .binaryMathImm dst.register src dst.mask [imm.bits]⟩
  | fsub dst src1 src2 => ⟨.fsub, .binaryMath dst.register src1 src2 dst.mask⟩
  | fsub_imm dst src imm => ⟨.fsub_imm, .binaryMathImm dst.register src dst.mask [imm.bits]⟩
  | fmul dst src1 src2 => ⟨.fmul, .binaryMath dst.register src1 src2 dst.mask⟩
  | fmul_imm dst src imm => ⟨.fmul_imm, .binaryMathImm dst.register src dst.mask [imm.bits]⟩
  | fdiv dst src1 src2 => ⟨.fdiv, .binaryMath dst.register src1 src2 dst.mask⟩
  | fdiv_imm dst src imm => ⟨.fdiv_imm, .binaryMathImm dst.register src dst.mask [imm.bits]⟩
  | fneg dst src => ⟨.fneg, .unaryMath dst.register src dst.mask⟩
  | fdot dst src1 src2 => ⟨.fdot, .binaryMath dst.register src1 src2 dst.mask⟩
  | fcross dst src1 src2 => ⟨.fcross, .binaryMath dst src1 src2 0b1111⟩
  | fcross2 dst src1 src2 => ⟨.fcross2, .binaryMath dst.register src1 src2 dst.mask⟩
  | frcp dst src => ⟨.frcp, .unaryMath dst.register src dst.mask⟩
  | fnorm dst src => ⟨.fnorm, .unaryMath dst.register src dst.mask⟩
  | fmax dst src1 src2 => ⟨.fmax, .binaryMath dst.register src1 src2 dst.mask⟩
  | fmin dst src1 src2 => ⟨.fmin, .binaryMath dst.register src1 src2 dst.mask⟩
  | fmad dst src1 src2 src3 => ⟨.fmad, .ternaryMath dst.register src1 src2 src3 dst.mask⟩
  | iadd dst src1 src2 => ⟨.iadd, .binaryMath dst.register src1 src2 dst.mask⟩
  | iadd_imm dst src imm => ⟨.iadd_imm, .binaryMathImm dst.register src dst.mask [imm]⟩
  | isub dst src1 src2 => ⟨.isub, .binaryMath dst.register src1 src2 dst.mask⟩
  | isub_imm dst src imm => ⟨.isub_imm, .binaryMathImm dst.register src dst.mask [imm]⟩
  | imul dst src1 src2 => ⟨.imul, .binaryMath dst.register src1 src2 dst.mask⟩
  | imul_imm dst src imm => ⟨.imul_imm, .binaryMathImm dst.register src dst.mask [imm]⟩
  | idiv dst src1 src2 => ⟨.idiv, .binaryMath dst.register src1 src2 dst.mask⟩
  | idiv_imm dst src imm => ⟨.idiv_imm, .binaryMathImm dst.register src dst.mask [imm]⟩
  | ineg dst src => ⟨.ineg, .unaryMath dst.register src dst.mask⟩
  | imax dst src1 src2 => ⟨.imax, .binaryMath dst.register src1 src2 dst.mask⟩
  | imin dst src1 src2 => ⟨.imin, .binaryMath dst.register src1 src2 dst.mask⟩
  | swizzle dst src x y z w => ⟨.swizzle, .swizzle dst src x y z w⟩
  | trap => ⟨.trap, .nullary⟩
  | mov dst src => ⟨.mov, .unaryMath dst.register src dst.mask⟩
  | finit dst imms =>
    ⟨.init, .unaryMathImm dst.register dst.mask (imms.toList.map NumberFloat.bits)⟩
  | iinit dst imms => ⟨.init, .unaryMathImm dst.register dst.mask imms.toList⟩

/-- The instruction that the action of a production encodes: the one that is written,
    but for the opcode of `fmad`. -/
def SourceInstruction.encoded : SourceInstruction → Instruction
  | fmad dst src1 src2 src3 => ⟨.fcross2, .ternaryMath dst.register src1 src2 src3 dst.mask⟩
  | s => s.written

def SourceInstruction.isFmad : SourceInstruction → Bool
  | fmad .. => true
  | _ => false

/-! ## The actions -/

theorem selects_mask (dst : DstReg) (j : Fin 4) : selects dst.mask j = dst.names j := by
  have hbits : ∀ x y z w : Bool, ∀ j : Fin 4,
      selects (BitVec.ofBoolListLE [w, z, y, x]) j = [x, y, z, w].get j := by decide
  unfold DstReg.mask
  rw [hbits]
  match j with
  | 0 | 1 | 2 | 3 => rfl

theorem mask_ext {mask mask' : BitVec 4} (h : ∀ j, selects mask j = selects mask' j) :
    mask = mask' := by
  apply BitVec.eq_of_getLsbD_eq
  intro i hi
  match i, hi with
  | 0, _ => exact h 3
  | 1, _ => exact h 2
  | 2, _ => exact h 1
  | 3, _ => exact h 0

/-- The bits that the loop of `constructMask` sets. -/
theorem getLsbD_constructMask (values : List SwizzlePatternComponent) (mask : Dword) (j : Fin 4) :
    (values.foldl (fun mask component => mask ||| (1 : Dword) <<< (3 - component.value)) mask).getLsbD
        (3 - j) =
      (mask.getLsbD (3 - j) || values.any fun component => component.value = j) := by
  induction values generalizing mask with
  | nil => simp
  | cons component values ih =>
    have hbit : ((1 : Dword) <<< (3 - component.value)).getLsbD (3 - j) =
        decide (component.value = j) := by
      match j with
      | 0 | 1 | 2 | 3 => cases component <;> rfl
    rw [List.foldl_cons, ih, BitVec.getLsbD_or, hbit, List.any_cons, Bool.or_assoc]

/-- The action of a destination gives its register and the named components. -/
theorem dstReg_action {dst : DstReg} {d : DstRegister} (h : dst.action = .ok d) :
    d.reg = dst.register ∧ d.destMask = dst.mask := by
  cases dst with
  | reg r =>
    cases h
    refine ⟨rfl, mask_ext fun j => ?_⟩
    rw [selects_mask]
    show selects (BitVec.setWidth 4 (0b1111 : Dword)) j = true
    revert j
    decide
  | masked r m =>
    obtain ⟨mask, hmask, h⟩ := bind_ok.mp h
    cases h
    simp only [RegMask.action] at hmask
    split at hmask
    · exact nomatch hmask
    · cases hmask
      refine ⟨rfl, mask_ext fun j => ?_⟩
      have hbits := getLsbD_constructMask m.components 0 j
      rw [selects_mask]
      show ((constructMask m.components).setWidth 4).getLsbD (3 - j) = _
      rw [BitVec.getLsbD_setWidth, constructMask, hbits]
      have hlt : 3 - j.val < 4 := by omega
      simp [hlt, DstReg.names]

theorem toVector_action {α : Type} (bits : α → Dword) (imms : Immediates α) :
    (imms.action bits).toVector = imms.toList.map bits := by
  cases imms <;> rfl

theorem withDst_ok {dst : DstReg} {b b' : PicoGpuBinary}
    {f : RegisterIndex → BitVec 4 → PicoGpuBinary → Except FatalError PicoGpuBinary}
    (h : SourceInstruction.withDst dst f b = .ok b') : f dst.register dst.mask b = .ok b' := by
  obtain ⟨d, hd, h⟩ := bind_ok.mp h
  obtain ⟨hreg, hmask⟩ := dstReg_action hd
  rw [← hreg, ← hmask]
  exact calling_ok h

/-- An action that goes through has called the encode function for `encoded`. -/
theorem encode_of_action {s : SourceInstruction} {b b' : PicoGpuBinary}
    (h : s.action b = .ok b') : PicoGpuBinary.encode s.encoded b = .ok b' := by
  cases s <;> simp only [SourceInstruction.action] at h
  case fcross => exact calling_ok h
  case swizzle => exact calling_ok h
  case trap => exact calling_ok h
  case finit =>
    have hcall := withDst_ok h
    rw [toVector_action] at hcall
    exact hcall
  case iinit =>
    have hcall := withDst_ok h
    rw [toVector_action, List.map_id] at hcall
    exact hcall
  all_goals exact withDst_ok h

/-! ## Reading what the actions encode -/

section
variable {V : Type} {alu : Alu V}

theorem written_dispatched (s : SourceInstruction) : s.written.Dispatched alu := by
  cases s <;> rfl

theorem toList_length {α : Type} (imms : Immediates α) :
    1 ≤ imms.toList.length ∧ imms.toList.length ≤ 4 := by
  cases imms <;> simp [Immediates.toList]

theorem written_fit (s : SourceInstruction) : s.written.operands.ImmediatesFit := by
  cases s with
  | finit dst imms =>
    have hlen := toList_length imms
    simpa [SourceInstruction.written, Operands.ImmediatesFit] using hlen
  | iinit dst imms => exact toList_length imms
  | _ => simp [SourceInstruction.written, Operands.ImmediatesFit]

theorem decoded_written (s : SourceInstruction) : s.written.decoded alu = s.written :=
  (written_dispatched s).decoded (written_fit s)

/-- An `fmad` is read as a cross product of its first two sources, with the third
    one in the place of the mask. -/
theorem decoded_fmad (dst : DstReg) (src1 src2 src3 : RegisterIndex) :
    (SourceInstruction.fmad dst src1 src2 src3).encoded.decoded alu =
      ⟨.fcross2, .binaryMath dst.register src1 src2 (BitVec.ofNat 4 src3)⟩ := by
  have hfields := Operands.unpack_fields .fcross2
    (.ternaryMath dst.register src1 src2 src3 dst.mask)
  -- the layout without a third source shows its field as the mask
  have hwidths : InstructionLayout.ternaryMath.widths = InstructionLayout.binaryMath.widths ++ [4] :=
    rfl
  have hprefix := congrArg (List.take 5) hfields
  rw [show Operands.layout (.ternaryMath dst.register src1 src2 src3 dst.mask) = .ternaryMath
    from rfl, hwidths, BitFields.unpack_append, List.take_append_of_le_length (Nat.le_refl 5),
    List.take_of_length_le (Nat.le_refl 5)] at hprefix
  have hread : Operands.read .binaryMath (fun k =>
      (Instruction.mk .fcross2 (.ternaryMath dst.register src1 src2 src3 dst.mask)).dwords.getD k 0)
      = .binaryMath dst.register src1 src2 (BitVec.ofNat 4 src3) := by
    simp only [Operands.read, Instruction.dwords, List.getD_cons_zero, hprefix]
    simp only [Operands.fields, List.map_cons, List.map_nil, List.take_succ_cons, List.take_zero,
      List.getD_cons_succ, List.getD_cons_zero, reg_field]
    have hlt : src3.val < 2 ^ 4 := src3.isLt
    rw [Nat.mod_eq_of_lt hlt]
  exact congrArg (Instruction.mk .fcross2) hread

theorem encoded_readable (s : SourceInstruction) : s.encoded.Readable alu := by
  cases s with
  | fmad dst src1 src2 src3 =>
    unfold Instruction.Readable
    rw [decoded_fmad]
    rfl
  | _ => exact (written_dispatched _).readable (written_fit _)

/-- The unit reads what the source says in all instructions but `fmad`. -/
theorem decoded_encoded_iff (s : SourceInstruction) :
    s.encoded.decoded alu = s.written ↔ s.isFmad = false := by
  cases s with
  | fmad dst src1 src2 src3 =>
    rw [decoded_fmad]
    simp [SourceInstruction.written, SourceInstruction.isFmad]
  | _ => exact ⟨fun _ => rfl, fun _ => decoded_written _⟩

/-! ## The calls of a parse -/

def Directive.call : Directive → AssemblerCall
  | input reg mask => .encodeDirectiveInputOutput reg (constructMask mask.components) .input
  | output reg mask => .encodeDirectiveInputOutput reg (constructMask mask.components) .output
  | uniform reg mask => .encodeDirectiveInputOutput reg (constructMask mask.components) .uniform
  | vertexShader => .encodeDirectiveShaderType .vertexShader
  | fragmentShader => .encodeDirectiveShaderType .fragmentShader
  | undefinedRegs => .encodeDirectiveUndefinedRegs

theorem Directive.call_ne_encode (d : Directive) (i : Instruction) : d.call ≠ .encode i := by
  cases d <;> exact fun h => nomatch h

theorem validateBinary_ok {b b' : PicoGpuBinary} (h : validateBinary b = .ok b') :
    b' = b ∧ b.hasError = false := by
  unfold validateBinary at h
  split at h
  · exact nomatch h
  · next hno =>
    cases h
    exact ⟨rfl, by simpa using hno⟩

theorem inputOutput_ok {ioType : IoType} {reg : RegisterIndex} {mask : RegMask}
    {b b' : PicoGpuBinary} (h : Directive.inputOutput ioType reg mask b = .ok b') :
    b.encodeDirectiveInputOutput reg (constructMask mask.components) ioType = .ok b' := by
  obtain ⟨m, hm, h⟩ := bind_ok.mp h
  obtain ⟨b1, h1, h⟩ := bind_ok.mp h
  obtain ⟨rfl, -⟩ := validateBinary_ok h
  unfold RegMask.action at hm
  split at hm
  · exact nomatch hm
  · cases hm
    exact calling_ok h1

theorem perform_of_action {d : Directive} {b b' : PicoGpuBinary} (h : d.action b = .ok b') :
    d.call.perform b = .ok b' := by
  cases d with
  | input => exact inputOutput_ok h
  | output => exact inputOutput_ok h
  | uniform => exact inputOutput_ok h
  | vertexShader => cases h; rfl
  | fragmentShader => cases h; rfl
  | undefinedRegs =>
    obtain ⟨rfl, -⟩ := validateBinary_ok h
    rfl

namespace Program

/-- The calls of the directive section. -/
def directiveCalls (p : Program) : List AssemblerCall :=
  p.directives.map Directive.call ++ [.finalizeDirectives]

/-- The calls of the instructions. -/
def instructionCalls (p : Program) : List AssemblerCall :=
  (p.instructions.map SourceInstruction.encoded).map AssemblerCall.encode

theorem parseDirectives_ok {p : Program} {b b' : PicoGpuBinary}
    (h : p.parseDirectives b = .ok b') : AssemblerCall.performAll p.directiveCalls b = .ok b' := by
  obtain ⟨b1, h1, h⟩ := bind_ok.mp h
  obtain ⟨b2, h2, h⟩ := bind_ok.mp h
  obtain ⟨rfl, -⟩ := validateBinary_ok h
  have hperform : ∀ (b : PicoGpuBinary) (d : Directive) (b' : PicoGpuBinary),
      d.action b = .ok b' → d.call.perform b = .ok b' := fun _ _ _ => perform_of_action
  refine AssemblerCall.performAll_append.mpr ⟨b1, foldlM_map_ok hperform _ _ _ h1, ?_⟩
  show (b1.finalizeDirectives >>= pure) = .ok b'
  rw [calling_ok h2]
  rfl

/-- The instruction section: the encode calls, and the call that ends it. -/
theorem parseInstructions_ok {p : Program} {b b' : PicoGpuBinary}
    (h : p.parseInstructions b = .ok b') :
    ∃ b1, AssemblerCall.performAll p.instructionCalls b = .ok b1 ∧
      b1.finalizeInstructions = .ok b' := by
  obtain ⟨b1, h1, h⟩ := bind_ok.mp h
  obtain ⟨b2, h2, h⟩ := bind_ok.mp h
  obtain ⟨rfl, -⟩ := validateBinary_ok h
  refine ⟨b1, ?_, calling_ok h2⟩
  have hperform : ∀ (b : PicoGpuBinary) (s : SourceInstruction) (b' : PicoGpuBinary),
      s.action b = .ok b' → (AssemblerCall.encode s.encoded).perform b = .ok b' :=
    fun _ _ _ => encode_of_action
  unfold instructionCalls
  rw [List.map_map]
  exact foldlM_map_ok hperform _ _ _ h1

end Program

/-! ## The source and what the unit reads -/

theorem map_decoded_iff (source : List SourceInstruction) :
    (source.map SourceInstruction.encoded).map (Instruction.decoded alu) =
      source.map SourceInstruction.written ↔ ∀ s ∈ source, s.isFmad = false := by
  rw [List.map_map, List.map_inj_left]
  exact forall₂_congr fun s _ => decoded_encoded_iff s

theorem map_decoded_self {is : List Instruction} (hd : ∀ i ∈ is, i.Dispatched alu)
    (hfit : ∀ i ∈ is, i.operands.ImmediatesFit) : is.map (Instruction.decoded alu) = is := by
  conv => rhs; rw [← List.map_id is]
  exact List.map_congr_left fun i hi => (hd i hi).decoded (hfit i hi)

/-- The program of an accepted source: what the directive section adds, the lines, and
    what the end of the program adds. -/
theorem parse_assembled {p : Program} {b : PicoGpuBinary} (h : p.parse .new = .ok b) :
    ∃ preamble, AssemblerCall.emittedAll p.directiveCalls .new = .ok preamble ∧
      AssemblerCall.Assembled
        (preamble ++ p.instructions.map SourceInstruction.encoded ++ b.finalCalls) b ∧
      b.header.programLength.toNat = b.code.length := by
  obtain ⟨b1, h1, h⟩ := bind_ok.mp h
  obtain ⟨b2, h2, h3⟩ := Program.parseInstructions_ok h
  obtain ⟨preamble, hem, hb1⟩ := AssemblerCall.assembled_run AssemblerCall.assembled_new
    (Program.parseDirectives_ok h1)
  rw [List.nil_append] at hb1
  obtain ⟨is, hem2, hb2⟩ := AssemblerCall.assembled_run hb1 h2
  rw [Program.instructionCalls, AssemblerCall.emittedAll_encode _ h2] at hem2
  cases hem2
  -- the last call adds the export of a fragment shader's depth
  obtain ⟨final, hem3, hb⟩ :=
    @AssemblerCall.assembled_step _ b2 b .finalizeInstructions hb2 h3
  cases hem3
  rw [PicoGpuBinary.finalCalls_finalized h3]
  exact ⟨preamble, hem, hb, (PicoGpuBinary.finalizeInstructions_ok h3 hb2.fits).2.2.1⟩

/-- What the directives add is read in the layout it was written in. -/
theorem dispatched_preamble {p : Program} {preamble : List Instruction}
    (hem : AssemblerCall.emittedAll p.directiveCalls .new = .ok preamble) :
    ∀ i ∈ preamble, i.Dispatched alu := by
  refine dispatched_emitted (fun i hi => ?_) hem
  exact absurd hi (by simp [Program.directiveCalls, Directive.call_ne_encode])

theorem readable_assembled {p : Program} {b : PicoGpuBinary} {preamble : List Instruction}
    (hem : AssemblerCall.emittedAll p.directiveCalls .new = .ok preamble)
    (hb : AssemblerCall.Assembled
      (preamble ++ p.instructions.map SourceInstruction.encoded ++ b.finalCalls) b) :
    ∀ i ∈ preamble ++ p.instructions.map SourceInstruction.encoded ++ b.finalCalls,
      i.Readable alu := by
  intro i hi
  have hfit := hb.immediatesFit i hi
  rcases List.mem_append.mp hi with hi | hi
  · rcases List.mem_append.mp hi with hi | hi
    · exact (dispatched_preamble hem i hi).readable hfit
    · obtain ⟨s, -, rfl⟩ := List.mem_map.mp hi
      exact encoded_readable s
  · exact (dispatched_final b i hi).readable hfit

/-- **The unit reads, in the order of the source, what each line says (between what
    the directive section and the end of the program add) exactly when no line is an
    `fmad`.** -/
theorem source_read_iff {p : Program} {b : PicoGpuBinary} (h : p.parse .new = .ok b)
    {u : ShaderUnit V} (hpc : u.pc = 0) {hasNextCommand : BitVec 1}
    (hmeta : u.isaMetadata = { b.header with hasNextCommand := hasNextCommand })
    (hisa : ∀ j, ∀ hj : j < b.code.length, u.isa j = b.code[j]) (threadCount : BitVec 5)
    {clocks : Nat} (hclocks : b.code.length ≤ clocks) :
    ∃ preamble, AssemblerCall.emittedAll p.directiveCalls .new = .ok preamble ∧
      (u.fetched alu b.header.programLength.toNat (nonZeroCountToInt threadCount) clocks =
          .ok (preamble ++ p.instructions.map SourceInstruction.written ++ b.finalCalls) ↔
        ∀ s ∈ p.instructions, s.isFmad = false) := by
  obtain ⟨preamble, hem, hb, hlength⟩ := parse_assembled h
  have hfits := hb.immediatesFit
  simp only [List.mem_append] at hfits
  refine ⟨preamble, hem, ?_⟩
  rw [← map_decoded_iff, fetched_assembled hb hlength (readable_assembled hem hb) hpc hmeta hisa
    threadCount hclocks, List.map_append, List.map_append,
    map_decoded_self (dispatched_preamble hem) fun i hi => hfits i (.inl (.inl hi)),
    map_decoded_self (dispatched_final b) fun i hi => hfits i (.inr hi), Except.ok.injEq,
    List.append_left_inj, List.append_right_inj]

end

/-- A vertex shader of one instruction. -/
def oneInstruction (s : SourceInstruction) : Program where
  directives := [.vertexShader, .input 0 (.four .swizzleX .swizzleY .swizzleZ .swizzleW),
    .output 12 (.four .swizzleX .swizzleY .swizzleZ .swizzleW)]
  instructions := [s]
  directives_ne := List.cons_ne_nil _ _
  instructions_ne := List.cons_ne_nil _ _

def parsedBinary (s : SourceInstruction) : PicoGpuBinary :=
  ((oneInstruction s).parse .new).toOption.getD .new

/-- `iadd r12 r0 1`. -/
def iaddLine : SourceInstruction := .iadd_imm (.reg 12) 0 1

theorem source_read_iadd_imm : ∃ preamble,
    AssemblerCall.emittedAll (oneInstruction iaddLine).directiveCalls .new = .ok preamble ∧
    ((binaryUnit (parsedBinary iaddLine)).fetched integerAlu
        (parsedBinary iaddLine).header.programLength.toNat (nonZeroCountToInt (0 : BitVec 5)) 4 =
        .ok (preamble ++ (oneInstruction iaddLine).instructions.map SourceInstruction.written ++
          (parsedBinary iaddLine).finalCalls) ↔
      ∀ s ∈ (oneInstruction iaddLine).instructions, s.isFmad = false) :=
  @source_read_iff _ integerAlu (oneInstruction iaddLine) (parsedBinary iaddLine) rfl
    (binaryUnit (parsedBinary iaddLine)) rfl 0 rfl
    (fun _ _ => (List.getElem_eq_getD 0).symm) 0 4 (by decide)

/-- `fmad r12 r0 r1 r2`. -/
def fmadLine : SourceInstruction := .fmad (.reg 12) 0 1 2

/-- It is read as `fcross2 r12.z r0 r1`. -/
theorem fmad_read_as_fcross2 :
    (oneInstruction fmadLine).parse .new = .ok (parsedBinary fmadLine) ∧
    AssemblerCall.emittedAll (oneInstruction fmadLine).directiveCalls .new =
      .ok [⟨.lduni, .nullary⟩, ⟨.initregs, .nullary⟩] ∧
    (binaryUnit (parsedBinary fmadLine)).fetched integerAlu
        (parsedBinary fmadLine).header.programLength.toNat 1 3 =
      .ok [⟨.lduni, .nullary⟩, ⟨.initregs, .nullary⟩, ⟨.fcross2, .binaryMath 12 0 1 0b0010⟩] ∧
    (binaryUnit (parsedBinary fmadLine)).fetched integerAlu
        (parsedBinary fmadLine).header.programLength.toNat 1 3 ≠
      .ok ([⟨.lduni, .nullary⟩, ⟨.initregs, .nullary⟩] ++ [fmadLine.written] ++
        (parsedBinary fmadLine).finalCalls) := by
  have hread : (binaryUnit (parsedBinary fmadLine)).fetched integerAlu
        (parsedBinary fmadLine).header.programLength.toNat 1 3 =
      .ok [⟨.lduni, .nullary⟩, ⟨.initregs, .nullary⟩, ⟨.fcross2, .binaryMath 12 0 1 0b0010⟩] := rfl
  refine ⟨rfl, rfl, hread, ?_⟩
  rw [hread, Ne, Except.ok.injEq]
  decide

end PicoGpu
