import PicoGpu.Scanner

/- The parser that bison makes of parser.y. The derivations of the grammar have their tokens;
   the parser reads a token list from the left, an immediate value or a component for as
   long as the production has place for one. The reduction of a production needs no further
   token where there is no choice, so that a section is finalized before the parser meets a
   token that cannot follow it. -/
namespace PicoGpu

/-! ## The tokens of derivations -/

def RegMask.tokens (m : RegMask) : List Token := .dot :: m.components.map .vecComponent

def DstReg.tokens : DstReg → List Token
  | reg r => [.reg r]
  | masked r m => .reg r :: m.tokens

namespace SourceInstruction

def tokens : SourceInstruction → List Token
  | fadd dst src1 src2 => .mnemonic .fadd :: (dst.tokens ++ [.reg src1, .reg src2])
  | fadd_imm dst src imm => .mnemonic .fadd :: (dst.tokens ++ [.reg src, .numberFloat imm])
  | fsub dst src1 src2 => .mnemonic .fsub :: (dst.tokens ++ [.reg src1, .reg src2])
  | fsub_imm dst src imm => .mnemonic .fsub :: (dst.tokens ++ [.reg src, .numberFloat imm])
  | fmul dst src1 src2 => .mnemonic .fmul :: (dst.tokens ++ [.reg src1, .reg src2])
  | fmul_imm dst src imm => .mnemonic .fmul :: (dst.tokens ++ [.reg src, .numberFloat imm])
  | fdiv dst src1 src2 => .mnemonic .fdiv :: (dst.tokens ++ [.reg src1, .reg src2])
  | fdiv_imm dst src imm => .mnemonic .fdiv :: (dst.tokens ++ [.reg src, .numberFloat imm])
  | fneg dst src => .mnemonic .fneg :: (dst.tokens ++ [.reg src])
  | fdot dst src1 src2 => .mnemonic .fdot :: (dst.tokens ++ [.reg src1, .reg src2])
  | fcross dst src1 src2 => [.mnemonic .fcross, .reg dst, .reg src1, .reg src2]
  | fcross2 dst src1 src2 => .mnemonic .fcross2 :: (dst.tokens ++ [.reg src1, .reg src2])
  | frcp dst src => .mnemonic .frcp :: (dst.tokens ++ [.reg src])
  | fnorm dst src => .mnemonic .fnorm :: (dst.tokens ++ [.reg src])
  | fmax dst src1 src2 => .mnemonic .fmax :: (dst.tokens ++ [.reg src1, .reg src2])
  | fmin dst src1 src2 => .mnemonic .fmin :: (dst.tokens ++ [.reg src1, .reg src2])
  | fmad dst src1 src2 src3 =>
    .mnemonic .fmad :: (dst.tokens ++ [.reg src1, .reg src2, .reg src3])
  | iadd dst src1 src2 => .mnemonic .iadd :: (dst.tokens ++ [.reg src1, .reg src2])
  | iadd_imm dst src imm => .mnemonic .iadd :: (dst.tokens ++ [.reg src, .numberInt imm])
  | isub dst src1 src2 => .mnemonic .isub :: (dst.tokens ++ [.reg src1, .reg src2])
  | isub_imm dst src imm => .mnemonic .isub :: (dst.tokens ++ [.reg src, .numberInt imm])
  | imul dst src1 src2 => .mnemonic .imul :: (dst.tokens ++ [.reg src1, .reg src2])
  | imul_imm dst src imm => .mnemonic .imul :: (dst.tokens ++ [.reg src, .numberInt imm])
  | idiv dst src1 src2 => .mnemonic .idiv :: (dst.tokens ++ [.reg src1, .reg src2])
  | idiv_imm dst src imm => .mnemonic .idiv :: (dst.tokens ++ [.reg src, .numberInt imm])
  | ineg dst src => .mnemonic .ineg :: (dst.tokens ++ [.reg src])
  | imax dst src1 src2 => .mnemonic .imax :: (dst.tokens ++ [.reg src1, .reg src2])
  | imin dst src1 src2 => .mnemonic .imin :: (dst.tokens ++ [.reg src1, .reg src2])
  | swizzle dst src x y z w =>
    [.mnemonic .swizzle, .reg dst, .reg src, .dot, .vecComponent x, .vecComponent y,
      .vecComponent z, .vecComponent w]
  | trap => [.mnemonic .trap]
  | mov dst src => .mnemonic .mov :: (dst.tokens ++ [.reg src])
  | finit dst imms => .mnemonic .finit :: (dst.tokens ++ imms.toList.map .numberFloat)
  | iinit dst imms => .mnemonic .iinit :: (dst.tokens ++ imms.toList.map .numberInt)

end SourceInstruction

def Directive.tokens : Directive → List Token
  | input reg mask => .hash .input :: .reg reg :: mask.tokens
  | output reg mask => .hash .output :: .reg reg :: mask.tokens
  | uniform reg mask => .hash .uniform :: .reg reg :: mask.tokens
  | vertexShader => [.hash .vs]
  | fragmentShader => [.hash .fs]
  | undefinedRegs => [.hash .undefinedRegs]

def Program.tokens (p : Program) : List Token :=
  p.directives.flatMap Directive.tokens ++ p.instructions.flatMap SourceInstruction.tokens

/-! ## Reading -/

namespace Grammar

/-- What is read from the left, and the tokens behind it. -/
abbrev Reader (α : Type) := List Token → Option (α × List Token)

/-- A reader that goes on where another one ends. -/
def Reader.then {α β : Type} (read : Reader α) (next : α → Reader β) : Reader β := fun ts =>
  match read ts with
  | none => none
  | some (a, ts) => next a ts

/-- The production is complete. -/
def complete {α : Type} (a : α) : Reader α := fun ts => some (a, ts)

def readReg : Reader RegisterIndex
  | .reg r :: ts => some (r, ts)
  | _ => none

/-- The components of `REG_MASK`. -/
def readRegMask : Reader RegMask
  | .dot :: .vecComponent a :: .vecComponent b :: .vecComponent c :: .vecComponent d :: ts =>
    some (.four a b c d, ts)
  | .dot :: .vecComponent a :: .vecComponent b :: .vecComponent c :: ts => some (.three a b c, ts)
  | .dot :: .vecComponent a :: .vecComponent b :: ts => some (.two a b, ts)
  | .dot :: .vecComponent a :: ts => some (.one a, ts)
  | _ => none

def readDstReg : Reader DstReg
  | .reg r :: .dot :: ts => (readRegMask (.dot :: ts)).map fun (m, ts) => (.masked r m, ts)
  | .reg r :: ts => some (.reg r, ts)
  | _ => none

def int : Token → Option Dword
  | .numberInt i => some i
  | _ => none

def float : Token → Option NumberFloat
  | .numberFloat f => some f
  | _ => none

/-- `IMMEDIATE_INTS` and `IMMEDIATE_FLOATS`. -/
def readImmediates {α : Type} (number : Token → Option α) : Reader (Immediates α) := fun ts =>
  match ts.map number with
  | some a :: some b :: some c :: some d :: _ => some (.four a b c d, ts.drop 4)
  | some a :: some b :: some c :: _ => some (.three a b c, ts.drop 3)
  | some a :: some b :: _ => some (.two a b, ts.drop 2)
  | some a :: _ => some (.one a, ts.drop 1)
  | _ => none

/-! ### Instructions -/

/-- `DST_REG REG`. -/
def readUnary (f : DstReg → RegisterIndex → SourceInstruction) : Reader SourceInstruction :=
  readDstReg.then fun dst => readReg.then fun src => complete (f dst src)

/-- `DST_REG REG REG`. -/
def readBinary (f : DstReg → RegisterIndex → RegisterIndex → SourceInstruction) :
    Reader SourceInstruction :=
  readDstReg.then fun dst => readReg.then fun src1 => readReg.then fun src2 =>
    complete (f dst src1 src2)

/-- A `REG` or a number. -/
def readRegOrNumber {α : Type} (number : Token → Option α) (f : RegisterIndex → SourceInstruction)
    (g : α → SourceInstruction) : Reader SourceInstruction
  | .reg r :: ts => some (f r, ts)
  | t :: ts => (number t).map fun a => (g a, ts)
  | [] => none

/-- `DST_REG REG` and either a `REG` or a number. -/
def readBinaryImm {α : Type} (number : Token → Option α)
    (f : DstReg → RegisterIndex → RegisterIndex → SourceInstruction)
    (g : DstReg → RegisterIndex → α → SourceInstruction) : Reader SourceInstruction :=
  readDstReg.then fun dst => readReg.then fun src => readRegOrNumber number (f dst src) (g dst src)

/-- `DST_REG REG REG REG`. -/
def readTernary (f : DstReg → RegisterIndex → RegisterIndex → RegisterIndex → SourceInstruction) :
    Reader SourceInstruction :=
  readDstReg.then fun dst => readReg.then fun src1 => readReg.then fun src2 =>
    readReg.then fun src3 => complete (f dst src1 src2 src3)

/-- `DST_REG` and immediate values. -/
def readInit {α : Type} (number : Token → Option α) (f : DstReg → Immediates α → SourceInstruction) :
    Reader SourceInstruction :=
  readDstReg.then fun dst => (readImmediates number).then fun imms => complete (f dst imms)

/-- `REG REG REG`. -/
def readFcross : Reader SourceInstruction :=
  readReg.then fun dst => readReg.then fun src1 => readReg.then fun src2 =>
    complete (.fcross dst src1 src2)

/-- The components of `FULLY_SWIZZLED_REG`. -/
def readPattern (dst src : RegisterIndex) : Reader SourceInstruction
  | .dot :: .vecComponent x :: .vecComponent y :: .vecComponent z :: .vecComponent w :: ts =>
    some (.swizzle dst src x y z w, ts)
  | _ => none

/-- `REG FULLY_SWIZZLED_REG`. -/
def readSwizzle : Reader SourceInstruction :=
  readReg.then fun dst => readReg.then fun src => readPattern dst src

/-- What follows the mnemonic. -/
def readOperands : Mnemonic → Reader SourceInstruction
  | .fadd => readBinaryImm float .fadd .fadd_imm
  | .fsub => readBinaryImm float .fsub .fsub_imm
  | .fmul => readBinaryImm float .fmul .fmul_imm
  | .fdiv => readBinaryImm float .fdiv .fdiv_imm
  | .fneg => readUnary .fneg
  | .fdot => readBinary .fdot
  | .fcross => readFcross
  | .fcross2 => readBinary .fcross2
  | .frcp => readUnary .frcp
  | .fnorm => readUnary .fnorm
  | .fmax => readBinary .fmax
  | .fmin => readBinary .fmin
  | .fmad => readTernary .fmad
  | .iadd => readBinaryImm int .iadd .iadd_imm
  | .isub => readBinaryImm int .isub .isub_imm
  | .imul => readBinaryImm int .imul .imul_imm
  | .idiv => readBinaryImm int .idiv .idiv_imm
  | .ineg => readUnary .ineg
  | .imax => readBinary .imax
  | .imin => readBinary .imin
  | .swizzle => readSwizzle
  | .trap => complete .trap
  | .mov => readUnary .mov
  | .finit => readInit float .finit
  | .iinit => readInit int .iinit

/-! ### Directives -/

/-- `REG REG_MASK`. -/
def readInputOutput (f : RegisterIndex → RegMask → Directive) : Reader Directive :=
  readReg.then fun reg => readRegMask.then fun mask => complete (f reg mask)

def readDirective : Hash → Reader Directive
  | .input => readInputOutput .input
  | .output => readInputOutput .output
  | .uniform => readInputOutput .uniform
  | .vs => complete .vertexShader
  | .fs => complete .fragmentShader
  | .undefinedRegs => complete .undefinedRegs

/-! ### Sections -/

/-- Where reading a section ends: at a token that does not go on with the line it is in, or
    at one that no line begins with (or at the end of the tokens). -/
inductive Ending where
  | inside
  | before (ts : List Token)
  deriving DecidableEq, Repr

def readDirectives : Nat → List Token → List Directive × Ending
  | fuel + 1, .hash h :: ts =>
    match readDirective h ts with
    | none => ([], .inside)
    | some (d, ts) =>
      let (directives, ending) := readDirectives fuel ts
      (d :: directives, ending)
  | _, ts => ([], .before ts)

def readInstructions : Nat → List Token → List SourceInstruction × Ending
  | fuel + 1, .mnemonic m :: ts =>
    match readOperands m ts with
    | none => ([], .inside)
    | some (s, ts) =>
      let (instructions, ending) := readInstructions fuel ts
      (s :: instructions, ending)
  | _, ts => ([], .before ts)

def syntaxError {α : Type} : Except ParseStop α := .error (.yyabort "syntax error")

/-- `INSTRUCTION_SECTION` and the end of the text. -/
def parseInstructions (ts : List Token) (b : PicoGpuBinary) : Except ParseStop PicoGpuBinary := do
  let (instructions, ending) := readInstructions ts.length ts
  let b ← instructions.foldlM (fun b s => s.action b) b
  match instructions, ending with
  | [], _ => syntaxError
  | _, .inside => syntaxError
  | _, .before rest =>
    let b ← calling b.finalizeInstructions
    let b ← validateBinary b
    if rest = [] then .ok b else syntaxError

/-- `gpuasm_parse`. -/
def parse (ts : List Token) (b : PicoGpuBinary) : Except ParseStop PicoGpuBinary := do
  let (directives, ending) := readDirectives ts.length ts
  let b ← directives.foldlM (fun b d => d.action b) b
  match directives, ending with
  | [], _ => syntaxError
  | _, .inside => syntaxError
  | _, .before rest =>
    let b ← calling b.finalizeDirectives
    let b ← validateBinary b
    parseInstructions rest b

end Grammar

/-- What `assembly` returns, if it returns. -/
def assembly (numbers : NumberReader) (code : List Char) (outBinary : PicoGpuBinary) :
    Except FatalError Nat :=
  match Grammar.parse (Scanner.tokens numbers code) outBinary with
  | .ok _ => .ok 0
  | .error (.yyabort _) => .ok 1
  | .error (.fatal error) => .error error

end PicoGpu
