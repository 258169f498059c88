import PicoGpu.Lib.Munch
import PicoGpu.Parser

/- scanner.l: the rules of the scanner, in their order, and the tokens they make. A source
   text is the list of its characters, one for each byte. What `atoi` and `atof` make of the
   text of a number is left open. -/
namespace PicoGpu
open Munch

/-- The tokens of the mnemonics. -/
inductive Mnemonic where
  | finit | fadd | fsub | fmul | fdiv | fneg | fdot | fcross | fcross2 | fmad | frcp | fnorm | fmax
  | fmin
  | iinit | iadd | isub | imul | idiv | ineg | imax | imin
  | mov | swizzle | trap
  deriving DecidableEq, Repr

/-- The tokens of the directives. -/
inductive Hash where
  | input | output | vs | fs | uniform | undefinedRegs
  deriving DecidableEq, Repr

inductive Token where
  | mnemonic (m : Mnemonic)
  | reg (reg : RegisterIndex)
  | numberInt (i : Dword)
  | numberFloat (f : NumberFloat)
  | vecComponent (swizzleComponent : SwizzlePatternComponent)
  | dot
  | hash (h : Hash)
  | undefToken
  deriving DecidableEq, Repr

/-- The functions of the C library that read numbers. -/
structure NumberReader where
  atoi : List Char → Dword
  atof : List Char → NumberFloat

namespace Scanner

/-- `[0-9]`. -/
def digit (c : Char) : Bool := '0' ≤ c ∧ c ≤ '9'

/-- `[0-5]`. -/
def lowDigit (c : Char) : Bool := '0' ≤ c ∧ c ≤ '5'

def isChar (a c : Char) : Bool := c = a

/-- The number that a row of digits says. -/
def decimal (digits : List Char) : Nat :=
  digits.foldl (fun number c => 10 * number + (c.toNat - '0'.toNat)) 0

def processVecComponent : List Char → Option Token
  | ['x'] => some (.vecComponent .swizzleX)
  | ['y'] => some (.vecComponent .swizzleY)
  | ['z'] => some (.vecComponent .swizzleZ)
  | ['w'] => some (.vecComponent .swizzleW)
  | _ => none

/-- A rule for a fixed text. -/
def fixed (text : String) (token : Token) : Rule Char Token :=
  .ofPattern (literal text.toList) fun _ => some token

/-- `[ \t\n]+`. -/
def whitespace : Rule Char Token :=
  .ofPattern (plus fun c => c = ' ' ∨ c = '\t' ∨ c = '\n') fun _ => none

/-- `"//".*`. -/
def comment : Rule Char Token :=
  .ofPattern (literal ['/', '/'] ++ [.star fun c => c ≠ '\n']) fun _ => none

def reg (text : List Char) : Option Token := some (.reg (Fin.ofNat 16 (decimal (text.drop 1))))

/-- `r[0-9]`. -/
def reg1 : Rule Char Token := .ofPattern [.one (isChar 'r'), .one digit] reg

/-- `r1[0-5]`. -/
def reg2 : Rule Char Token :=
  .ofPattern [.one (isChar 'r'), .one (isChar '1'), .one lowDigit] reg

/-- `-?[0-9]+`. -/
def numberInt (numbers : NumberReader) : Rule Char Token :=
  .ofPattern ([.opt (isChar '-')] ++ plus digit) fun text => some (.numberInt (numbers.atoi text))

/-- `-?[0-9]+\.[0-9]*f?`. -/
def numberFloat (numbers : NumberReader) : Rule Char Token :=
  .ofPattern ([.opt (isChar '-')] ++ plus digit ++
    [.one (isChar '.'), .star digit, .opt (isChar 'f')])
    fun text => some (.numberFloat (numbers.atof text))

/-- `[xyzw]`. -/
def vecComponent : Rule Char Token :=
  .ofPattern [.one fun c => c = 'x' ∨ c = 'y' ∨ c = 'z' ∨ c = 'w'] processVecComponent

/-- `.`. -/
def anyOther : Rule Char Token := .ofPattern [.one fun c => c ≠ '\n'] fun _ => some .undefToken

/-- The texts of the mnemonics. -/
def mnemonics : List (String × Mnemonic) :=
  [("finit", .finit), ("fadd", .fadd), ("fsub", .fsub), ("fmul", .fmul), ("fdiv", .fdiv),
    ("fneg", .fneg), ("fdot", .fdot), ("fcross", .fcross), ("fcross2", .fcross2), ("fmad", .fmad),
    ("frcp", .frcp), ("fnorm", .fnorm), ("fmax", .fmax), ("fmin", .fmin),
    ("iinit", .iinit), ("iadd", .iadd), ("isub", .isub), ("imul", .imul), ("idiv", .idiv),
    ("ineg", .ineg), ("imax", .imax), ("imin", .imin),
    ("mov", .mov), ("swizzle", .swizzle), ("trap", .trap)]

def hashes : List (String × Hash) :=
  [("#input", .input), ("#output", .output), ("#vertexShader", .vs), ("#fragmentShader", .fs),
    ("#uniform", .uniform), ("#undefinedRegs", .undefinedRegs)]

def mnemonic (entry : String × Mnemonic) : Rule Char Token := fixed entry.1 (.mnemonic entry.2)

def hash (entry : String × Hash) : Rule Char Token := fixed entry.1 (.hash entry.2)

/-- The rules in their order. -/
def rules (numbers : NumberReader) : List (Rule Char Token) :=
  [whitespace, comment] ++ mnemonics.map mnemonic ++
    [reg1, reg2, numberInt numbers, numberFloat numbers, vecComponent, fixed "." .dot] ++
    hashes.map hash ++ [anyOther]

/-- The tokens that `gpuasm_lex` returns for a text. -/
def tokens (numbers : NumberReader) (code : List Char) : List Token := scan (rules numbers) code

end Scanner

end PicoGpu
