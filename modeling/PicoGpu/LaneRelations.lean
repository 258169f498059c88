import PicoGpu.Lanes

/- One program on two kinds of values. A relation between the values that the operations of
   both interpreters keep holds between the registers of both lanes before and behind every
   instruction, whatever the program does (`laneRun_related`). -/
namespace PicoGpu

section
variable {V W : Type}

/-! ## Related operations -/

def Keeps (R : V → W → Prop) (f : V → V) (f' : W → W) : Prop :=
  ∀ a a', R a a' → R (f a) (f' a')

def Keeps₂ (R : V → W → Prop) (f : V → V → V) (f' : W → W → W) : Prop :=
  ∀ a a' b b', R a a' → R b b' → R (f a b) (f' a' b')

/-- The operations of two interpreters keep a relation between their values. -/
structure Alu.Related (R : V → W → Prop) (alu : Alu V) (alu' : Alu W) : Prop where
  zero : R alu.zero alu'.zero
  one : R alu.one alu'.one
  ofDword : ∀ d, R (alu.ofDword d) (alu'.ofDword d)
  fadd : Keeps₂ R alu.fadd alu'.fadd
  fsub : Keeps₂ R alu.fsub alu'.fsub
  fmul : Keeps₂ R alu.fmul alu'.fmul
  fdiv : Keeps₂ R alu.fdiv alu'.fdiv
  fneg : Keeps R alu.fneg alu'.fneg
  fsqrt : Keeps R alu.fsqrt alu'.fsqrt
  fmax : Keeps₂ R alu.fmax alu'.fmax
  fmin : Keeps₂ R alu.fmin alu'.fmin
  iadd : Keeps₂ R alu.iadd alu'.iadd
  isub : Keeps₂ R alu.isub alu'.isub
  imul : Keeps₂ R alu.imul alu'.imul
  idiv : Keeps₂ R alu.idiv alu'.idiv
  ineg : Keeps R alu.ineg alu'.ineg
  imax : Keeps₂ R alu.imax alu'.imax
  imin : Keeps₂ R alu.imin alu'.imin

def VectorRegister.Related (R : V → W → Prop) (r : VectorRegister V) (r' : VectorRegister W) :
    Prop := ∀ i, R (r.get i) (r'.get i)

def LaneFile.Related (R : V → W → Prop) (file : LaneFile V) (file' : LaneFile W) : Prop :=
  ∀ r, (file r).Related R (file' r)

/-- Two cases of the switch that do the same with related values. -/
inductive Operation.Related (R : V → W → Prop) : Operation V → Operation W → Prop
  | unary {f : V → V} {f' : W → W} (h : Keeps R f f') : Related R (.unary f) (.unary f')
  | unaryVectorVector {f : VectorRegister V → VectorRegister V}
      {f' : VectorRegister W → VectorRegister W}
      (h : ∀ a a', a.Related R a' → (f a).Related R (f' a')) :
      Related R (.unaryVectorVector f) (.unaryVectorVector f')
  | binary {f : V → V → V} {f' : W → W → W} (h : Keeps₂ R f f') :
      Related R (.binary f) (.binary f')
  | binaryVectorScalar {f : VectorRegister V → VectorRegister V → V}
      {f' : VectorRegister W → VectorRegister W → W}
      (h : ∀ a a' b b', a.Related R a' → b.Related R b' → R (f a b) (f' a' b')) :
      Related R (.binaryVectorScalar f) (.binaryVectorScalar f')
  | binaryVectorVector {f : VectorRegister V → VectorRegister V → VectorRegister V}
      {f' : VectorRegister W → VectorRegister W → VectorRegister W}
      (h : ∀ a a' b b', a.Related R a' → b.Related R b' → (f a b).Related R (f' a' b')) :
      Related R (.binaryVectorVector f) (.binaryVectorVector f')
  | ternary {f : V → V → V → V} {f' : W → W → W → W}
      (h : ∀ a a' b b' c c', R a a' → R b b' → R c c' → R (f a b c) (f' a' b' c')) :
      Related R (.ternary f) (.ternary f')
  | unaryImm {f : V → V} {f' : W → W} (h : Keeps R f f') :
      Related R (.unaryImm f) (.unaryImm f')
  | binaryImm {f : V → V → V} {f' : W → W → W} (h : Keeps₂ R f f') :
      Related R (.binaryImm f) (.binaryImm f')
  | swizzle : Related R .swizzle .swizzle
  | trap : Related R .trap .trap
  | lduni : Related R .lduni .lduni
  | initregs : Related R .initregs .initregs

section
variable {R : V → W → Prop} {alu : Alu V} {alu' : Alu W}

theorem VectorRegister.related_mk {a b c d : V} {a' b' c' d' : W} (ha : R a a') (hb : R b b')
    (hc : R c c') (hd : R d d') : (VectorRegister.mk a b c d).Related R ⟨a', b', c', d'⟩ := by
  intro i
  match i with
  | 0 => exact ha
  | 1 => exact hb
  | 2 => exact hc
  | 3 => exact hd

theorem VectorRegister.related_replicate {a : V} {a' : W} (h : R a a') :
    (VectorRegister.replicate a).Related R (.replicate a') := related_mk h h h h

namespace Alu.Related

theorem fdot (h : Alu.Related R alu alu') {a b : VectorRegister V} {a' b' : VectorRegister W}
    (ha : a.Related R a') (hb : b.Related R b') : R (alu.fdot a b) (alu'.fdot a' b') := by
  have hmul : ∀ i, R (alu.fmul (a.get i) (b.get i)) (alu'.fmul (a'.get i) (b'.get i)) :=
    fun i => h.fmul _ _ _ _ (ha i) (hb i)
  exact h.fadd _ _ _ _ (h.fadd _ _ _ _ (h.fadd _ _ _ _ (hmul 0) (hmul 1)) (hmul 2)) (hmul 3)

theorem fcross (h : Alu.Related R alu alu') {a b : VectorRegister V} {a' b' : VectorRegister W}
    (ha : a.Related R a') (hb : b.Related R b') :
    (alu.fcross a b).Related R (alu'.fcross a' b') := by
  have hminor : ∀ i j, R (alu.fsub (alu.fmul (a.get i) (b.get j)) (alu.fmul (a.get j) (b.get i)))
      (alu'.fsub (alu'.fmul (a'.get i) (b'.get j)) (alu'.fmul (a'.get j) (b'.get i))) :=
    fun i j => h.fsub _ _ _ _ (h.fmul _ _ _ _ (ha i) (hb j)) (h.fmul _ _ _ _ (ha j) (hb i))
  exact VectorRegister.related_mk (hminor 1 2) (hminor 2 0) (hminor 0 1) h.zero

theorem fcross2 (h : Alu.Related R alu alu') {a b : VectorRegister V} {a' b' : VectorRegister W}
    (ha : a.Related R a') (hb : b.Related R b') : R (alu.fcross2 a b) (alu'.fcross2 a' b') :=
  h.fsub _ _ _ _ (h.fmul _ _ _ _ (ha 0) (hb 1)) (h.fmul _ _ _ _ (ha 1) (hb 0))

theorem fnorm (h : Alu.Related R alu alu') {a : VectorRegister V} {a' : VectorRegister W}
    (ha : a.Related R a') : (alu.fnorm a).Related R (alu'.fnorm a') := by
  have hlen := h.fsqrt _ _ (h.fdot ha ha)
  have hdiv : ∀ i, R (alu.fdiv (a.get i) (alu.fsqrt (alu.fdot a a)))
      (alu'.fdiv (a'.get i) (alu'.fsqrt (alu'.fdot a' a'))) :=
    fun i => h.fdiv _ _ _ _ (ha i) hlen
  exact VectorRegister.related_mk (hdiv 0) (hdiv 1) (hdiv 2) (hdiv 3)

theorem operation (h : Alu.Related R alu alu') (opcode : Opcode) :
    Operation.Related R (opcode.operation alu) (opcode.operation alu') := by
  cases opcode with
  | fadd => exact .binary h.fadd
  | fsub => exact .binary h.fsub
  | fmul => exact .binary h.fmul
  | fdiv => exact .binary h.fdiv
  | fmax => exact .binary h.fmax
  | fmin => exact .binary h.fmin
  | iadd => exact .binary h.iadd
  | isub => exact .binary h.isub
  | imul => exact .binary h.imul
  | idiv => exact .binary h.idiv
  | imax => exact .binary h.imax
  | imin => exact .binary h.imin
  | fadd_imm => exact .binaryImm h.fadd
  | fsub_imm => exact .binaryImm h.fsub
  | fmul_imm => exact .binaryImm h.fmul
  | fdiv_imm => exact .binaryImm h.fdiv
  | iadd_imm => exact .binaryImm h.iadd
  | isub_imm => exact .binaryImm h.isub
  | imul_imm => exact .binaryImm h.imul
  | idiv_imm => exact .binaryImm h.idiv
  | fneg => exact .unary h.fneg
  | ineg => exact .unary h.ineg
  | frcp => exact .unary fun a a' ha => h.fdiv _ _ a a' h.one ha
  | fdot => exact .binaryVectorScalar fun _ _ _ _ => h.fdot
  | fcross => exact .binaryVectorVector fun _ _ _ _ => h.fcross
  | fcross2 => exact .binaryVectorScalar fun _ _ _ _ => h.fcross2
  | fmad => exact .ternary fun _ _ _ _ _ _ ha hb hc => h.fadd _ _ _ _ (h.fmul _ _ _ _ ha hb) hc
  | fnorm => exact .unaryVectorVector fun _ _ => h.fnorm
  | init => exact .unaryImm fun _ _ ha => ha
  | mov => exact .unary fun _ _ ha => ha
  | swizzle => exact .swizzle
  | trap => exact .trap
  | lduni => exact .lduni
  | initregs => exact .initregs

end Alu.Related

/-! ## Related registers -/

section
variable {file : LaneFile V} {file' : LaneFile W}

theorem LaneFile.Related.update (h : file.Related R file') (dest : RegisterIndex)
    {r : VectorRegister V} {r' : VectorRegister W} (hr : r.Related R r') :
    LaneFile.Related R (Function.update file dest r) (Function.update file' dest r') := by
  intro register
  by_cases heq : register = dest
  · subst heq
    rw [Function.update_self, Function.update_self]
    exact hr
  · rw [Function.update_of_ne heq, Function.update_of_ne heq]
    exact h register

theorem LaneFile.Related.assign (h : file.Related R file') (dest : RegisterIndex) (i : Fin 4)
    {v : V} {v' : W} (hv : R v v') : (file.assign dest i v).Related R (file'.assign dest i v') := by
  intro r j
  rw [LaneFile.get_assign, LaneFile.get_assign]
  split
  · exact hv
  · exact h r j

theorem writeMasked_related (h : file.Related R file') (destMask : BitVec 4) (dest : RegisterIndex)
    {value : LaneFile V → Fin 4 → V} {value' : LaneFile W → Fin 4 → W}
    (hvalue : ∀ file file' i, LaneFile.Related R file file' → R (value file i) (value' file' i)) :
    (writeMasked destMask dest value file).Related R (writeMasked destMask dest value' file') := by
  refine List.foldl_rel h fun i _ file file' hfile => ?_
  split
  · exact hfile.assign dest i (hvalue file file' i hfile)
  · exact hfile

theorem writeImmediates_related (h : file.Related R file') (destMask : BitVec 4)
    (dest : RegisterIndex) (immCount : Nat) {imm : Nat → V} {imm' : Nat → W}
    (himm : ∀ k, R (imm k) (imm' k)) {value : LaneFile V → Fin 4 → V → V}
    {value' : LaneFile W → Fin 4 → W → W}
    (hvalue : ∀ file file' i v v', LaneFile.Related R file file' → R v v' →
      R (value file i v) (value' file' i v')) :
    (writeImmediates destMask dest immCount imm value file).Related R
      (writeImmediates destMask dest immCount imm' value' file') := by
  have hloop := @List.foldl_rel (Fin 4) (LaneFile V × Nat) (LaneFile W × Nat) [0, 1, 2, 3]
    (fun s i => if selects destMask i then
      (s.1.assign dest i (value s.1 i (imm s.2)), if s.2 + 1 < immCount then s.2 + 1 else s.2) else s)
    (fun s i => if selects destMask i then
      (s.1.assign dest i (value' s.1 i (imm' s.2)), if s.2 + 1 < immCount then s.2 + 1 else s.2) else s)
    (file, 0) (file', 0) (fun s s' => s.1.Related R s'.1 ∧ s.2 = s'.2) ⟨h, rfl⟩ ?_
  · exact hloop.1
  · rintro i - ⟨file, index⟩ ⟨file', index'⟩ ⟨hfile, hindex⟩
    obtain rfl : index = index' := hindex
    dsimp only
    split
    · exact ⟨hfile.assign dest i (hvalue _ _ i _ _ hfile (himm index)), rfl⟩
    · exact ⟨hfile, rfl⟩

theorem writeSwizzle_related (h : file.Related R file') (dest src : RegisterIndex)
    (x y z w : SwizzlePatternComponent) :
    (writeSwizzle dest src x y z w file).Related R (writeSwizzle dest src x y z w file') :=
  List.foldl_rel h fun p _ _ _ hfile => hfile.assign dest p.1 (hfile src (Fin.ofNat 4 p.2.value))

theorem executeInstructionLane_related (halu : Alu.Related R alu alu') {operation : Operation V}
    {operation' : Operation W} (hop : Operation.Related R operation operation') (inst : Operands)
    (h : file.Related R file') :
    (executeInstructionLane alu operation inst file).1.Related R
      (executeInstructionLane alu' operation' inst file').1 := by
  have himm : ∀ (imms : List Dword) (k : Nat),
      R (alu.ofDword (imms.getD k 0)) (alu'.ofDword (imms.getD k 0)) := fun _ _ => halu.ofDword _
  cases hop with
  | unary hf =>
    cases inst with
    | unaryMath dest src destMask =>
      exact writeMasked_related h destMask dest fun _ _ i hfile => hf _ _ (hfile src i)
    | _ => exact h
  | unaryVectorVector hf =>
    cases inst with
    | unaryMath dest src destMask => exact h.update dest (hf _ _ (h src))
    | _ => exact h
  | binary hf =>
    cases inst with
    | binaryMath dest src1 src2 destMask =>
      exact writeMasked_related h destMask dest fun _ _ i hfile =>
        hf _ _ _ _ (hfile src1 i) (hfile src2 i)
    | _ => exact h
  | binaryVectorScalar hf =>
    cases inst with
    | binaryMath dest src1 src2 destMask =>
      exact writeMasked_related h destMask dest fun _ _ _ _ => hf _ _ _ _ (h src1) (h src2)
    | _ => exact h
  | binaryVectorVector hf =>
    cases inst with
    | binaryMath dest src1 src2 destMask => exact h.update dest (hf _ _ _ _ (h src1) (h src2))
    | _ => exact h
  | ternary hf =>
    cases inst with
    | ternaryMath dest src1 src2 src3 destMask =>
      exact writeMasked_related h destMask dest fun _ _ i hfile =>
        hf _ _ _ _ _ _ (hfile src1 i) (hfile src2 i) (hfile src3 i)
    | _ => exact h
  | unaryImm hf =>
    cases inst with
    | unaryMathImm dest destMask imms =>
      exact writeImmediates_related h destMask dest imms.length (himm imms)
        fun _ _ _ _ _ _ hv => hf _ _ hv
    | _ => exact h
  | binaryImm hf =>
    cases inst with
    | binaryMathImm dest src destMask imms =>
      exact writeImmediates_related h destMask dest imms.length (himm imms)
        fun _ _ i _ _ hfile hv => hf _ _ _ _ (hfile src i) hv
    | _ => exact h
  | swizzle =>
    cases inst with
    | swizzle dest src x y z w => exact writeSwizzle_related h dest src x y z w
    | _ => exact h
  | trap => exact h
  | lduni => exact h
  | initregs => exact h

end

theorem copyComponents_related (componentsCount : Nat) {values : Nat → V} {values' : Nat → W}
    (hvalues : ∀ k, R (values k) (values' k)) {r : VectorRegister V} {r' : VectorRegister W}
    (h : r.Related R r') :
    (copyComponents componentsCount values r).Related R
      (copyComponents componentsCount values' r') := by
  intro j
  rw [copyComponents_get, copyComponents_get]
  split
  · exact hvalues j
  · exact h j

theorem storeRegisters_related {start : VectorRegister V → VectorRegister V}
    {start' : VectorRegister W → VectorRegister W}
    (hstart : ∀ r r', r.Related R r' → (start r).Related R (start' r'))
    (registers : List (RegisterIndex × Nat)) {dwords : Nat → V} {dwords' : Nat → W}
    (hdwords : ∀ k, R (dwords k) (dwords' k)) {file : LaneFile V} {file' : LaneFile W}
    (h : file.Related R file') :
    (storeRegisters start registers dwords file).Related R
      (storeRegisters start' registers dwords' file') := by
  induction registers generalizing dwords dwords' file file' with
  | nil => exact h
  | cons register registers ih =>
    apply ih fun k => hdwords _
    have hregister := copyComponents_related register.2 hdwords (hstart _ _ (h register.1))
    exact h.update register.1 hregister

/-! ## A program on related values -/

namespace ShaderUnit
variable {u : ShaderUnit V} {u' : ShaderUnit W} {hasNextCommand : BitVec 1}

/-- What the header says does not depend on the values. -/
theorem registers_header
    (hmeta : u'.isaMetadata = { u.isaMetadata with hasNextCommand := hasNextCommand }) :
    u'.isFs = u.isFs ∧ u'.inputsOf = u.inputsOf ∧ u'.attributesOf = u.attributesOf ∧
      u'.uniformsOf = u.uniformsOf ∧ u'.usedRegisters = u.usedRegisters := by
  obtain ⟨isaMetadata, isa, gpr, pc, uniformDwords⟩ := u
  obtain ⟨isaMetadata', isa', gpr', pc', uniformDwords'⟩ := u'
  cases hmeta
  exact ⟨rfl, rfl, rfl, rfl, rfl⟩

theorem laneStep_related
    (hmeta : u'.isaMetadata = { u.isaMetadata with hasNextCommand := hasNextCommand })
    (halu : Alu.Related R alu alu')
    {uniforms : Nat → V} {uniforms' : Nat → W} (huniforms : ∀ k, R (uniforms k) (uniforms' k))
    {file : LaneFile V} {file' : LaneFile W} (h : file.Related R file') (inst : Instruction) :
    (u.laneStep alu uniforms file inst).Related R (u'.laneStep alu' uniforms' file' inst) := by
  obtain ⟨-, -, -, hunits, hused⟩ := registers_header hmeta
  have hop := halu.operation inst.opcode
  have hlane := executeInstructionLane_related halu hop inst.operands h
  unfold laneStep
  rw [hunits, hused]
  revert hop hlane
  generalize inst.opcode.operation alu = operation
  generalize inst.opcode.operation alu' = operation'
  intro hop hlane
  cases hop with
  | trap => exact h
  | lduni =>
    exact storeRegisters_related (fun _ _ _ => VectorRegister.related_replicate halu.zero) _
      huniforms h
  | initregs =>
    intro r
    dsimp only
    split
    · exact h r
    · exact VectorRegister.related_replicate halu.zero
  | unary _ | unaryVectorVector _ | binary _ | binaryVectorScalar _ | binaryVectorVector _
  | ternary _ | unaryImm _ | binaryImm _ | swizzle => exact hlane

/-- What the switch reads does not depend on the values either. -/
theorem decoded_alu (alu : Alu V) (alu' : Alu W) (i : Instruction) :
    i.decoded alu' = i.decoded alu := by
  have hlayout : (i.opcode.operation alu').layout = (i.opcode.operation alu).layout := by
    cases i.opcode <;> rfl
  unfold Instruction.decoded
  rw [hlayout]

theorem laneRun_related
    (hmeta : u'.isaMetadata = { u.isaMetadata with hasNextCommand := hasNextCommand })
    (halu : Alu.Related R alu alu')
    {uniforms : Nat → V} {uniforms' : Nat → W} (huniforms : ∀ k, R (uniforms k) (uniforms' k))
    (program : List Instruction) {file : LaneFile V} {file' : LaneFile W}
    (h : file.Related R file') :
    (u.laneRun alu uniforms program file).Related R
      (u'.laneRun alu' uniforms' program file') := by
  unfold laneRun
  rw [List.map_congr_left fun i _ => decoded_alu alu alu' i]
  exact List.foldl_rel h fun inst _ _ _ hfile => laneStep_related hmeta halu huniforms hfile inst

theorem startLane_related
    (hmeta : u'.isaMetadata = { u.isaMetadata with hasNextCommand := hasNextCommand })
    (halu : Alu.Related R alu alu')
    {perThread attributes : Nat → V} {perThread' attributes' : Nat → W}
    (hthread : ∀ k, R (perThread k) (perThread' k))
    (hattributes : ∀ k, R (attributes k) (attributes' k))
    {file : LaneFile V} {file' : LaneFile W} (h : file.Related R file') :
    (u.startLane alu perThread attributes file).Related R
      (u'.startLane alu' perThread' attributes' file') := by
  obtain ⟨hfs, hinputs, hattributesOf, -, -⟩ := registers_header hmeta
  unfold startLane
  rw [hfs, hinputs, hattributesOf]
  split
  · have hzero := VectorRegister.related_replicate halu.zero
    apply storeRegisters_related (fun _ _ _ => hzero) _ hattributes
    have hposition := h (u.inputsOf.getD 0 (0, 0)).1
    exact h.update _ (VectorRegister.related_mk (hthread 0) (hthread 1) (hposition 2) (hposition 3))
  · exact storeRegisters_related (fun _ _ hr => hr) _ hthread h

end ShaderUnit

end

end

end PicoGpu
