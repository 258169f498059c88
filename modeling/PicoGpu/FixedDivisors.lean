import PicoGpu.Divisions
import PicoGpu.LaneRelations

/- Which shaders never divide by zero, nor the smallest int by -1, told from their text.

   A component of a register is fixed where the text tells what it holds: an immediate value
   that `init` has put there, the zero of a component that nothing was put into, and what `mov`
   and `swizzle` copy of these. Inputs, uniforms and attributes are not fixed, and results of
   arithmetic are not.

   What is proved: an accepted program divides well for every input if and only if its divisors
   are fixed to values it may divide by (`divisions_defined_iff_fixed`). That this is enough
   holds of any arithmetic. That it is needed rests on two arithmetics, of which one computes
   nothing but 0 and the other nothing but the smallest int. -/
namespace PicoGpu

/-! ## What the text of a program tells -/

/-- The values that a text tells: none where the value is received or computed. -/
def textAlu : Alu (Option Dword) where
  zero := some 0
  one := none
  ofDword := some
  fadd := fun _ _ => none
  fsub := fun _ _ => none
  fmul := fun _ _ => none
  fdiv := fun _ _ => none
  fneg := fun _ => none
  fsqrt := fun _ => none
  fmax := fun _ _ => none
  fmin := fun _ _ => none
  iadd := fun _ _ => none
  isub := fun _ _ => none
  imul := fun _ _ => none
  idiv := fun _ _ => none
  ineg := fun _ => none
  imax := fun _ _ => none
  imin := fun _ _ => none

/-- What a header tells of a unit. -/
def textUnit (header : CommandStoreIsa) : ShaderUnit (Option Dword) where
  isaMetadata := header
  isa := fun _ => 0
  gpr := fun _ _ => .replicate (some 0)
  pc := 0
  uniformDwords := fun _ => none

/-- The registers of a lane behind some instructions, as far as the text tells. -/
def textLane (header : CommandStoreIsa) (instructions : List Instruction) :
    LaneFile (Option Dword) :=
  (textUnit header).laneRun textAlu (fun _ => none) instructions
    ((textUnit header).startLane textAlu (fun _ => none) (fun _ => none)
      fun _ => .replicate (some 0))

/-- The divisor is fixed, and not to 0; if it is -1, the dividend is fixed as well, and not to
    the smallest int. -/
def FixedQuotient (src1 src2 : Option Dword) : Prop :=
  match src2 with
  | none => False
  | some divisor => divisor ≠ 0 ∧ (divisor = -1 → src1 ≠ none ∧ src1 ≠ some (BitVec.intMin 32))

instance (src1 src2 : Option Dword) : Decidable (FixedQuotient src1 src2) :=
  match src2 with
  | none => inferInstanceAs (Decidable False)
  | some _ => inferInstanceAs (Decidable (_ ∧ _))

/-- A division by fixed components. -/
def Instruction.FixesDivisor (inst : Instruction) (file : LaneFile (Option Dword)) : Prop :=
  match inst.opcode, inst.operands with
  | .idiv, .binaryMath _ src1 src2 destMask => ∀ i, selects destMask i = true →
    FixedQuotient ((file src1).get i) ((file src2).get i)
  | .idiv_imm, .binaryMathImm _ src destMask imms => ∀ i, selects destMask i = true →
    FixedQuotient ((file src).get i)
      (some (imms.getD (min (selectedBefore destMask i) (imms.length - 1)) 0))
  | _, _ => True

/-- All divisions of a program are. -/
def FixesDivisors (header : CommandStoreIsa) (program : List Instruction) : Prop :=
  ∀ k, ∀ hk : k < program.length,
    (program[k].decoded textAlu).FixesDivisor (textLane header (program.take k))

instance (inst : Instruction) (file : LaneFile (Option Dword)) :
    Decidable (inst.FixesDivisor file) := by
  unfold Instruction.FixesDivisor
  split
  · infer_instance
  · infer_instance
  · infer_instance

instance (header : CommandStoreIsa) (program : List Instruction) :
    Decidable (FixesDivisors header program) :=
  inferInstanceAs (Decidable (∀ k, ∀ _ : k < program.length, _))

/-- A division whose divisors are immediate values that suit every dividend. -/
structure Instruction.DividesByImmediates (inst : Instruction) : Prop where
  registers : inst.opcode ≠ .idiv
  immediates : inst.opcode = .idiv_imm → ∀ dest src destMask imms,
    inst.operands = .binaryMathImm dest src destMask imms → ∀ i, selects destMask i = true →
      imms.getD (min (selectedBefore destMask i) (imms.length - 1)) 0 ∉ [0, -1]

/-- A program without other divisions has fixed divisors. -/
theorem fixesDivisors_of_immediates {header : CommandStoreIsa} {program : List Instruction}
    (h : ∀ inst ∈ program, (inst.decoded textAlu).DividesByImmediates) :
    FixesDivisors header program := by
  intro k hk
  obtain ⟨hregisters, himmediates⟩ := h program[k] (List.getElem_mem hk)
  unfold Instruction.FixesDivisor
  split
  · next hopcode hoperands => exact absurd hopcode hregisters
  · next dest src destMask imms hopcode hoperands =>
    intro i hi
    have hdivisor := himmediates hopcode dest src destMask imms hoperands i hi
    rw [List.mem_cons, List.mem_singleton, not_or] at hdivisor
    exact ⟨hdivisor.1, fun hminusOne => absurd hminusOne hdivisor.2⟩
  · trivial

/-! ## Enough -/

/-- A register holds dwords as they are, and zero before. -/
structure Alu.KeepsDwords (alu : Alu Dword) : Prop where
  zero : alu.zero = 0
  ofDword : ∀ d, alu.ofDword d = d

def Tells (t : Option Dword) (v : Dword) : Prop := ∀ d, t = some d → v = d

theorem tells_none (v : Dword) : Tells none v := fun _ h => nomatch h

/-- What the text tells is so, whatever the operations compute. -/
theorem textAlu_tells {alu : Alu Dword} (h : alu.KeepsDwords) :
    Alu.Related Tells textAlu alu where
  zero := by
    intro d hd
    cases hd
    exact h.zero
  one := tells_none _
  ofDword := by
    intro d d' hd
    cases hd
    exact h.ofDword d
  fadd := fun _ _ _ _ _ _ => tells_none _
  fsub := fun _ _ _ _ _ _ => tells_none _
  fmul := fun _ _ _ _ _ _ => tells_none _
  fdiv := fun _ _ _ _ _ _ => tells_none _
  fneg := fun _ _ _ => tells_none _
  fsqrt := fun _ _ _ => tells_none _
  fmax := fun _ _ _ _ _ _ => tells_none _
  fmin := fun _ _ _ _ _ _ => tells_none _
  iadd := fun _ _ _ _ _ _ => tells_none _
  isub := fun _ _ _ _ _ _ => tells_none _
  imul := fun _ _ _ _ _ _ => tells_none _
  idiv := fun _ _ _ _ _ _ => tells_none _
  ineg := fun _ _ _ => tells_none _
  imax := fun _ _ _ _ _ _ => tells_none _
  imin := fun _ _ _ _ _ _ => tells_none _

theorem FixedQuotient.defined {src1 src2 : Option Dword} (h : FixedQuotient src1 src2)
    {v1 v2 : Dword} (h1 : Tells src1 v1) (h2 : Tells src2 v2) :
    IntegerDivision.Defined ⟨v1, v2⟩ := by
  unfold FixedQuotient at h
  cases src2 with
  | none => exact absurd h id
  | some divisor =>
    obtain rfl : v2 = divisor := h2 divisor rfl
    obtain ⟨hzero, hminusOne⟩ := h
    refine ⟨hzero, ?_⟩
    rintro ⟨hmin, hone⟩
    obtain ⟨hsome, hne⟩ := hminusOne hone
    obtain ⟨dividend, hdividend⟩ := Option.ne_none_iff_exists'.mp hsome
    rw [hdividend, ← h1 dividend hdividend] at hne
    exact hne (congrArg some hmin)

theorem Instruction.FixesDivisor.dividesWell {alu : Alu Dword} (halu : alu.KeepsDwords)
    {inst : Instruction} {text : LaneFile (Option Dword)} (h : inst.FixesDivisor text)
    {file : LaneFile Dword} (htells : text.Related Tells file) : DividesWell alu inst file := by
  unfold Instruction.FixesDivisor at h
  unfold DividesWell
  split
  · next dest src1 src2 destMask hopcode hoperands =>
    rw [hopcode, hoperands] at h
    intro i hi
    exact (h i hi).defined (htells src1 i) (htells src2 i)
  · next dest src destMask imms hopcode hoperands =>
    rw [hopcode, hoperands] at h
    intro i hi
    refine (h i hi).defined (htells src i) ?_
    intro d hd
    cases hd
    exact halu.ofDword _
  · trivial

/-! ## Needed -/

/-- Arithmetic that computes nothing but `x`. -/
def constantAlu (x : Dword) : Alu Dword where
  zero := 0
  one := x
  ofDword := id
  fadd := fun _ _ => x
  fsub := fun _ _ => x
  fmul := fun _ _ => x
  fdiv := fun _ _ => x
  fneg := fun _ => x
  fsqrt := fun _ => x
  fmax := fun _ _ => x
  fmin := fun _ _ => x
  iadd := fun _ _ => x
  isub := fun _ _ => x
  imul := fun _ _ => x
  idiv := fun _ _ => x
  ineg := fun _ => x
  imax := fun _ _ => x
  imin := fun _ _ => x

theorem constantAlu_keepsDwords (x : Dword) : (constantAlu x).KeepsDwords := ⟨rfl, fun _ => rfl⟩

/-- With it, what the text does not tell is `x`. -/
def Otherwise (x : Dword) (t : Option Dword) (v : Dword) : Prop := v = t.getD x

theorem textAlu_otherwise (x : Dword) : Alu.Related (Otherwise x) textAlu (constantAlu x) where
  zero := rfl
  one := rfl
  ofDword := fun _ => rfl
  fadd := fun _ _ _ _ _ _ => rfl
  fsub := fun _ _ _ _ _ _ => rfl
  fmul := fun _ _ _ _ _ _ => rfl
  fdiv := fun _ _ _ _ _ _ => rfl
  fneg := fun _ _ _ => rfl
  fsqrt := fun _ _ _ => rfl
  fmax := fun _ _ _ _ _ _ => rfl
  fmin := fun _ _ _ _ _ _ => rfl
  iadd := fun _ _ _ _ _ _ => rfl
  isub := fun _ _ _ _ _ _ => rfl
  imul := fun _ _ _ _ _ _ => rfl
  idiv := fun _ _ _ _ _ _ => rfl
  ineg := fun _ _ _ => rfl
  imax := fun _ _ _ _ _ _ => rfl
  imin := fun _ _ _ _ _ _ => rfl

/-- A divisor that is not fixed may be 0, and a dividend that is not may be the smallest int. -/
theorem fixedQuotient_of_defined {src1 src2 : Option Dword}
    (hzero : IntegerDivision.Defined ⟨src1.getD 0, src2.getD 0⟩)
    (hmin : IntegerDivision.Defined
      ⟨src1.getD (BitVec.intMin 32), src2.getD (BitVec.intMin 32)⟩) :
    FixedQuotient src1 src2 := by
  cases src2 with
  | none => exact absurd rfl hzero.1
  | some divisor =>
    refine ⟨hzero.1, fun hminusOne => ⟨?_, ?_⟩⟩
    · rintro rfl
      exact hmin.2 ⟨rfl, hminusOne⟩
    · rintro rfl
      exact hmin.2 ⟨rfl, hminusOne⟩

theorem fixesDivisor_of_dividesWell {inst : Instruction} {text : LaneFile (Option Dword)}
    {file file' : LaneFile Dword} (hfile : text.Related (Otherwise 0) file)
    (hfile' : text.Related (Otherwise (BitVec.intMin 32)) file')
    (hzero : DividesWell (constantAlu 0) inst file)
    (hmin : DividesWell (constantAlu (BitVec.intMin 32)) inst file') : inst.FixesDivisor text := by
  have hget : ∀ r i, (file r).get i = ((text r).get i).getD 0 := hfile
  have hget' : ∀ r i, (file' r).get i = ((text r).get i).getD (BitVec.intMin 32) := hfile'
  unfold DividesWell at hzero hmin
  unfold Instruction.FixesDivisor
  split
  · next dest src1 src2 destMask hopcode hoperands =>
    rw [hopcode, hoperands] at hzero hmin
    intro i hi
    have h := hzero i hi
    have h' := hmin i hi
    rw [hget, hget] at h
    rw [hget', hget'] at h'
    exact fixedQuotient_of_defined h h'
  · next dest src destMask imms hopcode hoperands =>
    rw [hopcode, hoperands] at hzero hmin
    intro i hi
    have h := hzero i hi
    have h' := hmin i hi
    rw [hget] at h
    rw [hget'] at h'
    exact fixedQuotient_of_defined h h'
  · trivial

/-! ## Accepted programs -/

namespace ShaderUnit
variable {program : List Instruction} {b : PicoGpuBinary} {u : ShaderUnit Dword}

/-- The lanes of a unit and the text, when what comes from outside is related. -/
theorem HoldsBinary.textLane (hu : u.HoldsBinary b) {R : Option Dword → Dword → Prop}
    {alu : Alu Dword} (halu : Alu.Related R textAlu alu) {uniforms stream : Nat → Dword}
    (huniforms : ∀ k, R none (uniforms k)) (hstream : ∀ k, R none (stream k)) {threadCount l : Nat}
    (hl : l < threadCount) (instructions : List Instruction) :
    (textLane b.header instructions).Related R
      (u.laneRun alu uniforms instructions ((u.started alu threadCount stream).gpr l)) := by
  have hmeta : u.isaMetadata = { (textUnit b.header).isaMetadata with
      hasNextCommand := u.isaMetadata.hasNextCommand } := by
    have hheader : (textUnit b.header).isaMetadata = b.header := rfl
    rw [hheader, ← hu.isaMetadata]
  have hstarted : (u.started alu threadCount stream).gpr l = u.startLane alu
      (fun k => stream (l * u.threadDwords + k))
      (fun k => stream (threadCount * u.threadDwords + u.uniformsDwords + k))
      (fun _ => .replicate alu.zero) := if_pos hl
  rw [hstarted]
  apply laneRun_related hmeta halu huniforms instructions
  apply startLane_related hmeta halu (fun _ => hstream _) fun _ => hstream _
  exact fun _ => VectorRegister.related_replicate halu.zero

/-- With fixed divisors nothing that comes from outside can spoil a division. -/
theorem requestDivisions_of_fixed (hb : Parsed program b) (hfixes : FixesDivisors b.header program)
    {alu : Alu Dword} (halu : alu.KeepsDwords) (hu : u.HoldsBinary b) (threadCount : BitVec 5)
    (stream : Nat → Dword) : ∃ calls, u.requestDivisions alu threadCount stream = .ok calls ∧
      ∀ d ∈ calls, d.Defined := by
  have hready : u.Ready alu program := hu.ready hb
  obtain ⟨calls, hcalls, hdefined⟩ := requestDivisions_lanes hready threadCount stream
  refine ⟨calls, hcalls, hdefined.mpr fun k hk l hl => ?_⟩
  have hlane := hu.textLane (textAlu_tells halu)
    (fun k => tells_none ((u.started alu (nonZeroCountToInt threadCount) stream).uniformDwords k))
    (fun k => tells_none (stream k)) hl (program.take k)
  have hwell := (hfixes k hk).dividesWell halu hlane
  rwa [decoded_alu alu textAlu] at hwell

/-- One lane, with arithmetic and inputs that are all the same value. -/
theorem dividesWell_of_defined (hb : Parsed program b) (hu : u.HoldsBinary b) (x : Dword)
    (hdefined : ∃ calls, u.requestDivisions (constantAlu x) 0 (fun _ => x) = .ok calls ∧
      ∀ d ∈ calls, d.Defined) {k : Nat} (hk : k < program.length) :
    ∃ file, (textLane b.header (program.take k)).Related (Otherwise x) file ∧
      DividesWell (constantAlu x) (program[k].decoded textAlu) file := by
  have hready : u.Ready (constantAlu x) program := hu.ready hb
  obtain ⟨calls, hcalls, hiff⟩ := requestDivisions_lanes hready 0 fun _ => x
  obtain ⟨calls', hcalls', hall⟩ := hdefined
  rw [hcalls] at hcalls'
  cases hcalls'
  have hone : 0 < nonZeroCountToInt (0 : BitVec 5) := Nat.one_pos
  have hwell := hiff.mp hall k hk 0 hone
  have huniforms : ∀ j < u.uniformsDwords,
      (u.started (constantAlu x) (nonZeroCountToInt (0 : BitVec 5)) fun _ => x).uniformDwords j = x :=
    fun j hj => if_pos hj
  rw [laneRun_congr _ u huniforms, decoded_alu textAlu (constantAlu x)] at hwell
  have hnone : ∀ _ : Nat, Otherwise x none x := fun _ => rfl
  exact ⟨_, hu.textLane (textAlu_otherwise x) hnone hnone hone (program.take k), hwell⟩

/-- **The divisions of an accepted program are defined for every input, whatever its arithmetic
    computes, if and only if all its divisors are fixed by its text**, to values other than 0,
    and -1 only below a dividend that is fixed and not the smallest int. -/
theorem divisions_defined_iff_fixed {p : Program} (h : p.parse .new = .ok b) : ∃ preamble,
    AssemblerCall.emittedAll p.directiveCalls .new = .ok preamble ∧
    ((∀ alu : Alu Dword, alu.KeepsDwords → ∀ u : ShaderUnit Dword, u.HoldsBinary b →
        ∀ (threadCount : BitVec 5) (stream : Nat → Dword), ∃ calls,
          u.requestDivisions alu threadCount stream = .ok calls ∧ ∀ d ∈ calls, d.Defined) ↔
      FixesDivisors b.header
        (preamble ++ p.instructions.map SourceInstruction.encoded ++ b.finalCalls)) := by
  obtain ⟨preamble, hem, -⟩ := parse_assembled h
  have hb := Program.parsed_of_emitted h hem
  refine ⟨preamble, hem, ?_, ?_⟩
  · intro hdefined k hk
    have hholds : (ShaderUnit.processStoreIsaCommand b.getData (binaryUnit b)).HoldsBinary b :=
      holdsBinary_processStoreIsa (showsBinary_getData hb) _
    obtain ⟨file, hfile, hzero⟩ := dividesWell_of_defined hb hholds 0
      (hdefined _ (constantAlu_keepsDwords 0) _ hholds 0 _) hk
    obtain ⟨file', hfile', hmin⟩ := dividesWell_of_defined hb hholds (BitVec.intMin 32)
      (hdefined _ (constantAlu_keepsDwords _) _ hholds 0 _) hk
    exact fixesDivisor_of_dividesWell hfile hfile' hzero hmin
  · intro hfixes alu halu u hu threadCount stream
    exact requestDivisions_of_fixed hb hfixes halu hu threadCount stream

/-- `iinit r1 5`, `idiv r2.x r0 r1` and `idiv_imm r3.x r1 -1`. -/
def dividesByFive : Program := { oneInstruction .trap with
  instructions := [.iinit (.reg 1) (.one 5), .idiv (.masked 2 (.one .swizzleX)) 0 1,
    .idiv_imm (.masked 3 (.one .swizzleX)) 1 (-1)]
  instructions_ne := List.cons_ne_nil _ _ }

def dividesByFiveBinary : PicoGpuBinary := (dividesByFive.parse .new).toOption.getD .new

/-- Its divisors are fixed, so whatever comes in is divided well. -/
theorem divisions_defined_by_five : ∃ calls,
    (binaryUnit dividesByFiveBinary).requestDivisions integerAlu 31 (fun k => BitVec.ofNat 32 k) =
      .ok calls ∧ ∀ d ∈ calls, d.Defined := by
  obtain ⟨preamble, hem, hiff⟩ := @divisions_defined_iff_fixed dividesByFiveBinary dividesByFive rfl
  cases hem
  exact hiff.mpr (by decide +kernel) integerAlu ⟨rfl, fun _ => rfl⟩ _ ⟨rfl, rfl⟩ 31 _

end ShaderUnit

end PicoGpu
