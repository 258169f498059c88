import PicoGpu.PicoGpuBinary
import PicoGpu.ShaderUnit
import Mathlib.Algebra.Field.Basic
import Mathlib.Data.List.GetD
import Mathlib.Tactic.Ring

/- What the interpolation preamble computes in one lane. Its instructions are run on
   the registers symbolically, a few at a time: `depthInstructions` leaves the weights
   of the vertices, each divided by its `z`, in the area registers and the
   interpolated `z` in the position and in the place of the first vertex' position;
   `attributeInstructions` then needs only these. Over a field the weights are the
   barycentric coordinates of the pixel. -/
namespace PicoGpu

/-! ## Instructions -/

section
variable {V : Type}

namespace VectorRegister

def map₂ (f : V → V → V) (a b : VectorRegister V) : VectorRegister V :=
  ⟨f a.x b.x, f a.y b.y, f a.z b.z, f a.w b.w⟩

def map₃ (f : V → V → V → V) (a b c : VectorRegister V) : VectorRegister V :=
  ⟨f a.x b.x c.x, f a.y b.y c.y, f a.z b.z c.z, f a.w b.w c.w⟩

theorem map₂_get (f : V → V → V) (a b : VectorRegister V) (j : Fin 4) :
    (map₂ f a b).get j = f (a.get j) (b.get j) := by
  match j with
  | 0 | 1 | 2 | 3 => rfl

theorem map₃_get (f : V → V → V → V) (a b c : VectorRegister V) (j : Fin 4) :
    (map₃ f a b c).get j = f (a.get j) (b.get j) (c.get j) := by
  match j with
  | 0 | 1 | 2 | 3 => rfl

/-- The components of `new` that the mask selects, and the others of `old`. -/
def select (destMask : BitVec 4) (old new : VectorRegister V) : VectorRegister V where
  x := if selects destMask 0 then new.x else old.x
  y := if selects destMask 1 then new.y else old.y
  z := if selects destMask 2 then new.z else old.z
  w := if selects destMask 3 then new.w else old.w

theorem select_get (destMask : BitVec 4) (old new : VectorRegister V) (j : Fin 4) :
    (select destMask old new).get j = if selects destMask j then new.get j else old.get j := by
  match j with
  | 0 | 1 | 2 | 3 => rfl

theorem select_xyzw (old new : VectorRegister V) : select 0b1111 old new = new := rfl

theorem select_xy (old new : VectorRegister V) :
    select 0b1100 old new = { old with x := new.x, y := new.y } := rfl

theorem select_z (old new : VectorRegister V) :
    select 0b0010 old new = { old with z := new.z } := rfl

end VectorRegister

/-- A masked write as one update of its destination. -/
theorem writeMasked_eq {value : LaneFile V → Fin 4 → V} (h : Componentwise value)
    {file : LaneFile V} {new : VectorRegister V} (hnew : ∀ j, value file j = new.get j)
    (destMask : BitVec 4) (dest : RegisterIndex) :
    writeMasked destMask dest value file =
      Function.update file dest (.select destMask (file dest) new) := by
  funext r
  apply VectorRegister.ext_get
  intro j
  rw [writeMasked_get h, Function.update_apply, hnew]
  by_cases hr : r = dest
  · subst hr
    simp only [true_and, if_true, VectorRegister.select_get]
  · simp only [hr, false_and, if_false]

/-- The registers of a lane after an instruction. -/
def runInstruction (alu : Alu V) (file : LaneFile V) (i : Instruction) : LaneFile V :=
  (executeInstructionLane alu (i.opcode.operation alu) i.operands file).1

def runLane (alu : Alu V) (instructions : List Instruction) (file : LaneFile V) : LaneFile V :=
  instructions.foldl (runInstruction alu) file

variable {alu : Alu V}

theorem runLane_append (is1 is2 : List Instruction) (file : LaneFile V) :
    runLane alu (is1 ++ is2) file = runLane alu is2 (runLane alu is1 file) :=
  List.foldl_append

theorem run_unary {opcode : Opcode} {f : V → V} (hop : opcode.operation alu = .unary f)
    (file : LaneFile V) (dest src : RegisterIndex) (destMask : BitVec 4) :
    runInstruction alu file ⟨opcode, .unaryMath dest src destMask⟩ = Function.update file dest
      (.select destMask (file dest)
        ⟨f (file src).x, f (file src).y, f (file src).z, f (file src).w⟩) := by
  unfold runInstruction
  rw [hop]
  refine writeMasked_eq (fun _ _ _ h => congrArg f (h src)) (fun j => ?_) destMask dest
  match j with
  | 0 | 1 | 2 | 3 => rfl

theorem run_binary {opcode : Opcode} {f : V → V → V} (hop : opcode.operation alu = .binary f)
    (file : LaneFile V) (dest src1 src2 : RegisterIndex) (destMask : BitVec 4) :
    runInstruction alu file ⟨opcode, .binaryMath dest src1 src2 destMask⟩ =
      Function.update file dest
        (.select destMask (file dest) (.map₂ f (file src1) (file src2))) := by
  unfold runInstruction
  rw [hop]
  exact writeMasked_eq (fun _ _ _ h => congrArg₂ f (h src1) (h src2))
    (fun j => (VectorRegister.map₂_get f _ _ j).symm) destMask dest

theorem run_binaryVectorScalar {opcode : Opcode} {f : VectorRegister V → VectorRegister V → V}
    (hop : opcode.operation alu = .binaryVectorScalar f) (file : LaneFile V)
    (dest src1 src2 : RegisterIndex) (destMask : BitVec 4) :
    runInstruction alu file ⟨opcode, .binaryMath dest src1 src2 destMask⟩ =
      Function.update file dest
        (.select destMask (file dest) (.replicate (f (file src1) (file src2)))) := by
  have hvalue : Componentwise fun (_ : LaneFile V) (_ : Fin 4) => f (file src1) (file src2) :=
    fun _ _ _ _ => rfl
  unfold runInstruction
  rw [hop]
  refine writeMasked_eq hvalue (fun j => ?_) destMask dest
  match j with
  | 0 | 1 | 2 | 3 => rfl

theorem run_ternary {opcode : Opcode} {f : V → V → V → V} (hop : opcode.operation alu = .ternary f)
    (file : LaneFile V) (dest src1 src2 src3 : RegisterIndex) (destMask : BitVec 4) :
    runInstruction alu file ⟨opcode, .ternaryMath dest src1 src2 src3 destMask⟩ =
      Function.update file dest
        (.select destMask (file dest) (.map₃ f (file src1) (file src2) (file src3))) := by
  have hvalue : Componentwise fun (file : LaneFile V) i =>
      f ((file src1).get i) ((file src2).get i) ((file src3).get i) := by
    intro file file' i h
    simp only [h]
  unfold runInstruction
  rw [hop]
  exact writeMasked_eq hvalue (fun j => (VectorRegister.map₃_get f _ _ _ j).symm) destMask dest

/-- `init` with as many times the same value fills the register. -/
theorem run_init (file : LaneFile V) (dest : RegisterIndex) (value : Dword) {count : Nat}
    (hcount : 1 ≤ count) :
    runInstruction alu file ⟨.init, .unaryMathImm dest 0b1111 (List.replicate count value)⟩ =
      Function.update file dest (.replicate (alu.ofDword value)) := by
  funext r
  apply VectorRegister.ext_get
  intro j
  have hall : selects 0b1111 j = true := by
    match j with
    | 0 | 1 | 2 | 3 => rfl
  show (writeImmediates 0b1111 dest (List.replicate count value).length
    (fun k => alu.ofDword ((List.replicate count value).getD k 0)) (fun _ _ v => v) file r).get j = _
  rw [List.length_replicate, writeImmediates_get hcount (fun _ _ _ _ _ => rfl),
    Function.update_apply]
  by_cases hr : r = dest
  · rw [if_pos ⟨hr, hall⟩, if_pos hr, VectorRegister.replicate_get,
      List.getD_replicate _ (by omega)]
  · rw [if_neg fun h => hr h.1, if_neg hr]

theorem run_init_one (file : LaneFile V) (dest : RegisterIndex) (value : Dword) :
    runInstruction alu file ⟨.init, .unaryMathImm dest 0b1111 [value]⟩ =
      Function.update file dest (.replicate (alu.ofDword value)) :=
  @run_init _ _ file dest value 1 (Nat.le_refl 1)

theorem run_init_four (file : LaneFile V) (dest : RegisterIndex) (value : Dword) :
    runInstruction alu file ⟨.init, .unaryMathImm dest 0b1111 [value, value, value, value]⟩ =
      Function.update file dest (.replicate (alu.ofDword value)) :=
  @run_init _ _ file dest value 4 (by decide)

theorem run_swizzle_z (file : LaneFile V) (dest src : RegisterIndex) :
    runInstruction alu file
        ⟨.swizzle, .swizzle dest src .swizzleZ .swizzleZ .swizzleZ .swizzleZ⟩ =
      Function.update file dest (.replicate (file src).z) := by
  have hz : ∀ r : VectorRegister V,
      r.get (Fin.ofNat 4 SwizzlePatternComponent.swizzleZ.value) = r.z := fun _ => rfl
  -- each assignment leaves the `z` of `src`, or puts the same value there
  have hassign : ∀ (file' : LaneFile V) (i : Fin 4) v, (file' src).z = v →
      ((file'.assign dest i v) src).z = v := by
    intro file' i v hv
    show ((file'.assign dest i v) src).get 2 = v
    rw [LaneFile.get_assign]
    split
    · rfl
    · exact hv
  have h1 := hassign file 0 _ rfl
  have h2 := hassign _ 1 _ h1
  have h3 := hassign _ 2 _ h2
  show writeSwizzle dest src .swizzleZ .swizzleZ .swizzleZ .swizzleZ file = _
  simp only [writeSwizzle, List.foldl_cons, List.foldl_nil, hz, h1, h2, h3]
  funext r
  apply VectorRegister.ext_get
  intro j
  simp only [LaneFile.get_assign, Function.update_apply]
  by_cases hr : r = dest
  · match j with
    | 0 | 1 | 2 | 3 => simp [hr, VectorRegister.get, VectorRegister.replicate]
  · simp only [hr, false_and, if_false]

/-! The instructions that the preamble is made of. -/

@[simp] theorem run_fadd (file : LaneFile V) (dest src1 src2 : RegisterIndex) (mask : BitVec 4) :
    runInstruction alu file ⟨.fadd, .binaryMath dest src1 src2 mask⟩ = Function.update file dest
      (.select mask (file dest) (.map₂ alu.fadd (file src1) (file src2))) :=
  run_binary rfl file dest src1 src2 mask

@[simp] theorem run_fsub (file : LaneFile V) (dest src1 src2 : RegisterIndex) (mask : BitVec 4) :
    runInstruction alu file ⟨.fsub, .binaryMath dest src1 src2 mask⟩ = Function.update file dest
      (.select mask (file dest) (.map₂ alu.fsub (file src1) (file src2))) :=
  run_binary rfl file dest src1 src2 mask

@[simp] theorem run_fmul (file : LaneFile V) (dest src1 src2 : RegisterIndex) (mask : BitVec 4) :
    runInstruction alu file ⟨.fmul, .binaryMath dest src1 src2 mask⟩ = Function.update file dest
      (.select mask (file dest) (.map₂ alu.fmul (file src1) (file src2))) :=
  run_binary rfl file dest src1 src2 mask

@[simp] theorem run_fdiv (file : LaneFile V) (dest src1 src2 : RegisterIndex) (mask : BitVec 4) :
    runInstruction alu file ⟨.fdiv, .binaryMath dest src1 src2 mask⟩ = Function.update file dest
      (.select mask (file dest) (.map₂ alu.fdiv (file src1) (file src2))) :=
  run_binary rfl file dest src1 src2 mask

@[simp] theorem run_fcross2 (file : LaneFile V) (dest src1 src2 : RegisterIndex)
    (mask : BitVec 4) :
    runInstruction alu file ⟨.fcross2, .binaryMath dest src1 src2 mask⟩ = Function.update file dest
      (.select mask (file dest) (.replicate (alu.fcross2 (file src1) (file src2)))) :=
  run_binaryVectorScalar rfl file dest src1 src2 mask

@[simp] theorem run_frcp (file : LaneFile V) (dest src : RegisterIndex) (mask : BitVec 4) :
    runInstruction alu file ⟨.frcp, .unaryMath dest src mask⟩ = Function.update file dest
      (.select mask (file dest) ⟨alu.frcp (file src).x, alu.frcp (file src).y,
        alu.frcp (file src).z, alu.frcp (file src).w⟩) :=
  run_unary rfl file dest src mask

@[simp] theorem run_fmad (file : LaneFile V) (dest src1 src2 src3 : RegisterIndex)
    (mask : BitVec 4) :
    runInstruction alu file ⟨.fmad, .ternaryMath dest src1 src2 src3 mask⟩ =
      Function.update file dest
        (.select mask (file dest) (.map₃ alu.fmad (file src1) (file src2) (file src3))) :=
  run_ternary rfl file dest src1 src2 src3 mask

/-! ## The depth -/

namespace Alu
variable (alu : Alu V) (p a b c : VectorRegister V)

/-- The cross product of the edges from `o` to `p` and from `o` to `q`. -/
def edgesCross (o p q : VectorRegister V) : V :=
  alu.fsub (alu.fmul (alu.fsub p.x o.x) (alu.fsub q.y o.y))
    (alu.fmul (alu.fsub p.y o.y) (alu.fsub q.x o.x))

def weightC : V := alu.fdiv (alu.edgesCross a b p) (alu.edgesCross a b c)

def weightB : V := alu.fdiv (alu.edgesCross a p c) (alu.edgesCross a b c)

def weightA : V :=
  alu.fsub (alu.fsub (alu.ofDword PicoGpuBinary.floatOne) (alu.weightB p a b c))
    (alu.weightC p a b c)

/-- The interpolated `z`, when the position holds `p.z` before. -/
def depth : V :=
  alu.frcp (alu.fadd (alu.fadd (alu.fadd p.z (alu.fdiv (alu.weightA p a b c) a.z))
    (alu.fdiv (alu.weightB p a b c) b.z)) (alu.fdiv (alu.weightC p a b c) c.z))

end Alu

/-- The registers that `depthInstructions` works on. -/
def depthRegisters (regPositionP : RegisterIndex) (r : PicoGpuBinary.InterpolationRegisters) :
    List RegisterIndex :=
  [regPositionP, r.attrib 0 0, r.attrib 1 0, r.attrib 2 0, r.edgeAB, r.edgeAC, r.edgeAP, r.areaABP,
    r.areaACP, r.areaABC]

/-- The weights, each divided by its vertex' `z`, and the depth, in the registers where
    `attributeInstructions` expects them. -/
structure DepthDone (alu : Alu V) (regPositionP : RegisterIndex)
    (r : PicoGpuBinary.InterpolationRegisters) (file file' : LaneFile V)
    (p a b c : VectorRegister V) : Prop where
  position : file' regPositionP = { p with z := alu.depth p a b c }
  depth : file' (r.attrib 0 0) = .replicate (alu.depth p a b c)
  weightA : file' r.areaABC = .replicate (alu.fdiv (alu.weightA p a b c) a.z)
  weightB : file' r.areaACP = .replicate (alu.fdiv (alu.weightB p a b c) b.z)
  weightC : file' r.areaABP = .replicate (alu.fdiv (alu.weightC p a b c) c.z)
  frame : ∀ q ∉ depthRegisters regPositionP r, file' q = file q

theorem run_depth {regPositionP : RegisterIndex} {r : PicoGpuBinary.InterpolationRegisters}
    (hnd : (depthRegisters regPositionP r).Nodup) (file : LaneFile V) :
    DepthDone alu regPositionP r file
      (runLane alu (PicoGpuBinary.depthInstructions regPositionP r) file)
      (file regPositionP) (file (r.attrib 0 0)) (file (r.attrib 1 0)) (file (r.attrib 2 0)) := by
  -- the ten registers by their number, which decides which of them are equal
  obtain ⟨reg, hinj, hp, ha, hb, hc, hab, hac, hap, habp, hacp, habc⟩ :
      ∃ reg : Fin 10 → RegisterIndex, Function.Injective reg ∧ regPositionP = reg 0 ∧
        r.attrib 0 0 = reg 1 ∧ r.attrib 1 0 = reg 2 ∧ r.attrib 2 0 = reg 3 ∧ r.edgeAB = reg 4 ∧
        r.edgeAC = reg 5 ∧ r.edgeAP = reg 6 ∧ r.areaABP = reg 7 ∧ r.areaACP = reg 8 ∧
        r.areaABC = reg 9 :=
    ⟨(depthRegisters regPositionP r).get, List.nodup_iff_injective_get.mp hnd, rfl, rfl, rfl, rfl,
      rfl, rfl, rfl, rfl, rfl, rfl⟩
  refine ⟨?_, ?_, ?_, ?_, ?_, fun q hq => ?_⟩
  case refine_6 =>
    simp only [depthRegisters, hp, ha, hb, hc, hab, hac, hap, habp, hacp, habc, List.mem_cons,
      List.not_mem_nil, or_false, not_or] at hq
    simp only [PicoGpuBinary.depthInstructions, runLane, List.foldl_cons, List.foldl_nil, hp, ha,
      hb, hc, hab, hac, hap, habp, hacp, habc, run_fsub, run_fadd, run_fdiv, run_fcross2, run_frcp,
      run_swizzle_z, run_init_four, Function.update_apply, hq, if_false]
  all_goals
    simp only [PicoGpuBinary.depthInstructions, runLane, List.foldl_cons, List.foldl_nil, hp, ha,
      hb, hc, hab, hac, hap, habp, hacp, habc, run_fsub, run_fadd, run_fdiv, run_fcross2, run_frcp,
      run_swizzle_z, run_init_four, VectorRegister.select_xyzw, VectorRegister.select_xy,
      VectorRegister.select_z, VectorRegister.map₂, VectorRegister.replicate, Alu.fcross2,
      Function.update_apply, hinj.eq_iff, Fin.reduceEq, if_true, if_false]
    rfl

/-! ## An attribute -/

/-- The registers that `attributeInstructions` reads, beside its destination. -/
def attributeSources (r : PicoGpuBinary.InterpolationRegisters) (i : Nat) : List RegisterIndex :=
  [r.areaABC, r.areaACP, r.areaABP, r.attrib 0 i, r.attrib 1 i, r.attrib 2 i, r.attrib 0 0]

/-- The interpolated component: the products of the weights and the attributes, added up
    from zero, times the depth. -/
def Alu.interpolated (alu : Alu V) (weightA weightB weightC depth a b c : V) : V :=
  alu.fmul (alu.fmad weightC c (alu.fmad weightB b (alu.fmad weightA a (alu.ofDword 0)))) depth

theorem run_attribute {input : InputOutputRegister} {r : PicoGpuBinary.InterpolationRegisters}
    {i : Nat} (hdst : input.index ∉ attributeSources r i) (file : LaneFile V) :
    (∀ q ≠ input.index,
      runLane alu (PicoGpuBinary.attributeInstructions input r i) file q = file q) ∧
    ∀ j, (runLane alu (PicoGpuBinary.attributeInstructions input r i) file input.index).get j =
      if selects input.mask j then
        alu.interpolated ((file r.areaABC).get j) ((file r.areaACP).get j)
          ((file r.areaABP).get j) ((file (r.attrib 0 0)).get j) ((file (r.attrib 0 i)).get j)
          ((file (r.attrib 1 i)).get j) ((file (r.attrib 2 i)).get j)
      else alu.fmul (alu.ofDword 0) ((file (r.attrib 0 0)).get j) := by
  have hne : ∀ q ∈ attributeSources r i, q ≠ input.index := fun q hq h => hdst (h ▸ hq)
  simp only [attributeSources, List.forall_mem_cons] at hne
  obtain ⟨hwa, hwb, hwc, ha, hb, hc, hz, -⟩ := hne
  refine ⟨fun q hq => ?_, fun j => ?_⟩
  · simp only [PicoGpuBinary.attributeInstructions, runLane, List.foldl_cons, List.foldl_nil,
      run_init_one, run_fmad, run_fmul, Function.update_apply, hq, if_false]
  · simp only [PicoGpuBinary.attributeInstructions, runLane, List.foldl_cons, List.foldl_nil,
      run_init_one, run_fmad, run_fmul, Function.update_self, Function.update_apply, hwa, hwb, hwc,
      ha, hb, hc, hz, if_false, VectorRegister.select_xyzw, VectorRegister.map₂_get,
      VectorRegister.map₃_get, VectorRegister.select_get, VectorRegister.replicate_get]
    cases selects input.mask j <;> rfl

end

/-! ## Over a field -/

section
variable {K : Type} [Field K] {alu : Alu K}

/-- The float operations are those of a field, as far as no divisor is zero. -/
structure Alu.Exact (alu : Alu K) : Prop where
  zero : alu.zero = 0
  one : alu.one = 1
  ofDword_zero : alu.ofDword 0 = 0
  ofDword_one : alu.ofDword PicoGpuBinary.floatOne = 1
  fadd : ∀ a b, alu.fadd a b = a + b
  fsub : ∀ a b, alu.fsub a b = a - b
  fmul : ∀ a b, alu.fmul a b = a * b
  fdiv : ∀ a b, b ≠ 0 → alu.fdiv a b = a / b

/-- Twice the signed area of a triangle in the plane. -/
def doubleArea (a b c : VectorRegister K) : K :=
  (b.x - a.x) * (c.y - a.y) - (b.y - a.y) * (c.x - a.x)

/-- The barycentric weights of a point with respect to a triangle. -/
structure Barycentric (p a b c : VectorRegister K) (wA wB wC : K) : Prop where
  sum : wA + wB + wC = 1
  x : wA * a.x + wB * b.x + wC * c.x = p.x
  y : wA * a.y + wB * b.y + wC * c.y = p.y

variable {p a b c : VectorRegister K} {wA wB wC : K}

theorem Alu.Exact.edgesCross (h : alu.Exact) (o p q : VectorRegister K) :
    alu.edgesCross o p q = doubleArea o p q := by
  unfold Alu.edgesCross doubleArea
  simp only [h.fsub, h.fmul]

/-- With the point for one vertex the area is multiplied by the weight of this vertex. -/
theorem Barycentric.doubleArea_c (h : Barycentric p a b c wA wB wC) :
    doubleArea a b p = wC * doubleArea a b c := by
  have hA : wA = 1 - wB - wC := by rw [← h.sum]; ring
  unfold doubleArea
  rw [← h.x, ← h.y, hA]
  ring

theorem Barycentric.doubleArea_b (h : Barycentric p a b c wA wB wC) :
    doubleArea a p c = wB * doubleArea a b c := by
  have hA : wA = 1 - wB - wC := by rw [← h.sum]; ring
  unfold doubleArea
  rw [← h.x, ← h.y, hA]
  ring

theorem Alu.Exact.weightC (h : alu.Exact) (harea : doubleArea a b c ≠ 0)
    (hw : Barycentric p a b c wA wB wC) : alu.weightC p a b c = wC := by
  unfold Alu.weightC
  rw [h.edgesCross, h.edgesCross, h.fdiv _ _ harea, hw.doubleArea_c, mul_div_cancel_right₀ _ harea]

theorem Alu.Exact.weightB (h : alu.Exact) (harea : doubleArea a b c ≠ 0)
    (hw : Barycentric p a b c wA wB wC) : alu.weightB p a b c = wB := by
  unfold Alu.weightB
  rw [h.edgesCross, h.edgesCross, h.fdiv _ _ harea, hw.doubleArea_b, mul_div_cancel_right₀ _ harea]

theorem Alu.Exact.weightA (h : alu.Exact) (harea : doubleArea a b c ≠ 0)
    (hw : Barycentric p a b c wA wB wC) : alu.weightA p a b c = wA := by
  unfold Alu.weightA
  rw [h.weightB harea hw, h.weightC harea hw, h.ofDword_one, h.fsub, h.fsub, ← hw.sum]
  ring

/-- The sum whose reciprocal is the depth. -/
def reciprocalDepth (a b c : VectorRegister K) (wA wB wC : K) : K := wA / a.z + wB / b.z + wC / c.z

/-- No divisor of the preamble is zero. -/
structure Divisible (a b c : VectorRegister K) (wA wB wC : K) : Prop where
  area : doubleArea a b c ≠ 0
  zA : a.z ≠ 0
  zB : b.z ≠ 0
  zC : c.z ≠ 0
  depth : reciprocalDepth a b c wA wB wC ≠ 0

theorem Alu.Exact.depth (h : alu.Exact) (hw : Barycentric p a b c wA wB wC)
    (hd : Divisible a b c wA wB wC) (hp : p.z = 0) :
    alu.depth p a b c = 1 / reciprocalDepth a b c wA wB wC := by
  unfold Alu.depth Alu.frcp
  rw [h.weightA hd.area hw, h.weightB hd.area hw, h.weightC hd.area hw, h.fdiv _ _ hd.zA,
    h.fdiv _ _ hd.zB, h.fdiv _ _ hd.zC, hp, h.fadd, h.fadd, h.fadd, zero_add, h.one]
  exact h.fdiv _ _ hd.depth

theorem Alu.Exact.interpolated (h : alu.Exact) (weightA weightB weightC depth a b c : K) :
    alu.interpolated weightA weightB weightC depth a b c =
      depth * (weightA * a + weightB * b + weightC * c) := by
  unfold Alu.interpolated Alu.fmad
  simp only [h.fmul, h.fadd, h.ofDword_zero]
  ring

end

end PicoGpu
