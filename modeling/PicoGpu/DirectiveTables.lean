import PicoGpu.Compatibility
import PicoGpu.Preamble
import PicoGpu.RegisterSetup

/- The tables that the directives of registers fill. Each keeps three views of the
   registers it collected: a list, a count and a mask of their indices. The compiler
   allocates from the mask, the shader unit rebuilds one from the list and the count
   that it finds in the header, and both have to get the same registers. -/
namespace PicoGpu

/-! ## One table -/

/-- The three views agree, and what is not in use is as it was at first. -/
structure InputOutputRegisters.Consistent (io : InputOutputRegisters) : Prop where
  count : io.usedRegsCount ≤ 3
  distinct : ∀ i j : Fin 3, i.val < io.usedRegsCount → j.val < io.usedRegsCount →
    (io.regs i).index = (io.regs j).index → i = j
  bits : ∀ bit, isBitSet io.usedRegsMask bit = true ↔
    ∃ i : Fin 3, i.val < io.usedRegsCount ∧ (io.regs i).index.val = bit
  components : ∀ i : Fin 3, i.val < io.usedRegsCount →
    (io.regs i).componentsCount = countBits (io.regs i).mask ∧
      (io.regs i).mask.setWidth 32 ∈ prefixMasks ∧
      1 ≤ (io.regs i).componentsCount ∧ (io.regs i).componentsCount ≤ 4
  untouched : ∀ i : Fin 3, io.usedRegsCount ≤ i.val →
    io.regs i = InputOutputRegisters.zero.regs i

theorem prefixMask_narrow {mask : Dword} (h : mask ∈ prefixMasks) :
    (mask.setWidth 4).setWidth 32 = mask ∧ countBits (mask.setWidth 4) = countBits mask := by
  simp only [prefixMasks, List.mem_cons, List.not_mem_nil, or_false] at h
  rcases h with rfl | rfl | rfl | rfl <;> decide

theorem isBitSet_ge {width bit : Nat} (bits : BitVec width) (h : width ≤ bit) :
    isBitSet bits bit = false := BitVec.getLsbD_of_ge bits bit h

namespace InputOutputRegisters

theorem consistent_zero : zero.Consistent where
  count := Nat.zero_le _
  distinct := fun _ _ hi => absurd hi (Nat.not_lt_zero _)
  bits := fun bit => by
    have hclear : isBitSet zero.usedRegsMask bit = false := BitVec.getLsbD_zero
    rw [hclear]
    exact ⟨fun h => (nomatch h), fun ⟨_, hi, _⟩ => absurd hi (Nat.not_lt_zero _)⟩
  components := fun _ hi => absurd hi (Nat.not_lt_zero _)
  untouched := fun _ _ => rfl

section
variable {io : InputOutputRegisters} {register : RegisterIndex × Dword}

/-- The registers that were there stay where they were. -/
theorem add_regs_of_ne {i : Fin 3} (hcount : io.usedRegsCount < 3) (hi : i.val ≠ io.usedRegsCount) :
    (io.add register).regs i = io.regs i := by
  refine Function.update_of_ne ?_ _ _
  rintro rfl
  exact hi (Nat.mod_eq_of_lt hcount)

theorem add_regs_self {i : Fin 3} (hi : i.val = io.usedRegsCount) :
    (io.add register).regs i =
      ⟨register.1, .custom, register.2.setWidth 4, countBits register.2⟩ := by
  have heq : Fin.ofNat 3 io.usedRegsCount = i := Fin.ext (by
    show io.usedRegsCount % 3 = i.val
    rw [← hi, Nat.mod_eq_of_lt i.isLt])
  show Function.update io.regs (Fin.ofNat 3 io.usedRegsCount) _ i = _
  rw [heq, Function.update_self]

/-- A register that is free and whose components are in order can be added. -/
theorem Consistent.add (h : io.Consistent) (hmask : register.2 ∈ prefixMasks)
    (hfree : isBitSet io.usedRegsMask register.1 = false) (hcount : io.usedRegsCount < 3) :
    (io.add register).Consistent := by
  have hused : (io.add register).usedRegsCount = io.usedRegsCount + 1 := rfl
  have hold : ∀ i : Fin 3, i.val < io.usedRegsCount → (io.add register).regs i = io.regs i :=
    fun i hi => add_regs_of_ne hcount (Nat.ne_of_lt hi)
  have hother : ∀ i : Fin 3, i.val < io.usedRegsCount → (io.regs i).index ≠ register.1 := by
    intro i hi hsame
    have hset := (h.bits register.1.val).mpr ⟨i, hi, congrArg Fin.val hsame⟩
    rw [hfree] at hset
    exact nomatch hset
  have hlast : ∀ i : Fin 3, i.val < io.usedRegsCount + 1 → ¬ i.val < io.usedRegsCount →
      i.val = io.usedRegsCount := fun i hi hlt => by omega
  refine ⟨by omega, fun i j hi hj hij => ?_, fun bit => ?_, fun i hi => ?_, fun i hi => ?_⟩
  · rw [hused] at hi hj
    by_cases hio : i.val < io.usedRegsCount <;> by_cases hjo : j.val < io.usedRegsCount
    · rw [hold i hio, hold j hjo] at hij
      exact h.distinct i j hio hjo hij
    · rw [hold i hio, add_regs_self (hlast j hj hjo)] at hij
      exact absurd hij (hother i hio)
    · rw [hold j hjo, add_regs_self (hlast i hi hio)] at hij
      exact absurd hij.symm (hother j hjo)
    · exact Fin.ext ((hlast i hi hio).trans (hlast j hj hjo).symm)
  · show isBitSet (setBit io.usedRegsMask register.1.val) bit = true ↔ _
    by_cases hbit : bit < 16
    · rw [RegisterAllocator.isBitSet_setBit _ _ hbit, Bool.or_eq_true, decide_eq_true_eq, h.bits]
      constructor
      · rintro (⟨i, hi, hindex⟩ | rfl)
        · exact ⟨i, by omega, by rw [hold i hi]; exact hindex⟩
        · exact ⟨⟨io.usedRegsCount, hcount⟩, Nat.lt_succ_self _, by rw [add_regs_self rfl]⟩
      · rintro ⟨i, hi, hindex⟩
        rw [hused] at hi
        by_cases hio : i.val < io.usedRegsCount
        · rw [hold i hio] at hindex
          exact .inl ⟨i, hio, hindex⟩
        · rw [add_regs_self (hlast i hi hio)] at hindex
          exact .inr hindex.symm
    · rw [isBitSet_ge _ (Nat.le_of_not_lt hbit)]
      refine ⟨fun hset => (nomatch hset), ?_⟩
      rintro ⟨i, -, rfl⟩
      exact absurd ((io.add register).regs i).index.isLt hbit
  · rw [hused] at hi
    by_cases hio : i.val < io.usedRegsCount
    · rw [hold i hio]
      exact h.components i hio
    · rw [add_regs_self (hlast i hi hio)]
      obtain ⟨hwide, hnarrow⟩ := prefixMask_narrow hmask
      exact ⟨hnarrow.symm, by rw [hwide]; exact hmask, prefixMask_count hmask⟩
  · rw [hused] at hi
    rw [add_regs_of_ne hcount (by omega)]
    exact h.untouched i (by omega)

end

end InputOutputRegisters

/-! ## Sequences of directives -/

/-- A directive for a register, with any components at all. -/
structure RegisterDirective where
  reg : RegisterIndex
  mask : Dword
  ioType : IoType
  nonzero : mask ≠ 0
  fourBits : mask &&& ~~~0b1111 = 0

namespace RegisterDirective

def perform (d : RegisterDirective) (b : PicoGpuBinary) : Except FatalError PicoGpuBinary :=
  b.encodeDirectiveInputOutput d.reg d.mask d.ioType

def performAll (directives : List RegisterDirective) (b : PicoGpuBinary) :
    Except FatalError PicoGpuBinary :=
  directives.foldlM (fun b d => d.perform b) b

/-- Neither fatal check can fire. -/
theorem perform_total (d : RegisterDirective) (b : PicoGpuBinary) :
    ∃ b', d.perform b = .ok b' := by
  unfold perform PicoGpuBinary.encodeDirectiveInputOutput
  simp only [d.nonzero, d.fourBits, if_false, ne_eq, not_true_eq_false]
  repeat' split
  all_goals exact ⟨_, rfl⟩

end RegisterDirective

/-- The three tables of a binary. -/
def PicoGpuBinary.TablesConsistent (b : PicoGpuBinary) : Prop :=
  ∀ ioType, (b.getIoRegisters ioType).Consistent

theorem getIoRegisters_addError (b : PicoGpuBinary) (text : String) (ioType : IoType) :
    (b.addError text).getIoRegisters ioType = b.getIoRegisters ioType := by
  cases ioType <;> rfl

theorem error_setIoRegisters (b : PicoGpuBinary) (io : InputOutputRegisters) (ioType : IoType) :
    (b.setIoRegisters io ioType).error = b.error := by
  cases ioType <;> rfl

namespace RegisterDirective

/-- A directive reports an error and leaves the tables, or adds one register to the table
    of its kind. -/
theorem perform_tables {d : RegisterDirective} {b b' : PicoGpuBinary} (h : d.perform b = .ok b') :
    (b'.error ≠ b.error ∧ ∀ ioType, b'.getIoRegisters ioType = b.getIoRegisters ioType) ∨
      b'.error = b.error ∧ d.mask ∈ prefixMasks ∧
        isBitSet (b.getIoRegisters d.ioType).usedRegsMask d.reg = false ∧
        (b.getIoRegisters d.ioType).usedRegsCount ≠ Isa.maxInputOutputRegisters ∧
        ∀ ioType, b'.getIoRegisters ioType = if ioType = d.ioType then
          (b.getIoRegisters d.ioType).add (d.reg, d.mask) else b.getIoRegisters ioType := by
  rcases PicoGpuBinary.encodeDirectiveInputOutput_inv h with ⟨text, htext, rfl⟩ |
    ⟨hmask, hfree, hmax, rfl⟩
  · refine .inl ⟨fun hsame => htext ?_, getIoRegisters_addError b text⟩
    have hlength : (b.error ++ text).length = b.error.length := congrArg String.length hsame
    rw [String.length_append] at hlength
    exact String.length_eq_zero_iff.mp (by omega)
  · refine .inr ⟨error_setIoRegisters b _ _, ?_, hfree, hmax, fun ioType => ?_⟩
    · simpa only [prefixMasks, List.mem_cons, List.not_mem_nil, or_false] using hmask
    · exact getIoRegisters_set b _ d.ioType ioType

theorem perform_consistent {d : RegisterDirective} {b b' : PicoGpuBinary}
    (h : d.perform b = .ok b') (hb : b.TablesConsistent) : b'.TablesConsistent := by
  intro ioType
  rcases perform_tables h with ⟨-, hsame⟩ | ⟨-, hmask, hfree, hmax, hadd⟩
  · rw [hsame]
    exact hb ioType
  · rw [hadd]
    split
    · exact (hb d.ioType).add hmask hfree (Nat.lt_of_le_of_ne (hb d.ioType).count hmax)
    · exact hb ioType

/-- **Whatever the directives are, the tables stay consistent, and a directive that reports
    an error changes none of them.** -/
theorem directiveTables_consistent (directives : List RegisterDirective) :
    ∃ b, performAll directives .new = .ok b ∧ b.TablesConsistent ∧
      ∀ d : RegisterDirective, ∃ b', d.perform b = .ok b' ∧
        (b'.error ≠ b.error → ∀ ioType, b'.getIoRegisters ioType = b.getIoRegisters ioType) := by
  obtain ⟨b, hb⟩ := foldlM_ok (s := PicoGpuBinary.new) fun d (_ : d ∈ directives) b =>
    d.perform_total b
  refine ⟨b, hb, ?_, fun d => ?_⟩
  · have hnew : PicoGpuBinary.new.TablesConsistent := by
      intro ioType
      cases ioType <;> exact InputOutputRegisters.consistent_zero
    exact @foldlM_inv _ _ _ _ (fun _ b => b.TablesConsistent)
      (fun hs h => perform_consistent h hs) directives [] _ _ hnew hb
  · obtain ⟨b', h'⟩ := d.perform_total b
    refine ⟨b', h', fun herror => ?_⟩
    rcases perform_tables h' with ⟨-, hsame⟩ | ⟨hclean, -⟩
    · exact hsame
    · exact absurd hclean herror

end RegisterDirective

/-! ## Allocation -/

open PicoGpuBinary

theorem finalizeDirectives_position {b b' : PicoGpuBinary}
    (htype : b.programType = some .fragmentShader) (h : b.finalizeDirectives = .ok b')
    (hclean : b'.error = "") :
    b.inputs.usedRegsCount ≠ 0 ∧ b'.inputs = b.inputs.withPosition := by
  obtain ⟨programType, b1, b2, code, hsome, h1, h2, rfl, hclean1, hclean2⟩ :=
    finalizeDirectives_clean h hclean
  rw [htype] at hsome
  cases hsome
  obtain ⟨hpos, -, hb1⟩ := finalizePosition_clean
    (.inr ⟨rfl, by simp [isFs, storeProgramType, htype]⟩) h1 hclean1
  have hin1 : b1.inputs = b.inputs.withPosition := by rw [hb1]; rfl
  have htype1 : b1.programType = some .fragmentShader := by rw [hb1]; exact htype
  obtain ⟨-, -, -, rfl⟩ := finalizeOutput_fragmentClean htype1 h2 hclean2
  exact ⟨hpos, hin1⟩

theorem finalizeDirectives_inputs {directives : List Directive} {b b' : PicoGpuBinary}
    (hb : Declared directives b) (htype : b.programType = some .fragmentShader)
    (h : b.finalizeDirectives = .ok b') (hclean : b'.error = "") :
    ∃ inputs, Collectable inputs ∧ 1 ≤ inputs.length ∧
      b'.inputs = (collected inputs).withPosition := by
  obtain ⟨hpos, hinputs⟩ := finalizeDirectives_position htype h hclean
  have hin : b.inputs = _ := hb.registers .input
  rw [hin, collected_count] at hpos
  exact ⟨_, hb.collectable .input, Nat.pos_of_ne_zero hpos, by rw [hinputs, hin]⟩

/-- The table of inputs of an accepted fragment shader. -/
theorem Program.parse_inputs {p : Program} {b : PicoGpuBinary} (h : p.parse .new = .ok b)
    (hfs : b.programType = some .fragmentShader) :
    ∃ inputs, Collectable inputs ∧ 1 ≤ inputs.length ∧
      b.inputs = (collected inputs).withPosition := by
  obtain ⟨b1, h1, h⟩ := bind_ok.mp h
  obtain ⟨b2, h2, h3⟩ := Program.parseInstructions_ok h
  obtain ⟨b0, hb0, hfinalize, hclean, programType, hsome⟩ := parseDirectives_declared h1
  have hfit0 : b0.CountsFit :=
    ⟨fun ioType => by
      rw [hb0.registers, collected_count]
      exact (hb0.collectable ioType).count, by rw [hb0.header]; exact Nat.zero_le _,
      by rw [hb0.header]; decide⟩
  obtain ⟨-, -, -, htype1, -⟩ := finalizeDirectives_ok hfinalize hfit0
  obtain ⟨code, programLength, hframe⟩ := instructionSection_frame h2 h3
  have htype0 : b0.programType = some .fragmentShader := by
    rw [hframe] at hfs
    exact htype1.symm.trans hfs
  obtain ⟨inputs, hcollectable, hpos, hinputs⟩ :=
    finalizeDirectives_inputs hb0 htype0 hfinalize hclean
  exact ⟨inputs, hcollectable, hpos, by rw [hframe, hinputs]⟩

/-- The mask that the shader unit rebuilds from the header is the one of the compiler. -/
theorem ofIsaMetadata_parsed {p : Program} {b : PicoGpuBinary} (h : p.parse .new = .ok b)
    (hfs : b.programType = some .fragmentShader) :
    RegisterAllocator.ofIsaMetadata b.header = .ofMask b.inputs.usedRegsMask := by
  obtain ⟨inputs, hcollectable, hpos, hinputs⟩ := Program.parse_inputs h hfs
  obtain ⟨program, hparsed⟩ := Program.parse_parsed h
  have hcount := hparsed.accepted.inputsCount
  have hfields := hparsed.accepted.inputs
  rw [hinputs] at hcount hfields
  rw [show (collected inputs).withPosition.usedRegsCount = inputs.length from
    collected_count inputs] at hcount
  rw [ofIsaMetadata_collected hcollectable hpos hfields hcount, hinputs]
  rfl

namespace RegisterAllocator

theorem free_val (mask : BitVec 16) : (ofMask mask).free.map Fin.val = clearBits mask 0 := by
  show ((clearBits mask 0).map (Fin.ofNat 16)).map Fin.val = _
  rw [List.map_map]
  calc (clearBits mask 0).map (Fin.val ∘ Fin.ofNat 16) = (clearBits mask 0).map id :=
        List.map_congr_left fun x hx => Nat.mod_eq_of_lt (mem_clearBits.mp hx).1
    _ = clearBits mask 0 := List.map_id _

theorem clearBits_increasing (mask : BitVec 16) : (clearBits mask 0).Pairwise (· < ·) :=
  List.Pairwise.filter _ List.pairwise_lt_range'

/-- The calls return the lowest clear bits of the mask. -/
theorem allocateMany_lowest (mask : BitVec 16) {n : Nat} (hn : n ≤ (clearBits mask 0).length) :
    ∃ indices a, (ofMask mask).allocateMany n = .ok (indices, a) ∧
      indices.map Fin.val = (clearBits mask 0).take n ∧
      (indices.map Fin.val).Pairwise (· < ·) ∧ indices.Nodup ∧
      ∀ r ∈ indices, isBitSet mask r.val = false := by
  have hlength : n ≤ (ofMask mask).free.length := by
    rw [← free_val, List.length_map] at hn
    exact hn
  obtain ⟨a, ha, -⟩ := allocateMany_ok n (show (ofMask mask).startRegisterToAllocate ≤ 16 from
    Nat.zero_le _) hlength
  have htake : ((ofMask mask).free.take n).map Fin.val = (clearBits mask 0).take n := by
    rw [List.map_take, free_val]
  refine ⟨_, a, ha, htake, ?_, (free_nodup mask).sublist (List.take_sublist _ _), ?_⟩
  · rw [htake]
    exact (clearBits_increasing mask).sublist (List.take_sublist _ _)
  · intro r hr
    exact mem_free.mp (List.mem_of_mem_take hr)

/-- **The compiler and the shader unit allocate the same registers of an accepted fragment
    shader, and they are the lowest ones that the mask leaves.** -/
theorem allocations_agree :
    (∀ {p : Program} {b : PicoGpuBinary}, p.parse .new = .ok b →
      b.programType = some .fragmentShader →
      ∀ count, (ofMask b.inputs.usedRegsMask).allocateMany count =
        (ofIsaMetadata b.header).allocateMany count) ∧
    ∀ (mask : BitVec 16) (n : Nat), n ≤ (clearBits mask 0).length →
      ∃ indices a, (ofMask mask).allocateMany n = .ok (indices, a) ∧
        indices.map Fin.val = (clearBits mask 0).take n ∧
        (indices.map Fin.val).Pairwise (· < ·) ∧ indices.Nodup ∧
        ∀ r ∈ indices, isBitSet mask r.val = false := by
  refine ⟨fun h hfs count => ?_, fun mask n hn => allocateMany_lowest mask hn⟩
  rw [ofIsaMetadata_parsed h hfs]

theorem two_inputs_agree : (twoFragmentInputs.parse .new).toOption.isSome = true ∧
    (ofMask parsedTwoInputs.inputs.usedRegsMask).allocateMany 5 =
      (ofIsaMetadata parsedTwoInputs.header).allocateMany 5 ∧
    ∃ indices a, (ofMask 0b0110).allocateMany 3 = .ok (indices, a) ∧
      indices.map Fin.val = [0, 3, 4] := by
  obtain ⟨indices, a, h, hval, -⟩ := allocations_agree.2 0b0110 3 (by decide)
  exact ⟨rfl, allocations_agree.1 (p := twoFragmentInputs) rfl rfl 5, indices, a, h, hval⟩

end RegisterAllocator

end PicoGpu
