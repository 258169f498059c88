import PicoGpu.SectionRules

/- What becomes of an instruction section. The action of an instruction ends the parse at a
   mask that names a component twice, aborts the simulation where the code gets too long, and
   appends the instruction otherwise. -/
namespace PicoGpu
open PicoGpuBinary

/-! ## One instruction -/

/-- The mask names a component twice. -/
def DstReg.repeats : DstReg → Bool
  | reg _ => false
  | masked _ m => hasDuplicates m.components

namespace SourceInstruction

def dst? : SourceInstruction → Option DstReg
  | fadd dst _ _ | fsub dst _ _ | fmul dst _ _ | fdiv dst _ _ | fdot dst _ _ | fcross2 dst _ _ => dst
  | fadd_imm dst _ _ | fsub_imm dst _ _ | fmul_imm dst _ _ | fdiv_imm dst _ _ => dst
  | fneg dst _ | frcp dst _ | fnorm dst _ | fmax dst _ _ | fmin dst _ _ | fmad dst _ _ _ => dst
  | iadd dst _ _ | isub dst _ _ | imul dst _ _ | idiv dst _ _ | imax dst _ _ | imin dst _ _ => dst
  | iadd_imm dst _ _ | isub_imm dst _ _ | imul_imm dst _ _ | idiv_imm dst _ _ => dst
  | ineg dst _ | mov dst _ | finit dst _ | iinit dst _ => dst
  | fcross _ _ _ | swizzle _ _ _ _ _ _ | trap => none

def repeats (s : SourceInstruction) : Bool := s.dst?.any DstReg.repeats

/-- The dwords of the instruction. -/
def size (s : SourceInstruction) : Nat := s.written.dwords.length

end SourceInstruction

theorem size_encoded (s : SourceInstruction) : s.encoded.dwords.length = s.size := by
  cases s <;> rfl

theorem size_le (s : SourceInstruction) : s.size ≤ 5 := by
  cases s
  case finit dst imms | iinit dst imms => cases imms <;> exact Nat.le_of_ble_eq_true rfl
  all_goals exact Nat.le_of_ble_eq_true rfl

theorem dstReg_repeats (dst : DstReg) : if dst.repeats then
    dst.action = .error (.yyabort "duplicate components in dst register mask")
    else ∃ d, dst.action = .ok d := by
  cases dst with
  | reg r => exact ⟨_, rfl⟩
  | masked r m =>
    show if hasDuplicates m.components then (m.action >>= _) = _ else ∃ d, (m.action >>= _) = .ok d
    unfold RegMask.action
    split
    · rfl
    · exact ⟨_, rfl⟩

theorem withDst_eq (dst : DstReg)
    (f : RegisterIndex → BitVec 4 → PicoGpuBinary → Except FatalError PicoGpuBinary)
    (b : PicoGpuBinary) : SourceInstruction.withDst dst f b =
      if dst.repeats then .error (.yyabort "duplicate components in dst register mask")
      else calling (f dst.register dst.mask b) := by
  have haction := dstReg_repeats dst
  unfold SourceInstruction.withDst
  split
  · next hrepeats =>
    rw [if_pos hrepeats] at haction
    rw [haction]
    rfl
  · next hrepeats =>
    rw [if_neg hrepeats] at haction
    obtain ⟨d, hd⟩ := haction
    obtain ⟨hreg, hmask⟩ := dstReg_action hd
    rw [hd, ← hreg, ← hmask]
    rfl

/-- The action of an instruction. -/
theorem action_eq (s : SourceInstruction) (b : PicoGpuBinary) : s.action b =
    if s.repeats then .error (.yyabort "duplicate components in dst register mask")
    else calling (encode s.encoded b) := by
  cases s <;> simp only [SourceInstruction.action]
  case fcross | swizzle | trap => rfl
  case finit =>
    rw [withDst_eq, toVector_action]
    rfl
  case iinit =>
    rw [withDst_eq, toVector_action, List.map_id]
    rfl
  all_goals
    rw [withDst_eq]
    rfl

/-- Where there is no room the simulation is aborted. -/
theorem append_eq (b : PicoGpuBinary) (dwords : List Dword) : b.append dwords =
    if b.code.length + dwords.length < Isa.maxIsaSize then .ok { b with code := b.code ++ dwords }
    else .error "Too long program" := by
  split
  · next hlt => exact append_total hlt
  · next hge =>
    unfold append
    rw [if_pos]
    simp only [getData, List.length_append, CommandStoreIsa.raw_length, Isa.commandSizeInDwords]
    omega

theorem encode_append {i : Instruction} (hfit : i.operands.ImmediatesFit) (b : PicoGpuBinary) :
    encode i b = b.append i.dwords := by
  obtain ⟨opcode, operands⟩ := i
  cases operands with
  | unaryMathImm dest destMask imms =>
    simp only [encode, encodeUnaryMathImm]
    rw [if_neg (by simpa using List.length_pos_iff.mp hfit.1), if_neg (Nat.not_lt.mpr hfit.2)]
  | binaryMathImm dest src destMask imms =>
    simp only [encode, encodeBinaryMathImm]
    rw [if_neg (by simpa using List.length_pos_iff.mp hfit.1), if_neg (Nat.not_lt.mpr hfit.2)]
  | _ => rfl

theorem encoded_fit (s : SourceInstruction) : s.encoded.operands.ImmediatesFit := by
  cases s with
  | fmad => trivial
  | _ => exact written_fit _

/-- An instruction that repeats no component. -/
theorem action_fits {s : SourceInstruction} (hs : s.repeats = false) (b : PicoGpuBinary) :
    s.action b = if b.code.length + s.size < Isa.maxIsaSize then
      .ok { b with code := b.code ++ s.encoded.dwords } else .error (.fatal "Too long program") := by
  rw [action_eq, hs, if_neg nofun, encode_append (encoded_fit s), append_eq, size_encoded]
  split <;> rfl

/-! ## The section -/

/-- The dwords of instructions. -/
def sizes (ss : List SourceInstruction) : Nat := (ss.map SourceInstruction.size).sum

theorem sizes_concat (ss : List SourceInstruction) (s : SourceInstruction) :
    sizes (ss ++ [s]) = sizes ss + s.size := by
  unfold sizes
  rw [List.map_append, List.sum_append]
  rfl

theorem actions_eq {ss : List SourceInstruction} (hss : ∀ s ∈ ss, s.repeats = false)
    {b : PicoGpuBinary} (hb : b.code.length < Isa.maxIsaSize) :
    ss.foldlM (fun b s => s.action b) b = if b.code.length + sizes ss < Isa.maxIsaSize then
      .ok { b with code := b.code ++ ss.flatMap fun s => s.encoded.dwords }
    else .error (.fatal "Too long program") := by
  induction ss generalizing b with
  | nil =>
    have hnil : b.code.length + sizes [] < Isa.maxIsaSize := hb
    rw [if_pos hnil, List.flatMap_nil, List.append_nil]
    rfl
  | cons s ss ih =>
    have hsizes : sizes (s :: ss) = s.size + sizes ss := rfl
    rw [List.foldlM_cons, action_fits (hss s List.mem_cons_self), hsizes]
    split
    · next hfits =>
      have hlength : (b.code ++ s.encoded.dwords).length = b.code.length + s.size := by
        rw [List.length_append, size_encoded]
      show ss.foldlM _ { b with code := b.code ++ s.encoded.dwords } = _
      rw [ih (fun s' hs' => hss s' (List.mem_cons_of_mem _ hs')) (by rw [hlength]; exact hfits),
        hlength, Nat.add_assoc, List.flatMap_cons, List.append_assoc]
    · rw [if_neg (by omega)]
      rfl

theorem length_encoded (ss : List SourceInstruction) :
    (ss.flatMap fun s => s.encoded.dwords).length = sizes ss := by
  induction ss with
  | nil => rfl
  | cons s ss ih =>
    rw [List.flatMap_cons, List.length_append, ih, size_encoded]
    rfl

/-- The dwords that the end of the section adds. -/
def exportSize : ProgramType → Nat
  | .vertexShader => 0
  | .fragmentShader => 1

theorem finalizeInstructions_eq {b : PicoGpuBinary} {programType : ProgramType}
    (htype : b.programType = some programType) (hb : b.code.length < Isa.maxIsaSize) :
    if b.code.length + exportSize programType < Isa.maxIsaSize then
      ∃ b', b.finalizeInstructions = .ok b' ∧ b'.error = b.error
    else b.finalizeInstructions = .error "Too long program" := by
  cases programType with
  | vertexShader =>
    have hfits : b.code.length + exportSize .vertexShader < Isa.maxIsaSize := hb
    rw [if_pos hfits]
    unfold finalizeInstructions
    rw [htype]
    exact ⟨_, rfl, rfl⟩
  | fragmentShader =>
    obtain ⟨dwords, hlength, hencode⟩ : ∃ dwords : List Dword, dwords.length = 1 ∧
        encodeSwizzle .swizzle (b.inputs.regs 0).index (b.inputs.regs 0).index .swizzleZ .swizzleZ
          .swizzleZ .swizzleZ b = b.append dwords := ⟨_, rfl, rfl⟩
    have hone : exportSize .fragmentShader = 1 := rfl
    unfold finalizeInstructions
    rw [htype, hone]
    dsimp only
    rw [hencode, append_eq, hlength]
    split
    · exact ⟨_, rfl, rfl⟩
    · rfl

/-! ## How the parse ends -/

/-- The parse ends with an error that it reports. -/
def Aborts {α : Type} (x : Except ParseStop α) : Prop := ∃ text, x = .error (.yyabort text)

theorem Returns.aborts {α β : Type} {x : Except ParseStop α} (h : Returns x) :
    Aborts (x >>= fun _ => (Grammar.syntaxError : Except ParseStop β)) := by
  obtain ⟨a, rfl⟩ | ⟨text, rfl⟩ := h
  · exact ⟨_, rfl⟩
  · exact ⟨text, rfl⟩

theorem not_aborts_fatal {α : Type} {error : FatalError} :
    ¬ Aborts (.error (.fatal error) : Except ParseStop α) := by
  rintro ⟨text, h⟩
  cases h

theorem not_aborts_ok {α : Type} {a : α} : ¬ Aborts (.ok a : Except ParseStop α) := by
  rintro ⟨text, h⟩
  cases h

theorem parseInstructions_error {ts : List Token} {ss : List SourceInstruction}
    {ending : Grammar.Ending} {b : PicoGpuBinary} {stop : ParseStop}
    (h : Grammar.readInstructions ts.length ts = (ss, ending))
    (hrun : ss.foldlM (fun b s => s.action b) b = .error stop) :
    Grammar.parseInstructions ts b = .error stop := by
  unfold Grammar.parseInstructions
  rw [h]
  dsimp only
  rw [hrun]
  rfl

section
variable {ts rest : List Token} {ss : List SourceInstruction} {b : PicoGpuBinary}
  (hb : b.code.length < Isa.maxIsaSize) (hss : ∀ s ∈ ss, s.repeats = false)

include hb hss

/-- The tokens end within an instruction. -/
theorem aborts_inside (h : Grammar.readInstructions ts.length ts = (ss, .inside)) :
    Aborts (Grammar.parseInstructions ts b) ↔ b.code.length + sizes ss < Isa.maxIsaSize := by
  rw [parseInstructions_inside h, actions_eq hss hb]
  split
  · next hfits => exact ⟨fun _ => hfits, fun _ => ⟨_, rfl⟩⟩
  · next hlong => exact ⟨fun haborts => absurd haborts not_aborts_fatal, fun hfits => absurd hfits hlong⟩

/-- An instruction repeats a component. -/
theorem aborts_repeats {s : SourceInstruction} {more : List SourceInstruction}
    {ending : Grammar.Ending} (h : Grammar.readInstructions ts.length ts = (ss ++ s :: more, ending))
    (hs : s.repeats = true) :
    Aborts (Grammar.parseInstructions ts b) ↔ b.code.length + sizes ss < Isa.maxIsaSize := by
  have hrun : (ss ++ s :: more).foldlM (fun b s => s.action b) b =
      if b.code.length + sizes ss < Isa.maxIsaSize then
        .error (.yyabort "duplicate components in dst register mask")
      else .error (.fatal "Too long program") := by
    rw [List.foldlM_append, actions_eq hss hb]
    split
    · show (s :: more).foldlM (fun b s => s.action b) _ = _
      rw [List.foldlM_cons, action_eq, hs]
      rfl
    · rfl
  split at hrun
  · next hfits =>
    rw [parseInstructions_error h hrun]
    exact ⟨fun _ => hfits, fun _ => ⟨_, rfl⟩⟩
  · next hlong =>
    rw [parseInstructions_error h hrun]
    exact ⟨fun haborts => absurd haborts not_aborts_fatal, fun hfits => absurd hfits hlong⟩

/-- The section is complete, and tokens may follow it. -/
theorem aborts_before (h : Grammar.readInstructions ts.length ts = (ss, .before rest))
    (hne : ss ≠ []) {programType : ProgramType} (htype : b.programType = some programType)
    (hclean : b.error = "") : Aborts (Grammar.parseInstructions ts b) ↔
      rest ≠ [] ∧ b.code.length + sizes ss + exportSize programType < Isa.maxIsaSize := by
  rw [parseInstructions_section h hne]
  unfold instructionSection
  rw [actions_eq hss hb]
  split
  · next hfits =>
    have hlength : (b.code ++ ss.flatMap fun s => s.encoded.dwords).length =
        b.code.length + sizes ss := by
      rw [List.length_append, length_encoded]
    have hfinalize := @finalizeInstructions_eq
      { b with code := b.code ++ ss.flatMap fun s => s.encoded.dwords } programType htype
      (by rw [hlength]; exact hfits)
    rw [hlength] at hfinalize
    show Aborts ((calling (finalizeInstructions _) >>= validateBinary) >>= _) ↔ _
    split at hfinalize
    · next hroom =>
      obtain ⟨b', h', herror⟩ := hfinalize
      rw [h']
      show Aborts (validateBinary b' >>= _) ↔ _
      rw [validateBinary_clean (herror.trans hclean)]
      show Aborts (if rest = [] then _ else _) ↔ _
      split
      · next hnil => exact ⟨fun haborts => absurd haborts not_aborts_ok, fun h => absurd hnil h.1⟩
      · next hmore => exact ⟨fun _ => ⟨hmore, hroom⟩, fun _ => ⟨_, rfl⟩⟩
    · next hlong =>
      rw [hfinalize]
      exact ⟨fun haborts => absurd haborts not_aborts_fatal, fun h => absurd h.2 hlong⟩
  · next hlong =>
    refine ⟨fun haborts => absurd haborts not_aborts_fatal, fun ⟨_, hfits⟩ => ?_⟩
    omega

end

end PicoGpu
