import PicoGpu.DirectiveRules

/- What holds of the binary of every source that the assembler accepts. Its header
   describes the tables that the directives filled, the instructions behind them add
   to the code and to nothing else, and the last call counts the dwords of the code. -/
namespace PicoGpu

namespace PicoGpuBinary

/-- The calls behind the directives change the code and its length in the header. -/
theorem Accepted.withCode {b : PicoGpuBinary} (h : b.Accepted) (code : List Dword)
    (programLength : BitVec 9) :
    Accepted { b with
      code := code, header := { b.header with programLength := programLength } } where
  programType := h.programType
  commandType := h.commandType
  inputsCount := h.inputsCount
  inputs := h.inputs
  outputsCount := h.outputsCount
  outputs := h.outputs
  uniformsCount := h.uniformsCount
  uniforms := h.uniforms
  wellFormed := h.wellFormed
  hasInput := h.hasInput
  vertex := h.vertex
  fragment := h.fragment

/-- Instructions that are encoded change nothing but the code. -/
theorem instructions_frame (is : List Instruction) {b b' : PicoGpuBinary}
    (h : AssemblerCall.performAll (is.map .encode) b = .ok b') :
    ∃ code, b' = { b with code := code } := by
  induction is generalizing b with
  | nil =>
    cases h
    exact ⟨_, rfl⟩
  | cons i is ih =>
    obtain ⟨b1, h1, h⟩ := bind_ok.mp h
    obtain ⟨happend, -⟩ := encode_ok h1
    obtain ⟨code, rfl⟩ := ih h
    exact ⟨code, by rw [(append_ok happend).1]⟩

/-- The instructions of a source change the code and its length in the header. -/
theorem instructionSection_frame {is : List Instruction} {b b1 b' : PicoGpuBinary}
    (h1 : AssemblerCall.performAll (is.map .encode) b = .ok b1)
    (h : b1.finalizeInstructions = .ok b') :
    ∃ code programLength, b' = { b with
      code := code, header := { b.header with programLength := programLength } } := by
  obtain ⟨code, rfl⟩ := instructions_frame is h1
  obtain ⟨b2, h2, h⟩ := bind_ok.mp h
  cases h
  split at h2
  · cases h2
  · cases h2
    exact ⟨_, _, rfl⟩
  · obtain ⟨rfl, -⟩ := append_ok h2
    exact ⟨_, _, rfl⟩

end PicoGpuBinary

/-- A source that is accepted. -/
structure Parsed (program : List Instruction) (b : PicoGpuBinary) : Prop where
  accepted : b.Accepted
  code : b.code = programDwords program
  readable : ∀ {V : Type} (alu : Alu V), ∀ i ∈ program, i.Readable alu
  programLength : b.header.programLength.toNat = b.code.length
  fits : b.code.length < Isa.maxIsaSize
  nonempty : 0 < b.code.length

/-- The program of an accepted source begins with what its directives emit. -/
theorem Program.parsed_of_emitted {p : Program} {b : PicoGpuBinary} (h : p.parse .new = .ok b)
    {prologue : List Instruction}
    (hem : AssemblerCall.emittedAll p.directiveCalls .new = .ok prologue) :
    Parsed (prologue ++ p.instructions.map SourceInstruction.encoded ++ b.finalCalls) b := by
  obtain ⟨prologue', hem', hassembled, hlength⟩ := parse_assembled h
  rw [hem] at hem'
  cases hem'
  refine ⟨?_, hassembled.code, fun alu => readable_assembled hem hassembled, hlength,
    hassembled.fits, ?_⟩
  · obtain ⟨b1, h1, h⟩ := bind_ok.mp h
    obtain ⟨b2, h2, h3⟩ := Program.parseInstructions_ok h
    obtain ⟨code, programLength, rfl⟩ := PicoGpuBinary.instructionSection_frame h2 h3
    exact (parseDirectives_accepted h1).withCode code programLength
  · rw [hassembled.code]
    have hle := length_le_programDwords
      (prologue ++ p.instructions.map SourceInstruction.encoded ++ b.finalCalls)
    have hpos := List.length_pos_iff.mpr p.instructions_ne
    simp only [List.length_append, List.length_map] at hle
    omega

theorem Program.parse_parsed {p : Program} {b : PicoGpuBinary} (h : p.parse .new = .ok b) :
    ∃ program, Parsed program b := by
  obtain ⟨prologue, hem, -⟩ := parse_assembled h
  exact ⟨_, parsed_of_emitted h hem⟩

end PicoGpu
