import PicoGpu.SourceText

/- Which texts with out-of-range registers are rejected. Such a register in a directive
   always is, and one in an instruction ends the parse at its line unless it is the
   destination of an `iinit` that has room for one more value. A text is rejected when a line
   ends the parse, provided that the code up to there fits in the memory of a unit. -/
namespace PicoGpu
open Grammar

/-! ## Directive lines -/

section
variable {numbers : NumberReader}

theorem readInputOutput_stops (f : RegisterIndex → RegMask → Directive) {r : RegisterIndex}
    {m : RegMask} {ws : List Written} (h : Stands (.reg r :: m.tokens) ws)
    (hout : HasOutOfRange ws) (rest : List Token) :
    readInputOutput f (scannedAll numbers ws ++ rest) = none := by
  have hdst : Stands (DstReg.masked r m).tokens ws := h
  rcases @dst_cases numbers _ ws hdst with rfl | ⟨a, t, more, hscanned, ht, -⟩
  · exact absurd hout (not_hasOutOfRange_tokens _)
  · rw [hscanned]
    obtain ⟨i, rfl⟩ | ⟨x, rfl⟩ := ht <;> rfl

theorem directive_stops {line : DirectiveLine} (hout : HasOutOfRange line.written) :
    ∃ h ts, scannedAll numbers line.written = .hash h :: ts ∧
      ∀ rest, readDirective h (ts ++ rest) = none := by
  obtain ⟨d, ws, hstands⟩ := line
  cases d with
  | input | output | uniform =>
    cases hstands with
    | token _ h =>
      refine ⟨_, _, rfl, readInputOutput_stops _ h ?_⟩
      obtain ⟨w, hw, hout⟩ := hout
      rcases List.mem_cons.mp hw with rfl | hw
      · exact hout.elim
      · exact ⟨w, hw, hout⟩
  | vertexShader | fragmentShader | undefinedRegs =>
    have hws := hstands.no_register (by simp [Directive.tokens])
    subst hws
    exact absurd hout (not_hasOutOfRange_tokens _)

theorem directives_inRange {lines : List DirectiveLine}
    (h : ∀ line ∈ lines, ¬ HasOutOfRange line.written) :
    scannedAll numbers (lines.flatMap DirectiveLine.written) =
      (lines.map DirectiveLine.directive).flatMap Directive.tokens := by
  induction lines with
  | nil => rfl
  | cons line lines ih =>
    rw [List.flatMap_cons, scannedAll_append, ih fun l hl => h l (List.mem_cons_of_mem _ hl),
      line.stands.in_range (h line List.mem_cons_self), scannedAll_tokens]
    rfl

/-- An out-of-range register in a directive ends the parse within the section. -/
theorem aborts_directive {source : Source}
    (h : ∃ line ∈ source.directives, HasOutOfRange line.written) :
    Aborts (Grammar.parse (scannedAll numbers source.written) .new) := by
  obtain ⟨before, line, after, hsplit, hbefore, hout⟩ :=
    @first_split _ (fun line : DirectiveLine => ¬ HasOutOfRange line.written) source.directives
      (by simpa using h)
  have hout := Classical.not_not.mp hout
  obtain ⟨hash, ts, hscanned, hstops⟩ := @directive_stops numbers line hout
  let rest := ts ++ (scannedAll numbers (after.flatMap DirectiveLine.written) ++
    scannedAll numbers (source.instructions.flatMap InstructionLine.written))
  have htokens : scannedAll numbers source.written =
      (before.map DirectiveLine.directive).flatMap Directive.tokens ++ .hash hash :: rest := by
    unfold Source.written
    rw [hsplit, List.flatMap_append, List.flatMap_cons, scannedAll_append, scannedAll_append,
      scannedAll_append, directives_inRange hbefore, hscanned]
    simp [rest]
  obtain ⟨fuel, hfuel⟩ : ∃ fuel, (scannedAll numbers source.written).length =
      (before.map DirectiveLine.directive).length + (fuel + 1) := by
    have hle := length_le_directives (before.map DirectiveLine.directive)
    rw [htokens, List.length_append, List.length_cons]
    refine ⟨((before.map DirectiveLine.directive).flatMap Directive.tokens).length -
      (before.map DirectiveLine.directive).length + rest.length, ?_⟩
    omega
  have hends : LineEnds (.hash hash :: rest) := by
    rintro _ ⟨⟩
    exact .inr ⟨hash, rfl⟩
  have hread : readDirectives (scannedAll numbers source.written).length
      (scannedAll numbers source.written) = (before.map DirectiveLine.directive, .inside) := by
    rw [hfuel, htokens, readDirectives_tokens _ hends, readDirectives, hstops, List.append_nil]
  rw [parse_inside hread]
  exact (actions_return _ _).aborts

end

/-! ## The instruction section -/

namespace Source

def directiveList (source : Source) : List Directive :=
  source.directives.map DirectiveLine.directive

/-- Where the instruction section ends the parse: the lines before pass, and there is room up
    to the line that does not. -/
structure StopsAt (numbers : NumberReader) (source : Source) (programType : ProgramType)
    (before : List InstructionLine) (line : InstructionLine) (after : List InstructionLine) :
    Prop where
  shaderType : source.directiveList.filterMap Directive.shaderType = [programType]
  lines : source.instructions = before ++ line :: after
  passes : ∀ l ∈ before, l.Passes
  stops : ¬ line.Passes
  room : RoomAt numbers (preambleLength source.directiveList +
    (before.map InstructionLine.length).sum) programType line

/-- A directive has an out-of-range register, or the directives break the rules they are
    checked against, or a line ends the parse. -/
def Rejected (numbers : NumberReader) (source : Source) : Prop :=
  (∃ line ∈ source.directives, HasOutOfRange line.written) ∨
    ¬ AcceptedDirectives source.directiveList ∨
    ∃ programType before line after, source.StopsAt numbers programType before line after

end Source

section
variable {numbers : NumberReader} {lines : List InstructionLine} {b : PicoGpuBinary}
  {programType : ProgramType} (hb : b.code.length < Isa.maxIsaSize)
  (htype : b.programType = some programType) (hclean : b.error = "")

include hb htype hclean

/-- Lines that all pass are accepted, or too long. -/
theorem not_aborts_lines (hlines : ∀ line ∈ lines, line.Passes) (hne : lines ≠ []) :
    ¬ Aborts (parseInstructions
      (scannedAll numbers (lines.flatMap InstructionLine.written)) b) := by
  obtain ⟨ss, hscanned, hss, -, hlength⟩ := @lines_read numbers lines hlines
  have hread : readInstructions (ss.flatMap SourceInstruction.tokens).length
      (ss.flatMap SourceInstruction.tokens) = (ss, .before []) := by
    obtain ⟨fuel, hfuel⟩ := Nat.exists_eq_add_of_le (length_le_tokens ss)
    have h := @readInstructions_tokens [] ss nofun fuel
    rw [List.append_nil, readInstructions_nil, List.append_nil] at h
    rw [hfuel, h]
  have hss_ne : ss ≠ [] := by
    rintro rfl
    exact hne (List.length_eq_zero_iff.mp hlength.symm)
  rw [hscanned, aborts_before hb hss hread hss_ne htype hclean]
  exact fun h => h.1 rfl

theorem aborts_line {before after : List InstructionLine} {line : InstructionLine}
    (hbefore : ∀ l ∈ before, l.Passes) (hstops : ¬ line.Passes) :
    Aborts (parseInstructions (scannedAll numbers
        ((before ++ line :: after).flatMap InstructionLine.written)) b) ↔
      RoomAt numbers (b.code.length + (before.map InstructionLine.length).sum) programType line := by
  obtain ⟨ss, hscanned, hss, hsizes, -⟩ := @lines_read numbers before hbefore
  rw [List.flatMap_append, List.flatMap_cons, scannedAll_append, scannedAll_append, hscanned,
    ← hsizes]
  by_cases hvalue : HasOutOfRange line.written → line.instruction.takesValue = true
  · have hrepeats : line.instruction.repeats = true := by
      rw [← Bool.not_eq_false]
      exact fun hdistinct => hstops ⟨hvalue, hdistinct⟩
    exact aborts_repeatingLine hb hss (instructionComes_lines after).lineEnds hvalue hrepeats
  · obtain ⟨hout, hvalue⟩ := Classical.not_imp.mp hvalue
    exact aborts_surplusLine hb hss htype hclean hout (Bool.not_eq_true _ ▸ hvalue)

end

/-! ## The text -/

/-- The code of a section leaves room. -/
theorem preambleLength_lt {directives : List Directive} (h : Declarable directives) :
    preambleLength directives < Isa.maxIsaSize := by
  have hcount := (h.registers .input).count
  rw [List.length_map] at hcount
  have hmax : Isa.maxIsaSize = 512 := rfl
  unfold preambleLength
  split <;> split <;> omega

section
variable {numbers : NumberReader} {source : Source}

/-- The directives are in range, and the parser comes to the instructions. -/
theorem parse_source (h : ∀ line ∈ source.directives, ¬ HasOutOfRange line.written) :
    Grammar.parse (scannedAll numbers source.written) .new =
      directiveSection source.directiveList .new >>= parseInstructions
        (scannedAll numbers (source.instructions.flatMap InstructionLine.written)) := by
  have hinstructions := @instructionComes_lines numbers source.instructions
  have htokens : scannedAll numbers source.written =
      source.directiveList.flatMap Directive.tokens ++
        scannedAll numbers (source.instructions.flatMap InstructionLine.written) := by
    unfold Source.written
    rw [scannedAll_append, directives_inRange h]
    rfl
  have hread : readDirectives (scannedAll numbers source.written).length
      (scannedAll numbers source.written) = (source.directiveList,
        .before (scannedAll numbers (source.instructions.flatMap InstructionLine.written))) := by
    obtain ⟨fuel, hfuel⟩ : ∃ fuel, (scannedAll numbers source.written).length =
        source.directiveList.length + fuel := by
      have hle := length_le_directives source.directiveList
      refine Nat.exists_eq_add_of_le ?_
      rw [htokens, List.length_append]
      omega
    rw [hfuel, htokens, readDirectives_tokens _ hinstructions.lineEnds,
      readDirectives_instruction hinstructions, List.append_nil]
  refine parse_section hread fun hnil => source.directives_ne ?_
  exact List.map_eq_nil_iff.mp hnil

theorem aborts_iff_rejected :
    Aborts (Grammar.parse (scannedAll numbers source.written) .new) ↔ source.Rejected numbers := by
  by_cases hdirective : ∃ line ∈ source.directives, HasOutOfRange line.written
  · exact ⟨fun _ => .inl hdirective, fun _ => aborts_directive hdirective⟩
  have hinRange : ∀ line ∈ source.directives, ¬ HasOutOfRange line.written :=
    fun line hline hout => hdirective ⟨line, hline, hout⟩
  rw [parse_source hinRange]
  by_cases haccepted : AcceptedDirectives source.directiveList
  · obtain ⟨b, h⟩ := (directiveSection_iff source.directiveList).mpr haccepted
    obtain ⟨hlength, hclean, hshader⟩ := directiveSection_length h
    have hb : b.code.length < Isa.maxIsaSize := by
      rw [hlength]
      exact preambleLength_lt haccepted.toDeclarable
    obtain ⟨programType, htype⟩ : ∃ programType, b.programType = some programType := by
      rw [← Option.ne_none_iff_exists']
      intro hnone
      rw [hnone] at hshader
      exact haccepted.hasType hshader
    rw [htype, Option.toList_some] at hshader
    rw [h]
    show Aborts (parseInstructions _ b) ↔ _
    constructor
    · intro haborts
      have hstops : ∃ line ∈ source.instructions, ¬ line.Passes := by
        by_contra hall
        have hlines : ∀ line ∈ source.instructions, line.Passes :=
          fun line hline => Classical.not_not.mp fun hnot => hall ⟨line, hline, hnot⟩
        exact not_aborts_lines hb htype hclean hlines source.instructions_ne haborts
      obtain ⟨before, line, after, hlines, hbefore, hstops⟩ := first_split hstops
      rw [hlines, aborts_line hb htype hclean hbefore hstops, hlength] at haborts
      exact .inr (.inr ⟨programType, before, line, after, hshader, hlines, hbefore, hstops, haborts⟩)
    · rintro (hout | hrules | ⟨other, before, line, after, hother, hlines, hbefore, hstops, hroom⟩)
      · exact absurd hout hdirective
      · exact absurd haccepted hrules
      · rw [hshader] at hother
        cases hother
        rw [hlines, aborts_line hb htype hclean hbefore hstops, hlength]
        exact hroom
  · refine ⟨fun _ => .inr (.inl haccepted), fun _ => ?_⟩
    rcases directiveSection_returns source.directiveList with ⟨b, h⟩ | ⟨text, h⟩
    · exact absurd ((directiveSection_iff _).mp ⟨b, h⟩) haccepted
    · rw [h]
      exact ⟨text, rfl⟩

end

theorem assembly_nonzero_iff {numbers : NumberReader} {code : List Char} {b : PicoGpuBinary} :
    (∃ result, assembly numbers code b = .ok result ∧ result ≠ 0) ↔
      Aborts (Grammar.parse (Scanner.tokens numbers code) b) := by
  unfold assembly Aborts
  cases Grammar.parse (Scanner.tokens numbers code) b with
  | ok b' => simp
  | error stop => cases stop <;> simp

/-- **`assembly` returns something other than 0 for a text that is well-formed but for its
    out-of-range registers exactly when one of them stands in a directive, or the directives
    break their rules, or a line ends the parse while there is room for its code: one that
    names a component twice, or one with an out-of-range register that no `iinit` takes a value
    from.** -/
theorem outOfRange_rejected_iff {numbers : NumberReader} {code : List Char} {source : Source}
    (h : Scanner.written numbers code = source.written) :
    (∃ result, assembly numbers code .new = .ok result ∧ result ≠ 0) ↔
      source.Rejected numbers := by
  rw [assembly_nonzero_iff, tokens_source h]
  exact aborts_iff_rejected

/-- Integers as `atoi` reads them; no text below has a float. -/
def integerReader : NumberReader where
  atoi
    | '-' :: digits => -BitVec.ofNat 32 (Scanner.decimal digits)
    | digits => BitVec.ofNat 32 (Scanner.decimal digits)
  atof _ := ⟨0⟩

def inRangeLine (d : Directive) : DirectiveLine := ⟨d, d.tokens.map .token, Stands.refl _⟩

/-- A vertex shader with one instruction. -/
def oneLine (line : InstructionLine) : Source where
  directives := (oneInstruction .trap).directives.map inRangeLine
  instructions := [line]
  directives_ne := List.cons_ne_nil _ _
  instructions_ne := List.cons_ne_nil _ _

def oneLineText (line : String) : List Char :=
  ("#vertexShader\n#input r0.xyzw\n#output r12.xyzw\n" ++ line).toList

/-- `mov r12 r16`. -/
def mov16 : InstructionLine where
  instruction := .mov (.reg 12) 0
  written := [.token (.mnemonic .mov), .token (.reg 12), .outOfRange ['1', '6']]
  stands := .token _ (.token _ (.outOfRange 0 _ .nil))

/-- `iinit r16 5`. -/
def iinit16 : InstructionLine where
  instruction := .iinit (.reg 0) (.one 5)
  written := [.token (.mnemonic .iinit), .outOfRange ['1', '6'], .token (.numberInt 5)]
  stands := .token _ (.outOfRange 0 _ (.token _ .nil))

theorem mov16_rejected : ∃ result,
    assembly integerReader (oneLineText "mov r12 r16") .new = .ok result ∧ result ≠ 0 := by
  have hwritten : Scanner.written integerReader (oneLineText "mov r12 r16") =
      (oneLine mov16).written := by decide +kernel
  refine (outOfRange_rejected_iff hwritten).mpr (.inr (.inr
    ⟨.vertexShader, [], mov16, [], rfl, rfl, fun _ hl => absurd hl List.not_mem_nil, fun h => ?_,
      by decide, fun s _ _ => ?_⟩))
  · exact absurd (h.takesValue (by decide)) (by decide)
  · have hsize := size_le s
    have hstart : preambleLength (oneLine mov16).directiveList = 2 := by decide
    show preambleLength _ + 0 + s.size + 0 < 512
    omega

/-- `r16` is read as `r1` and the number 6, and an `iinit` takes numbers. -/
theorem iinit16_accepted :
    Scanner.written integerReader (oneLineText "iinit r16 5") = (oneLine iinit16).written ∧
      HasOutOfRange (oneLine iinit16).written ∧
      assembly integerReader (oneLineText "iinit r16 5") .new = .ok 0 := by
  decide +kernel

end PicoGpu
