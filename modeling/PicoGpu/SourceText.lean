import PicoGpu.InstructionSection

/- Source texts that the grammar derives, but for registers that are out of range: what the
   scanner makes of them, and how far the parser reads their lines. -/
namespace PicoGpu
open Grammar

/-- A text of directives and instructions, as it stands. -/
structure Source where
  directives : List DirectiveLine
  instructions : List InstructionLine
  directives_ne : directives ≠ []
  instructions_ne : instructions ≠ []

def Source.written (source : Source) : List Written :=
  source.directives.flatMap DirectiveLine.written ++
    source.instructions.flatMap InstructionLine.written

/-- The first element that does not have a property. -/
theorem first_split {α : Type} {p : α → Prop} {l : List α} (h : ∃ a ∈ l, ¬ p a) :
    ∃ before a after, l = before ++ a :: after ∧ (∀ a' ∈ before, p a') ∧ ¬ p a := by
  induction l with
  | nil =>
    obtain ⟨a, ha, -⟩ := h
    cases ha
  | cons a l ih =>
    by_cases ha : p a
    · obtain ⟨a', ha', hnot⟩ := h
      have hmem : a' ∈ l := by
        rcases List.mem_cons.mp ha' with rfl | hmem
        · exact absurd ha hnot
        · exact hmem
      obtain ⟨before, x, after, rfl, hbefore, hx⟩ := ih ⟨a', hmem, hnot⟩
      refine ⟨a :: before, x, after, rfl, ?_, hx⟩
      intro y hy
      rcases List.mem_cons.mp hy with rfl | hy
      · exact ha
      · exact hbefore y hy
    · exact ⟨[], a, l, rfl, fun _ hy => absurd hy List.not_mem_nil, ha⟩

/-! ## Dots -/

/-- A component follows each dot. -/
def DotsNamed : List Token → Prop
  | [] => True
  | .dot :: ts => (∃ c more, ts = .vecComponent c :: more) ∧ DotsNamed ts
  | _ :: ts => DotsNamed ts

theorem Stands.dotsFit {ts : List Token} {ws : List Written} (h : Stands ts ws)
    (hts : DotsNamed ts) : Scanner.DotsFit ws := by
  induction h with
  | nil => trivial
  | token t h ih =>
    cases t with
    | dot => exact ih hts.2
    | _ => exact ih hts
  | outOfRange r digits h ih => exact ih hts
  | outOfRangeDot r digits h ih =>
    obtain ⟨⟨c, more, rfl⟩, hts⟩ := hts
    refine ⟨?_, ih hts⟩
    cases h with
    | token _ h => exact ⟨c, _, rfl⟩

theorem dotsNamed_mask (m : RegMask) {ts : List Token} (h : DotsNamed ts) :
    DotsNamed (m.tokens ++ ts) := by
  cases m <;> exact ⟨⟨_, _, rfl⟩, h⟩

theorem dotsNamed_dst (dst : DstReg) {ts : List Token} (h : DotsNamed ts) :
    DotsNamed (dst.tokens ++ ts) := by
  cases dst with
  | reg r => exact h
  | masked r m => exact dotsNamed_mask m h

theorem dotsNamed_numbers {α : Type} {token : α → Token} (htoken : ∀ a, token a ≠ .dot)
    (values : List α) : DotsNamed (values.map token) := by
  induction values with
  | nil => trivial
  | cons a values ih =>
    have ha := htoken a
    rw [List.map_cons]
    cases h : token a with
    | dot => exact absurd h ha
    | _ => exact ih

theorem dotsNamed_instruction (s : SourceInstruction) : DotsNamed s.tokens := by
  cases s
  case finit => exact dotsNamed_dst _ (dotsNamed_numbers nofun _)
  case iinit => exact dotsNamed_dst _ (dotsNamed_numbers nofun _)
  case swizzle => exact ⟨⟨_, _, rfl⟩, trivial⟩
  case fcross | trap => trivial
  all_goals exact dotsNamed_dst _ trivial

theorem dotsNamed_directive (d : Directive) : DotsNamed d.tokens := by
  have hmask : ∀ m : RegMask, DotsNamed m.tokens := by
    intro m
    have h := @dotsNamed_mask m [] trivial
    rwa [List.append_nil] at h
  cases d with
  | input | output | uniform => exact hmask _
  | vertexShader | fragmentShader | undefinedRegs => trivial

theorem dotsFit_both {ws ws' : List Written} (h : Scanner.DotsFit ws) (h' : Scanner.DotsFit ws') :
    Scanner.DotsFit (ws ++ ws') := by
  induction ws with
  | nil => exact h'
  | cons w ws ih =>
    cases w with
    | token | outOfRange => exact ih h
    | outOfRangeDot =>
      obtain ⟨⟨c, more, rfl⟩, h⟩ := h
      exact ⟨⟨c, more ++ ws', rfl⟩, ih h⟩

theorem dotsFit_flatMap {α : Type} (lines : List α) {written : α → List Written}
    (h : ∀ line, Scanner.DotsFit (written line)) : Scanner.DotsFit (lines.flatMap written) := by
  induction lines with
  | nil => trivial
  | cons line lines ih =>
    rw [List.flatMap_cons]
    exact dotsFit_both (h line) ih

/-- What the scanner makes of the text. -/
theorem tokens_source {numbers : NumberReader} {code : List Char} {source : Source}
    (h : Scanner.written numbers code = source.written) :
    Scanner.tokens numbers code = scannedAll numbers source.written := by
  have hfit : Scanner.DotsFit source.written :=
    dotsFit_both (dotsFit_flatMap _ fun line => line.stands.dotsFit (dotsNamed_directive _))
      (dotsFit_flatMap _ fun line => line.stands.dotsFit (dotsNamed_instruction _))
  rw [Scanner.tokens_written numbers code (by rw [h]; exact hfit), h]
  rfl

/-! ## Instruction lines -/

instance : DecidablePred Written.IsOutOfRange
  | .token _ => inferInstanceAs (Decidable False)
  | .outOfRange _ => inferInstanceAs (Decidable True)
  | .outOfRangeDot _ => inferInstanceAs (Decidable True)

instance (ws : List Written) : Decidable (HasOutOfRange ws) :=
  inferInstanceAs (Decidable (∃ w ∈ ws, w.IsOutOfRange))

namespace InstructionLine

/-- A line that the parser reads to its end, and whose action does not end the parse. -/
structure Passes (line : InstructionLine) : Prop where
  takesValue : HasOutOfRange line.written → line.instruction.takesValue = true
  distinct : line.instruction.repeats = false

/-- The dwords that a line adds which passes. -/
def length (line : InstructionLine) : Nat :=
  line.instruction.size + if HasOutOfRange line.written then 1 else 0

end InstructionLine

section
variable {numbers : NumberReader} {line : InstructionLine}

theorem scannedAll_inRange (hin : ¬ HasOutOfRange line.written) :
    scannedAll numbers line.written = line.instruction.tokens := by
  rw [line.stands.in_range hin, scannedAll_tokens]

theorem size_iinit (dst : DstReg) (imms : Immediates Dword) :
    (SourceInstruction.iinit dst imms).size = 1 + imms.toList.length := by
  cases imms <;> rfl

/-- What the parser reads of a line that it reads to its end. -/
theorem line_read (hvalue : HasOutOfRange line.written → line.instruction.takesValue = true) :
    ∃ s : SourceInstruction, scannedAll numbers line.written = s.tokens ∧
      s.repeats = line.instruction.repeats ∧ s.size = line.length := by
  unfold InstructionLine.length
  by_cases hout : HasOutOfRange line.written
  · obtain ⟨r, a, i, imms, hline, hlength, hscanned⟩ := @readsValue numbers line hout (hvalue hout)
    refine ⟨_, hscanned, ?_, ?_⟩
    · rw [hline]
      rfl
    · rw [hline, if_pos hout, size_iinit, size_iinit, Immediates.toList_cons i hlength,
        List.length_cons]
      rfl
  · rw [if_neg hout]
    exact ⟨line.instruction, scannedAll_inRange hout, rfl, rfl⟩

theorem lines_read {lines : List InstructionLine} (h : ∀ line ∈ lines, line.Passes) :
    ∃ ss : List SourceInstruction,
      scannedAll numbers (lines.flatMap InstructionLine.written) =
        ss.flatMap SourceInstruction.tokens ∧
      (∀ s ∈ ss, s.repeats = false) ∧ sizes ss = (lines.map InstructionLine.length).sum ∧
      ss.length = lines.length := by
  induction lines with
  | nil => exact ⟨[], rfl, fun _ hs => absurd hs List.not_mem_nil, rfl, rfl⟩
  | cons line lines ih =>
    obtain ⟨ss, hscanned, hss, hsizes, hlength⟩ := ih fun l hl => h l (List.mem_cons_of_mem _ hl)
    obtain ⟨hvalue, hdistinct⟩ := h line List.mem_cons_self
    obtain ⟨s, hs, hrepeats, hsize⟩ := @line_read numbers line hvalue
    refine ⟨s :: ss, ?_, ?_, ?_, congrArg (· + 1) hlength⟩
    · rw [List.flatMap_cons, scannedAll_append, hs, hscanned, List.flatMap_cons]
    · intro s' hs'
      rcases List.mem_cons.mp hs' with rfl | hs'
      · exact hrepeats.trans hdistinct
      · exact hss s' hs'
    · show s.size + sizes ss = line.length + (lines.map InstructionLine.length).sum
      rw [hsize, hsizes]

theorem line_mnemonic (line : InstructionLine) :
    ∃ m ts, scannedAll numbers line.written = .mnemonic m :: ts := by
  obtain ⟨m, ts, hs⟩ := tokens_mnemonic line.instruction
  obtain ⟨ws', -, -, hscanned⟩ := @Stands.mnemonic_inv numbers m ts _ (hs ▸ line.stands)
  exact ⟨m, _, hscanned⟩

theorem instructionComes_lines (lines : List InstructionLine) :
    InstructionComes (scannedAll numbers (lines.flatMap InstructionLine.written)) := by
  cases lines with
  | nil => exact nofun
  | cons line lines =>
    obtain ⟨m, ts, hscanned⟩ := @line_mnemonic numbers line
    rw [List.flatMap_cons, scannedAll_append, hscanned]
    rintro _ ⟨⟩
    exact ⟨m, rfl⟩

/-! ### Where reading stops -/

variable {ss : List SourceInstruction} {rest : List Token}

/-- The tokens of `ss`, and of a line that begins with `m`. -/
theorem read_upTo (ss : List SourceInstruction) (m : Mnemonic) (ts : List Token) :
    ∃ fuel, readInstructions (ss.flatMap SourceInstruction.tokens ++ .mnemonic m :: ts).length
        (ss.flatMap SourceInstruction.tokens ++ .mnemonic m :: ts) =
      (ss ++ (readInstructions (fuel + 1) (.mnemonic m :: ts)).1,
        (readInstructions (fuel + 1) (.mnemonic m :: ts)).2) := by
  obtain ⟨fuel, hfuel⟩ : ∃ fuel, (ss.flatMap SourceInstruction.tokens ++ .mnemonic m :: ts).length =
      ss.length + (fuel + 1) := by
    have hle := length_le_tokens ss
    refine ⟨(ss.flatMap SourceInstruction.tokens).length - ss.length + ts.length, ?_⟩
    rw [List.length_append, List.length_cons]
    omega
  refine ⟨fuel, ?_⟩
  rw [hfuel]
  refine readInstructions_tokens ss ?_ (fuel + 1)
  rintro _ ⟨⟩
  exact ⟨m, rfl⟩

end

/-- There is room in the shader units' memory for the code up to a line, and for what is read
    of the line itself. -/
def RoomAt (numbers : NumberReader) (start : Nat) (programType : ProgramType)
    (line : InstructionLine) : Prop :=
  start < Isa.maxIsaSize ∧ ∀ s, LongestInstruction s (scannedAll numbers line.written) →
    s.repeats = false → start + s.size + exportSize programType < Isa.maxIsaSize

theorem longestInstruction_tokens (s : SourceInstruction) : LongestInstruction s s.tokens :=
  ⟨List.prefix_refl _, fun _ h => h.length_le⟩

section
variable {numbers : NumberReader} {start : Nat} {programType : ProgramType} {line : InstructionLine}
  {s : SourceInstruction}

theorem roomAt_none (hno : ∀ s, ¬ LongestInstruction s (scannedAll numbers line.written)) :
    RoomAt numbers start programType line ↔ start < Isa.maxIsaSize :=
  ⟨fun h => h.1, fun h => ⟨h, fun s hs => absurd hs (hno s)⟩⟩

theorem roomAt_repeats (hs : LongestInstruction s (scannedAll numbers line.written))
    (hrepeats : s.repeats = true) :
    RoomAt numbers start programType line ↔ start < Isa.maxIsaSize := by
  refine ⟨fun h => h.1, fun h => ⟨h, fun s' hs' hno => ?_⟩⟩
  rw [hs'.unique hs, hrepeats] at hno
  cases hno

theorem roomAt_read (hs : LongestInstruction s (scannedAll numbers line.written))
    (hrepeats : s.repeats = false) : RoomAt numbers start programType line ↔
      start + s.size + exportSize programType < Isa.maxIsaSize := by
  constructor
  · rintro ⟨-, hroom⟩
    exact hroom s hs hrepeats
  · intro hroom
    refine ⟨by omega, fun s' hs' _ => ?_⟩
    rw [hs'.unique hs]
    exact hroom

end

section
variable {numbers : NumberReader} {ss : List SourceInstruction} {b : PicoGpuBinary}
  {programType : ProgramType} {line : InstructionLine} {rest : List Token}
  (hb : b.code.length < Isa.maxIsaSize) (hss : ∀ s ∈ ss, s.repeats = false)
  (htype : b.programType = some programType) (hclean : b.error = "")

include hb hss

/-- At a line that repeats a component. -/
theorem aborts_repeatingLine (hrest : LineEnds rest)
    (hvalue : HasOutOfRange line.written → line.instruction.takesValue = true)
    (hrepeats : line.instruction.repeats = true) :
    Aborts (parseInstructions (ss.flatMap SourceInstruction.tokens ++
        (scannedAll numbers line.written ++ rest)) b) ↔
      RoomAt numbers (b.code.length + sizes ss) programType line := by
  obtain ⟨s, hs, hsrepeats, -⟩ := @line_read numbers line hvalue
  have hlongest : LongestInstruction s (scannedAll numbers line.written) := by
    rw [hs]
    exact longestInstruction_tokens s
  obtain ⟨m, ts, hm⟩ := tokens_mnemonic s
  obtain ⟨fuel, hread⟩ := read_upTo ss m (ts ++ rest)
  have hline : Token.mnemonic m :: (ts ++ rest) = s.tokens ++ rest := by rw [hm]; rfl
  rw [hline, readInstructions_cons s hrest] at hread
  rw [roomAt_repeats hlongest (hsrepeats.trans hrepeats), hs]
  exact aborts_repeats hb hss hread (hsrepeats.trans hrepeats)

include htype hclean

/-- At a line with an out-of-range register that is no value. -/
theorem aborts_surplusLine (hout : HasOutOfRange line.written)
    (hvalue : line.instruction.takesValue = false) :
    Aborts (parseInstructions (ss.flatMap SourceInstruction.tokens ++
        (scannedAll numbers line.written ++ rest)) b) ↔
      RoomAt numbers (b.code.length + sizes ss) programType line := by
  obtain ⟨m, ts, hscanned, hgives⟩ := @givesUp_line numbers line hout hvalue
  have hlongest := readOperands_longest m ts
  obtain ⟨fuel, hread⟩ := read_upTo ss m (ts ++ rest)
  rcases hgives with hnone | ⟨s, t, more, ht, hsome⟩
  · -- no instruction is read
    have hown := hnone []
    rw [List.append_nil] at hown
    obtain ⟨-, hno⟩ | ⟨s, rest', hread', -⟩ := hlongest
    · rw [readInstructions, hnone] at hread
      rw [roomAt_none (hscanned ▸ hno), hscanned, List.cons_append,
        aborts_inside hb hss (by rw [hread, List.append_nil])]
    · rw [hown] at hread'
      cases hread'
  · -- one is read, and then a token that begins no line
    have hown := hsome []
    rw [List.append_nil, List.append_nil] at hown
    obtain ⟨hnone, -⟩ | ⟨s', rest', hread', hs⟩ := hlongest
    · rw [hown] at hnone
      cases hnone
    · rw [hown] at hread'
      cases hread'
      have hstop : readInstructions fuel (t :: more ++ rest) = ([], .before (t :: more ++ rest)) := by
        cases t with
        | mnemonic m' => exact absurd rfl (ht m')
        | _ => cases fuel <;> rfl
      rw [readInstructions, hsome] at hread
      dsimp only at hread
      rw [hstop] at hread
      rw [← hscanned] at hs
      cases hrepeats : s.repeats with
      | true =>
        rw [roomAt_repeats hs hrepeats, hscanned, List.cons_append,
          aborts_repeats hb hss hread hrepeats]
      | false =>
        have hall : ∀ s' ∈ ss ++ [s], s'.repeats = false :=
          List.forall_mem_append.mpr ⟨hss, List.forall_mem_singleton.mpr hrepeats⟩
        rw [roomAt_read hs hrepeats, hscanned, List.cons_append,
          aborts_before hb hall hread (by simp) htype hclean, sizes_concat, ← Nat.add_assoc]
        exact and_iff_right (List.cons_ne_nil _ _)

end

end PicoGpu
