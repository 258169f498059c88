import PicoGpu.LineReading

/- The two sections of a text: the parser reads line after line, as long as one begins with
   the token that comes. The parser of the tokens and the actions of a derivation agree. -/
namespace PicoGpu
open Grammar

/-- A token of the next line comes, or none at all. -/
def LineEnds (ts : List Token) : Prop :=
  ∀ t ∈ ts.head?, (∃ m, t = .mnemonic m) ∨ ∃ h, t = .hash h

theorem LineEnds.heads {ts : List Token} (h : LineEnds ts) :
    (∀ v, ts.head? ≠ some (.vecComponent v)) ∧ NoNumber ts := by
  cases ts with
  | nil => exact ⟨nofun, nofun⟩
  | cons t more =>
    obtain ⟨m, rfl⟩ | ⟨hash, rfl⟩ := h t rfl
    · refine ⟨nofun, ?_⟩
      rintro _ ⟨⟩
      exact ⟨rfl, rfl⟩
    · refine ⟨nofun, ?_⟩
      rintro _ ⟨⟩
      exact ⟨rfl, rfl⟩

/-- The tokens are at their end, or an instruction comes. -/
def InstructionComes (ts : List Token) : Prop := ∀ t ∈ ts.head?, ∃ m, t = .mnemonic m

theorem InstructionComes.lineEnds {ts : List Token} (h : InstructionComes ts) : LineEnds ts :=
  fun t ht => .inl (h t ht)

/-! ## Instructions -/

section
variable {rest : List Token}

theorem tokens_mnemonic (s : SourceInstruction) : ∃ m ts, s.tokens = .mnemonic m :: ts := by
  obtain ⟨m, ts, s', rest', hs, -⟩ := readOperands_atLeast s []
  exact ⟨m, ts, hs⟩

theorem instructionComes_tokens (s : SourceInstruction) (ts : List Token) :
    InstructionComes (s.tokens ++ ts) := by
  obtain ⟨m, more, hs⟩ := tokens_mnemonic s
  rw [hs]
  rintro _ ⟨⟩
  exact ⟨m, rfl⟩

theorem instructionComes_flatMap (ss : List SourceInstruction) (hrest : InstructionComes rest) :
    InstructionComes (ss.flatMap SourceInstruction.tokens ++ rest) := by
  cases ss with
  | nil => exact hrest
  | cons s ss =>
    rw [List.flatMap_cons, List.append_assoc]
    exact instructionComes_tokens s _

/-- One line. -/
theorem readInstructions_cons (s : SourceInstruction) (hrest : LineEnds rest) (fuel : Nat) :
    readInstructions (fuel + 1) (s.tokens ++ rest) =
      (s :: (readInstructions fuel rest).1, (readInstructions fuel rest).2) := by
  obtain ⟨m, ts, hs, hread⟩ := readOperands_own s hrest.heads.2
  rw [hs, List.cons_append, readInstructions, hread]

/-- Line after line. -/
theorem readInstructions_tokens (ss : List SourceInstruction) (hrest : InstructionComes rest)
    (fuel : Nat) :
    readInstructions (ss.length + fuel) (ss.flatMap SourceInstruction.tokens ++ rest) =
      (ss ++ (readInstructions fuel rest).1, (readInstructions fuel rest).2) := by
  induction ss with
  | nil =>
    rw [List.length_nil, Nat.zero_add]
    rfl
  | cons s ss ih =>
    rw [List.flatMap_cons, List.append_assoc, List.length_cons, Nat.add_right_comm,
      readInstructions_cons s (instructionComes_flatMap ss hrest).lineEnds, ih]
    rfl

theorem readInstructions_nil (fuel : Nat) : readInstructions fuel [] = ([], .before []) := by
  cases fuel <;> rfl

/-- There is a token for each line at least. -/
theorem length_le_tokens (ss : List SourceInstruction) :
    ss.length ≤ (ss.flatMap SourceInstruction.tokens).length := by
  induction ss with
  | nil => exact Nat.le_refl 0
  | cons s ss ih =>
    obtain ⟨m, ts, hs⟩ := tokens_mnemonic s
    rw [List.flatMap_cons, List.length_append, hs, List.length_cons, List.length_cons]
    omega

/-! ## Directives -/

theorem readDirective_own (d : Directive) (hrest : LineEnds rest) :
    ∃ h ts, d.tokens = .hash h :: ts ∧ readDirective h (ts ++ rest) = some (d, rest) := by
  have hmask := fun m => readRegMask_tokens m hrest.heads.1
  have hread : ∀ (f : RegisterIndex → RegMask → Directive) (r : RegisterIndex) (m : RegMask),
      readInputOutput f ((.reg r :: m.tokens) ++ rest) = some (f r m, rest) := by
    intro f r m
    show readRegMask.then _ (m.tokens ++ rest) = _
    rw [Reader.then, hmask]
    rfl
  cases d with
  | input | output | uniform => exact ⟨_, _, rfl, hread _ _ _⟩
  | vertexShader | fragmentShader | undefinedRegs => exact ⟨_, _, rfl, rfl⟩

theorem tokens_hash (d : Directive) : ∃ h ts, d.tokens = .hash h :: ts := by
  cases d <;> exact ⟨_, _, rfl⟩

theorem lineEnds_directives (ds : List Directive) (hrest : LineEnds rest) :
    LineEnds (ds.flatMap Directive.tokens ++ rest) := by
  cases ds with
  | nil => exact hrest
  | cons d ds =>
    obtain ⟨h, ts, hd⟩ := tokens_hash d
    rw [List.flatMap_cons, hd]
    rintro _ ⟨⟩
    exact .inr ⟨h, rfl⟩

theorem readDirectives_cons (d : Directive) (hrest : LineEnds rest) (fuel : Nat) :
    readDirectives (fuel + 1) (d.tokens ++ rest) =
      (d :: (readDirectives fuel rest).1, (readDirectives fuel rest).2) := by
  obtain ⟨h, ts, hd, hread⟩ := readDirective_own d hrest
  rw [hd, List.cons_append, readDirectives, hread]

theorem readDirectives_tokens (ds : List Directive) (hrest : LineEnds rest) (fuel : Nat) :
    readDirectives (ds.length + fuel) (ds.flatMap Directive.tokens ++ rest) =
      (ds ++ (readDirectives fuel rest).1, (readDirectives fuel rest).2) := by
  induction ds with
  | nil =>
    rw [List.length_nil, Nat.zero_add]
    rfl
  | cons d ds ih =>
    rw [List.flatMap_cons, List.append_assoc, List.length_cons, Nat.add_right_comm,
      readDirectives_cons d (lineEnds_directives ds hrest), ih]
    rfl

/-- At an instruction the directives end. -/
theorem readDirectives_instruction (hrest : InstructionComes rest) (fuel : Nat) :
    readDirectives fuel rest = ([], .before rest) := by
  cases rest with
  | nil => cases fuel <;> rfl
  | cons t more =>
    obtain ⟨m, rfl⟩ := hrest t rfl
    cases fuel <;> rfl

theorem length_le_directives (ds : List Directive) :
    ds.length ≤ (ds.flatMap Directive.tokens).length := by
  induction ds with
  | nil => exact Nat.le_refl 0
  | cons d ds ih =>
    obtain ⟨h, ts, hd⟩ := tokens_hash d
    rw [List.flatMap_cons, List.length_append, hd, List.length_cons, List.length_cons]
    omega

end

/-! ## Programs -/

/-- The actions of `DIRECTIVE_SECTION`. -/
def directiveSection (ds : List Directive) (b : PicoGpuBinary) : Except ParseStop PicoGpuBinary := do
  let b ← ds.foldlM (fun b d => d.action b) b
  let b ← calling b.finalizeDirectives
  validateBinary b

/-- The actions of `INSTRUCTION_SECTION`. -/
def instructionSection (ss : List SourceInstruction) (b : PicoGpuBinary) :
    Except ParseStop PicoGpuBinary := do
  let b ← ss.foldlM (fun b s => s.action b) b
  let b ← calling b.finalizeInstructions
  validateBinary b

section
variable {ts rest : List Token} {ds : List Directive} {ss : List SourceInstruction}
  {b : PicoGpuBinary}

theorem parse_section (h : readDirectives ts.length ts = (ds, .before rest)) (hds : ds ≠ []) :
    Grammar.parse ts b = directiveSection ds b >>= Grammar.parseInstructions rest := by
  obtain ⟨d, more, rfl⟩ := List.exists_cons_of_ne_nil hds
  unfold Grammar.parse directiveSection
  rw [h]
  simp only [bind_assoc]

theorem parse_inside (h : readDirectives ts.length ts = (ds, .inside)) :
    Grammar.parse ts b = ds.foldlM (fun b d => d.action b) b >>= fun _ => syntaxError := by
  unfold Grammar.parse
  rw [h]
  cases ds <;> rfl

theorem parseInstructions_section (h : readInstructions ts.length ts = (ss, .before rest))
    (hss : ss ≠ []) : Grammar.parseInstructions ts b =
      instructionSection ss b >>= fun b => if rest = [] then .ok b else syntaxError := by
  obtain ⟨s, more, rfl⟩ := List.exists_cons_of_ne_nil hss
  unfold Grammar.parseInstructions instructionSection
  rw [h]
  simp only [bind_assoc]

theorem parseInstructions_inside (h : readInstructions ts.length ts = (ss, .inside)) :
    Grammar.parseInstructions ts b =
      ss.foldlM (fun b s => s.action b) b >>= fun _ => syntaxError := by
  unfold Grammar.parseInstructions
  rw [h]
  cases ss <;> rfl

end

theorem instructionComes_program (ss : List SourceInstruction) :
    InstructionComes (ss.flatMap SourceInstruction.tokens) := by
  have h := @instructionComes_flatMap [] ss nofun
  rwa [List.append_nil] at h

/-- The parser of the tokens does what the productions of the derivation do. -/
theorem parse_tokens (p : Program) (b : PicoGpuBinary) : Grammar.parse p.tokens b = p.parse b := by
  have hinstructions := instructionComes_program p.instructions
  have hdirectives : readDirectives p.tokens.length p.tokens =
      (p.directives, .before (p.instructions.flatMap SourceInstruction.tokens)) := by
    obtain ⟨fuel, hfuel⟩ : ∃ fuel, p.tokens.length = p.directives.length + fuel := by
      have hle := length_le_directives p.directives
      refine Nat.exists_eq_add_of_le ?_
      rw [Program.tokens, List.length_append]
      omega
    rw [hfuel, Program.tokens, readDirectives_tokens p.directives hinstructions.lineEnds,
      readDirectives_instruction hinstructions, List.append_nil]
  have hread : readInstructions (p.instructions.flatMap SourceInstruction.tokens).length
      (p.instructions.flatMap SourceInstruction.tokens) = (p.instructions, .before []) := by
    obtain ⟨fuel, hfuel⟩ := Nat.exists_eq_add_of_le (length_le_tokens p.instructions)
    have h := @readInstructions_tokens [] p.instructions nofun fuel
    rw [List.append_nil, readInstructions_nil, List.append_nil] at h
    rw [hfuel, h]
  rw [parse_section hdirectives p.directives_ne]
  show p.parseDirectives b >>= _ = p.parseDirectives b >>= p.parseInstructions
  refine congrArg _ (funext fun b' => ?_)
  rw [parseInstructions_section hread p.instructions_ne]
  show p.parseInstructions b' >>= _ = _
  cases p.parseInstructions b' <;> rfl

end PicoGpu
