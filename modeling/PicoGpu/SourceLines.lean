import PicoGpu.Grammar
import PicoGpu.OutOfRange

/- The lines of a source text with out-of-range registers. For each line that is written
   with one it is found what the parser reads: an `iinit` whose destination is out of range
   takes the rest of the number as its first value, and reads on; wherever else such a
   register stands the number is one token too many. -/
namespace PicoGpu

/-- What may stand in a text for tokens of the grammar. -/
inductive Stands : List Token → List Written → Prop
  | nil : Stands [] []
  | token {ts : List Token} {ws : List Written} (t : Token) (h : Stands ts ws) :
    Stands (t :: ts) (.token t :: ws)
  | outOfRange {ts : List Token} {ws : List Written} (r : RegisterIndex) (digits : List Char)
    (h : Stands ts ws) : Stands (.reg r :: ts) (.outOfRange digits :: ws)
  | outOfRangeDot {ts : List Token} {ws : List Written} (r : RegisterIndex) (digits : List Char)
    (h : Stands ts ws) : Stands (.reg r :: .dot :: ts) (.outOfRangeDot digits :: ws)

/-- A line of the directive section, as it stands in the text. -/
structure DirectiveLine where
  directive : Directive
  written : List Written
  stands : Stands directive.tokens written

structure InstructionLine where
  instruction : SourceInstruction
  written : List Written
  stands : Stands instruction.tokens written

/-- Some register is out of range. -/
def HasOutOfRange (ws : List Written) : Prop := ∃ w ∈ ws, w.IsOutOfRange

namespace Stands

variable {ts us : List Token} {ws : List Written}

theorem refl : ∀ ts : List Token, Stands ts (ts.map .token)
  | [] => .nil
  | t :: ts => .token t (refl ts)

/-- No register stands across the end of a line. -/
theorem append_inv {all : List Token} (h : Stands all ws) (hall : all = ts ++ us)
    (hus : us.head? ≠ some .dot) :
    ∃ ws1 ws2, ws = ws1 ++ ws2 ∧ Stands ts ws1 ∧ Stands us ws2 := by
  induction h generalizing ts with
  | nil =>
    obtain ⟨rfl, rfl⟩ := List.append_eq_nil_iff.mp hall.symm
    exact ⟨[], [], rfl, .nil, .nil⟩
  | token t h ih =>
    cases ts with
    | nil =>
      cases hall
      exact ⟨[], _, rfl, .nil, .token t h⟩
    | cons t' ts =>
      obtain ⟨hhead, htail⟩ := List.cons.inj hall
      obtain ⟨ws1, ws2, rfl, h1, h2⟩ := ih htail
      subst hhead
      exact ⟨.token t :: ws1, ws2, rfl, .token t h1, h2⟩
  | outOfRange r digits h ih =>
    cases ts with
    | nil =>
      cases hall
      exact ⟨[], _, rfl, .nil, .outOfRange r digits h⟩
    | cons t' ts =>
      obtain ⟨hhead, htail⟩ := List.cons.inj hall
      obtain ⟨ws1, ws2, rfl, h1, h2⟩ := ih htail
      subst hhead
      exact ⟨.outOfRange digits :: ws1, ws2, rfl, .outOfRange r digits h1, h2⟩
  | outOfRangeDot r digits h ih =>
    match ts with
    | [] =>
      cases hall
      exact ⟨[], _, rfl, .nil, .outOfRangeDot r digits h⟩
    | [_] =>
      -- the dot would begin the next line
      cases hall
      exact absurd rfl hus
    | t' :: t'' :: ts =>
      obtain ⟨hhead, htail⟩ := List.cons.inj hall
      obtain ⟨hdot, htail⟩ := List.cons.inj htail
      obtain ⟨ws1, ws2, rfl, h1, h2⟩ := ih htail
      subst hhead hdot
      exact ⟨.outOfRangeDot digits :: ws1, ws2, rfl, .outOfRangeDot r digits h1, h2⟩

theorem append {us' : List Token} {ws' : List Written} (h : Stands ts ws) (h' : Stands us' ws') :
    Stands (ts ++ us') (ws ++ ws') := by
  induction h with
  | nil => exact h'
  | token t _ ih => exact .token t ih
  | outOfRange r digits _ ih => exact .outOfRange r digits ih
  | outOfRangeDot r digits _ ih => exact .outOfRangeDot r digits ih

/-- Only tokens stand for tokens that are no registers. -/
theorem no_register (h : Stands ts ws) (hts : ∀ r, Token.reg r ∉ ts) : ws = ts.map .token := by
  induction h with
  | nil => rfl
  | token t h ih =>
    rw [ih fun r hr => hts r (List.mem_cons_of_mem _ hr)]
    rfl
  | outOfRange r => exact absurd List.mem_cons_self (hts r)
  | outOfRangeDot r => exact absurd List.mem_cons_self (hts r)

/-- A line without out-of-range registers is written as it is. -/
theorem in_range (h : Stands ts ws) (hws : ¬ HasOutOfRange ws) : ws = ts.map .token := by
  induction h with
  | nil => rfl
  | token t h ih =>
    rw [ih fun ⟨w, hw, hout⟩ => hws ⟨w, List.mem_cons_of_mem _ hw, hout⟩]
    rfl
  | outOfRange => exact absurd ⟨_, List.mem_cons_self, trivial⟩ hws
  | outOfRangeDot => exact absurd ⟨_, List.mem_cons_self, trivial⟩ hws

end Stands

/-! ## Readers on their own tokens -/

namespace Grammar

variable {ts rest : List Token}

theorem readRegMask_tokens (m : RegMask) (hrest : ∀ v, rest.head? ≠ some (.vecComponent v)) :
    readRegMask (m.tokens ++ rest) = some (m, rest) := by
  cases rest with
  | nil => cases m <;> rfl
  | cons t more =>
    cases t with
    | vecComponent v => exact absurd rfl (hrest v)
    | _ => cases m <;> rfl

theorem readDstReg_tokens (dst : DstReg) (hdot : rest.head? ≠ some .dot)
    (hvec : ∀ v, rest.head? ≠ some (.vecComponent v)) :
    readDstReg (dst.tokens ++ rest) = some (dst, rest) := by
  cases dst with
  | reg r =>
    cases rest with
    | nil => rfl
    | cons t more =>
      cases t with
      | dot => exact absurd rfl hdot
      | _ => rfl
  | masked r m =>
    have hread := readRegMask_tokens m hvec
    show (readRegMask (m.tokens ++ rest)).map _ = _
    rw [hread]
    rfl

theorem readImmediates_tokens {α : Type} {number : Token → Option α} {token : α → Token}
    (hnumber : ∀ a, number (token a) = some a) (imms : Immediates α)
    (hrest : ∀ t ∈ rest.head?, number t = none) :
    readImmediates number (imms.toList.map token ++ rest) = some (imms, rest) := by
  have hhead : rest.map number = [] ∨ ∃ more, rest.map number = none :: more := by
    cases rest with
    | nil => exact .inl rfl
    | cons t more => exact .inr ⟨more.map number, by rw [List.map_cons, hrest t rfl]⟩
  unfold readImmediates
  cases imms with
  | four =>
    simp only [Immediates.toList, List.map_cons, List.map_nil, List.cons_append, List.nil_append,
      hnumber]
    rfl
  | one | two | three =>
    simp only [Immediates.toList, List.map_cons, List.map_nil, List.cons_append, List.nil_append,
      hnumber]
    rcases hhead with hnil | ⟨more, hcons⟩
    · rw [hnil]
      rfl
    · rw [hcons]
      rfl

end Grammar

/-! ## Registers out of range -/

def Token.IsNumber (t : Token) : Prop := (∃ i, t = .numberInt i) ∨ ∃ f, t = .numberFloat f

section
variable {numbers : NumberReader} {dst : DstReg} {ts : List Token} {ws : List Written}

/-- What the scanner makes of what stands in a text. -/
def scannedAll (numbers : NumberReader) (ws : List Written) : List Token :=
  ws.flatMap (Scanner.scanned numbers)

theorem scannedAll_cons (w : Written) (ws : List Written) : scannedAll numbers (w :: ws) =
    Scanner.scanned numbers w ++ scannedAll numbers ws := List.flatMap_cons

theorem scannedAll_append (ws ws' : List Written) :
    scannedAll numbers (ws ++ ws') = scannedAll numbers ws ++ scannedAll numbers ws' :=
  List.flatMap_append

theorem scannedAll_tokens (ts : List Token) : scannedAll numbers (ts.map .token) = ts := by
  induction ts with
  | nil => rfl
  | cons t ts ih =>
    show t :: scannedAll numbers (ts.map .token) = t :: ts
    rw [ih]

/-- A register that no dot follows. -/
theorem Stands.reg_inv {r : RegisterIndex} (h : Stands (.reg r :: ts) ws)
    (hts : ts.head? ≠ some .dot) : ∃ w ws', ws = w :: ws' ∧ Stands ts ws' ∧
      (w = .token (.reg r) ∨ ∃ digits, w = .outOfRange digits) := by
  cases h with
  | token _ h => exact ⟨_, _, rfl, h, .inl rfl⟩
  | outOfRange _ digits h => exact ⟨_, _, rfl, h, .inr ⟨digits, rfl⟩⟩
  | outOfRangeDot => exact absurd rfl hts

theorem mem_pattern {t : Token} {l : List SwizzlePatternComponent}
    (h : t ∈ Token.dot :: l.map .vecComponent) : t = .dot ∨ ∃ v, t = .vecComponent v := by
  rcases List.mem_cons.mp h with h | h
  · exact .inl h
  · obtain ⟨v, -, rfl⟩ := List.mem_map.mp h
    exact .inr ⟨v, rfl⟩

/-- No register stands in a mask or a pattern. -/
theorem pattern_no_register (l : List SwizzlePatternComponent) :
    ∀ r, Token.reg r ∉ Token.dot :: l.map .vecComponent := by
  intro r hr
  obtain h | ⟨v, h⟩ := mem_pattern hr <;> cases h

/-- A destination is written in range, or a number follows the register that is read. -/
theorem dst_cases (h : Stands dst.tokens ws) : ws = dst.tokens.map .token ∨
    ∃ r t more, scannedAll numbers ws = .reg r :: t :: more ∧ t.IsNumber ∧
      ∀ m, .mnemonic m ∉ more := by
  have hmask : ∀ m : RegMask, ∀ r, Token.reg r ∉ m.tokens :=
    fun m => pattern_no_register m.components
  have hmnemonic : ∀ m : RegMask, ∀ mnemonic, Token.mnemonic mnemonic ∉ m.tokens := by
    intro m mnemonic hm
    obtain h | ⟨v, h⟩ := mem_pattern hm <;> cases h
  cases dst with
  | reg r =>
    obtain ⟨w, ws', rfl, hnil, hw⟩ := h.reg_inv nofun
    cases hnil
    rcases hw with rfl | ⟨ds, rfl⟩
    · exact .inl rfl
    · exact .inr ⟨_, _, [], rfl, .inl ⟨_, rfl⟩, nofun⟩
  | masked r m =>
    cases h with
    | token _ h =>
      rw [h.no_register (hmask m)]
      exact .inl rfl
    | outOfRange _ ds h =>
      rw [h.no_register (hmask m)]
      have hscanned := @scannedAll_cons numbers (.outOfRange ds) (m.tokens.map .token)
      rw [scannedAll_tokens] at hscanned
      exact .inr ⟨_, _, m.tokens, hscanned, .inl ⟨_, rfl⟩, hmnemonic m⟩
    | outOfRangeDot _ ds h =>
      have hcomponents : ∀ r, Token.reg r ∉ m.components.map .vecComponent :=
        fun r hr => hmask m r (List.mem_cons_of_mem _ hr)
      rw [h.no_register hcomponents]
      have hscanned := @scannedAll_cons numbers (.outOfRangeDot ds)
        ((m.components.map Token.vecComponent).map .token)
      rw [scannedAll_tokens] at hscanned
      exact .inr ⟨_, _, m.components.map .vecComponent, hscanned, .inr ⟨_, rfl⟩,
        fun mnemonic hr => hmnemonic m mnemonic (List.mem_cons_of_mem _ hr)⟩

/-- The tokens of an operand begin with a register or a number. -/
def StartsOperand (ts : List Token) : Prop :=
  ∃ t more, ts = t :: more ∧ ((∃ r, t = .reg r) ∨ t.IsNumber)

theorem Stands.startsOperand (h : Stands ts ws) (hts : StartsOperand ts) :
    StartsOperand (scannedAll numbers ws) := by
  obtain ⟨t, more, rfl, ht⟩ := hts
  cases h with
  | token => exact ⟨t, _, rfl, ht⟩
  | outOfRange => exact ⟨_, _, rfl, .inl ⟨_, rfl⟩⟩
  | outOfRangeDot => exact ⟨_, _, rfl, .inl ⟨_, rfl⟩⟩

theorem StartsOperand.heads {rest : List Token} (h : StartsOperand ts) :
    (ts ++ rest).head? ≠ some .dot ∧ (∀ v, (ts ++ rest).head? ≠ some (.vecComponent v)) ∧
      ∃ t more, ts = t :: more ∧ ∀ m, t ≠ .mnemonic m := by
  obtain ⟨t, more, rfl, ⟨r, rfl⟩ | ⟨i, rfl⟩ | ⟨f, rfl⟩⟩ := h
  all_goals exact ⟨nofun, nofun, _, _, rfl, nofun⟩

theorem hasOutOfRange_append {ws' : List Written} (h : HasOutOfRange (ws ++ ws')) :
    HasOutOfRange ws ∨ HasOutOfRange ws' := by
  obtain ⟨w, hw, hout⟩ := h
  rcases List.mem_append.mp hw with hw | hw
  · exact .inl ⟨w, hw, hout⟩
  · exact .inr ⟨w, hw, hout⟩

theorem not_hasOutOfRange_tokens (ts : List Token) : ¬ HasOutOfRange (ts.map .token) := by
  rintro ⟨w, hw, hout⟩
  obtain ⟨t, -, rfl⟩ := List.mem_map.mp hw
  exact hout

theorem Token.IsNumber.readReg {t : Token} (h : t.IsNumber) (ts : List Token) :
    Grammar.readReg (t :: ts) = none := by
  obtain ⟨i, rfl⟩ | ⟨f, rfl⟩ := h <;> rfl

open Grammar

/-- An operand is read as it is meant, and what is out of range stands behind it, or a number
    follows it. -/
def ReadsOperand (numbers : NumberReader) {α : Type} (read : Reader α) (a : α) (ts : List Token)
    (ws : List Written) : Prop :=
  (∃ ws', Stands ts ws' ∧ (HasOutOfRange ws → HasOutOfRange ws') ∧
      ∀ rest, read (scannedAll numbers ws ++ rest) = some (a, scannedAll numbers ws' ++ rest)) ∨
    ∃ a' t more ws', t.IsNumber ∧ (∀ m, .mnemonic m ∉ more) ∧ Stands ts ws' ∧ ∀ rest,
      read (scannedAll numbers ws ++ rest) = some (a', t :: more ++ scannedAll numbers ws' ++ rest)

theorem Stands.readReg {src : RegisterIndex} (h : Stands (.reg src :: ts) ws)
    (hts : ts.head? ≠ some .dot) : ReadsOperand numbers Grammar.readReg src ts ws := by
  obtain ⟨w, ws', rfl, h', rfl | ⟨digits, rfl⟩⟩ := h.reg_inv hts
  · refine .inl ⟨ws', h', ?_, fun rest => rfl⟩
    rintro ⟨w, hw, hout⟩
    rcases List.mem_cons.mp hw with rfl | hw
    · exact hout.elim
    · exact ⟨w, hw, hout⟩
  · exact .inr ⟨_, _, [], ws', .inl ⟨_, rfl⟩, nofun, h', fun rest => rfl⟩

theorem Stands.readDstReg (h : Stands (dst.tokens ++ ts) ws) (hts : StartsOperand ts) :
    ReadsOperand numbers Grammar.readDstReg dst ts ws := by
  obtain ⟨wd, wt, rfl, hd, ht⟩ := h.append_inv rfl (by
    have hheads := @StartsOperand.heads ts [] hts
    rw [List.append_nil] at hheads
    exact hheads.1)
  rcases @dst_cases numbers dst wd hd with rfl | ⟨r, t, more, hscanned, hnumber, hmore⟩
  · refine .inl ⟨wt, ht, ?_, fun rest => ?_⟩
    · intro hout
      exact (hasOutOfRange_append hout).resolve_left (not_hasOutOfRange_tokens _)
    · have hstarts : StartsOperand (scannedAll numbers wt) := ht.startsOperand hts
      obtain ⟨hdot, hvec, -⟩ := @StartsOperand.heads _ rest hstarts
      rw [scannedAll_append, scannedAll_tokens, List.append_assoc]
      exact readDstReg_tokens dst hdot hvec
  · refine .inr ⟨.reg r, t, more, wt, hnumber, hmore, ht, fun rest => ?_⟩
    rw [scannedAll_append, hscanned]
    obtain ⟨i, rfl⟩ | ⟨f, rfl⟩ := hnumber <;> rfl

/-! ## Lines that are not read to their end -/

/-- The reader finds no instruction, or one that a token follows that begins no line. -/
def GivesUp (read : Reader SourceInstruction) (ts : List Token) : Prop :=
  (∀ rest, read (ts ++ rest) = none) ∨
    ∃ s t more, (∀ m, t ≠ .mnemonic m) ∧ ∀ rest, read (ts ++ rest) = some (s, t :: more ++ rest)

variable {src src1 src2 src3 : RegisterIndex}

theorem not_hasOutOfRange_nil (h : Stands [] ws) : ¬ HasOutOfRange ws := by
  cases h
  rintro ⟨w, hw, -⟩
  cases hw

theorem Token.IsNumber.not_mnemonic {t : Token} (h : t.IsNumber) : ∀ m, t ≠ .mnemonic m := by
  obtain ⟨i, rfl⟩ | ⟨f, rfl⟩ := h <;> exact nofun

theorem Token.IsNumber.not_reg {t : Token} (h : t.IsNumber) : ∀ r, t ≠ .reg r := by
  obtain ⟨i, rfl⟩ | ⟨f, rfl⟩ := h <;> exact nofun

theorem Token.IsNumber.not_dot {t : Token} (h : t.IsNumber) : t ≠ .dot := by
  obtain ⟨i, rfl⟩ | ⟨f, rfl⟩ := h <;> exact nofun

theorem startsOperand_reg (r : RegisterIndex) (ts : List Token) : StartsOperand (.reg r :: ts) :=
  ⟨_, _, rfl, .inl ⟨r, rfl⟩⟩

/-- An operand and what is read behind it. -/
theorem ReadsOperand.givesUp {α : Type} {read : Reader α} {a : α}
    (h : ReadsOperand numbers read a ts ws) (hout : HasOutOfRange ws)
    {next : α → Reader SourceInstruction}
    (hnext : ∀ ws', Stands ts ws' → HasOutOfRange ws' → GivesUp (next a) (scannedAll numbers ws'))
    (hnumber : ∀ a' t more ws', t.IsNumber → (∀ m, .mnemonic m ∉ more) → Stands ts ws' →
      GivesUp (next a') (t :: more ++ scannedAll numbers ws')) :
    GivesUp (read.then next) (scannedAll numbers ws) := by
  have hthen : ∀ a' us, (∀ rest, read (scannedAll numbers ws ++ rest) = some (a', us ++ rest)) →
      GivesUp (next a') us → GivesUp (read.then next) (scannedAll numbers ws) := by
    rintro a' us hread (hnone | ⟨s, t, more, ht, hsome⟩)
    · refine .inl fun rest => ?_
      rw [Reader.then, hread]
      exact hnone rest
    · refine .inr ⟨s, t, more, ht, fun rest => ?_⟩
      rw [Reader.then, hread]
      exact hsome rest
  rcases h with ⟨ws', h', hout', hread⟩ | ⟨a', t, more, ws', ht, hmore, h', hread⟩
  · exact hthen a _ hread (hnext ws' h' (hout' hout))
  · exact hthen a' _ hread (hnumber a' t more ws' ht hmore h')

/-- A register is wanted where the number stands. -/
theorem givesUp_number {t : Token} (h : t.IsNumber) (more : List Token)
    (next : RegisterIndex → Reader SourceInstruction) :
    GivesUp (Grammar.readReg.then next) (t :: more) := by
  refine .inl fun rest => ?_
  rw [List.cons_append, Reader.then, h.readReg]

/-- The instruction is complete where the number stands. -/
theorem givesUp_surplus {t : Token} (h : t.IsNumber) (s : SourceInstruction) (more : List Token) :
    GivesUp (complete s) (t :: more) :=
  .inr ⟨s, t, more, h.not_mnemonic, fun _ => rfl⟩

theorem readUnary_givesUp {f : DstReg → RegisterIndex → SourceInstruction}
    (h : Stands (dst.tokens ++ [.reg src]) ws) (hout : HasOutOfRange ws) :
    GivesUp (readUnary f) (scannedAll numbers ws) := by
  refine (h.readDstReg (startsOperand_reg src _)).givesUp hout (fun ws1 h1 hout1 => ?_)
    fun _ _ _ _ ht _ _ => givesUp_number ht _ _
  refine (h1.readReg nofun).givesUp hout1 (fun ws2 h2 hout2 => ?_)
    fun _ _ _ _ ht _ _ => givesUp_surplus ht _ _
  exact absurd hout2 (not_hasOutOfRange_nil h2)

theorem readBinary_givesUp {f : DstReg → RegisterIndex → RegisterIndex → SourceInstruction}
    (h : Stands (dst.tokens ++ [.reg src1, .reg src2]) ws) (hout : HasOutOfRange ws) :
    GivesUp (readBinary f) (scannedAll numbers ws) := by
  refine (h.readDstReg (startsOperand_reg src1 _)).givesUp hout (fun ws1 h1 hout1 => ?_)
    fun _ _ _ _ ht _ _ => givesUp_number ht _ _
  refine (h1.readReg nofun).givesUp hout1 (fun ws2 h2 hout2 => ?_)
    fun _ _ _ _ ht _ _ => givesUp_number ht _ _
  refine (h2.readReg nofun).givesUp hout2 (fun ws3 h3 hout3 => ?_)
    fun _ _ _ _ ht _ _ => givesUp_surplus ht _ _
  exact absurd hout3 (not_hasOutOfRange_nil h3)

theorem readTernary_givesUp
    {f : DstReg → RegisterIndex → RegisterIndex → RegisterIndex → SourceInstruction}
    (h : Stands (dst.tokens ++ [.reg src1, .reg src2, .reg src3]) ws) (hout : HasOutOfRange ws) :
    GivesUp (readTernary f) (scannedAll numbers ws) := by
  refine (h.readDstReg (startsOperand_reg src1 _)).givesUp hout (fun ws1 h1 hout1 => ?_)
    fun _ _ _ _ ht _ _ => givesUp_number ht _ _
  refine (h1.readReg nofun).givesUp hout1 (fun ws2 h2 hout2 => ?_)
    fun _ _ _ _ ht _ _ => givesUp_number ht _ _
  refine (h2.readReg nofun).givesUp hout2 (fun ws3 h3 hout3 => ?_)
    fun _ _ _ _ ht _ _ => givesUp_number ht _ _
  refine (h3.readReg nofun).givesUp hout3 (fun ws4 h4 hout4 => ?_)
    fun _ _ _ _ ht _ _ => givesUp_surplus ht _ _
  exact absurd hout4 (not_hasOutOfRange_nil h4)

theorem readFcross_givesUp {r : RegisterIndex} (h : Stands [.reg r, .reg src1, .reg src2] ws)
    (hout : HasOutOfRange ws) : GivesUp readFcross (scannedAll numbers ws) := by
  refine (h.readReg nofun).givesUp hout (fun ws1 h1 hout1 => ?_)
    fun _ _ _ _ ht _ _ => givesUp_number ht _ _
  refine (h1.readReg nofun).givesUp hout1 (fun ws2 h2 hout2 => ?_)
    fun _ _ _ _ ht _ _ => givesUp_number ht _ _
  refine (h2.readReg nofun).givesUp hout2 (fun ws3 h3 hout3 => ?_)
    fun _ _ _ _ ht _ _ => givesUp_surplus ht _ _
  exact absurd hout3 (not_hasOutOfRange_nil h3)

/-- A number where a source or a number may stand: it is taken, and what should have stood
    there is left. -/
theorem readRegOrNumber_givesUp {α : Type} {number : Token → Option α}
    {f : RegisterIndex → SourceInstruction} {g : α → SourceInstruction} {t t' : Token}
    (ht : t.IsNumber) (ht' : ∀ m, t' ≠ .mnemonic m) (more : List Token) :
    GivesUp (readRegOrNumber number f g) (t :: t' :: more) := by
  have hread : ∀ us, readRegOrNumber number f g (t :: us) = (number t).map fun a => (g a, us) := by
    obtain ⟨i, rfl⟩ | ⟨x, rfl⟩ := ht <;> exact fun _ => rfl
  cases hnumber : number t with
  | none =>
    refine .inl fun rest => ?_
    rw [List.cons_append, hread, hnumber]
    rfl
  | some a =>
    refine .inr ⟨g a, t', more, ht', fun rest => ?_⟩
    rw [List.cons_append, hread, hnumber]
    rfl

section
variable {α : Type} {number : Token → Option α}
  {f : DstReg → RegisterIndex → RegisterIndex → SourceInstruction}
  {g : DstReg → RegisterIndex → α → SourceInstruction}

/-- A number before the last operand. -/
theorem readRegOrNumber_surplus {f : RegisterIndex → SourceInstruction} {g : α → SourceInstruction}
    {t : Token} {more : List Token} (ht : t.IsNumber) (hmore : ∀ m, .mnemonic m ∉ more)
    (h : StartsOperand (scannedAll numbers ws)) :
    GivesUp (readRegOrNumber number f g) (t :: more ++ scannedAll numbers ws) := by
  obtain ⟨t', more', htail, ht'⟩ := (@StartsOperand.heads _ [] h).2.2
  rw [htail]
  cases more with
  | nil => exact readRegOrNumber_givesUp ht ht' more'
  | cons t'' more =>
    refine readRegOrNumber_givesUp ht (fun m heq => hmore m ?_) _
    rw [heq]
    exact List.mem_cons_self

theorem readBinaryImm_givesUp (h : Stands (dst.tokens ++ [.reg src1, .reg src2]) ws)
    (hout : HasOutOfRange ws) : GivesUp (readBinaryImm number f g) (scannedAll numbers ws) := by
  refine (h.readDstReg (startsOperand_reg src1 _)).givesUp hout (fun ws1 h1 hout1 => ?_)
    fun _ _ _ _ ht _ _ => givesUp_number ht _ _
  refine (h1.readReg nofun).givesUp hout1 (fun ws2 h2 hout2 => ?_)
    fun _ _ _ _ ht hmore h2 =>
      readRegOrNumber_surplus ht hmore (h2.startsOperand (startsOperand_reg src2 []))
  -- only the last operand is out of range
  obtain ⟨w, ws3, rfl, hnil, rfl | ⟨digits, rfl⟩⟩ := h2.reg_inv nofun
  · cases hnil
    exact absurd hout2 (not_hasOutOfRange_tokens [.reg src2])
  · cases hnil
    exact .inr ⟨f dst src1 _, .numberInt _, [], nofun, fun rest => rfl⟩

theorem readBinaryNumber_givesUp {t : Token} (ht : t.IsNumber)
    (h : Stands (dst.tokens ++ [.reg src, t]) ws) (hout : HasOutOfRange ws) :
    GivesUp (readBinaryImm number f g) (scannedAll numbers ws) := by
  have hstarts : StartsOperand [t] := ⟨t, [], rfl, .inr ht⟩
  have hregs : ∀ r, .reg r ∉ [t] := fun r hr => ht.not_reg r (List.mem_singleton.mp hr).symm
  refine (h.readDstReg (startsOperand_reg src _)).givesUp hout (fun ws1 h1 hout1 => ?_)
    fun _ _ _ _ ht _ _ => givesUp_number ht _ _
  have hdot : [t].head? ≠ some .dot := (@StartsOperand.heads _ [] hstarts).1
  refine (h1.readReg hdot).givesUp hout1 (fun ws2 h2 hout2 => ?_)
    fun _ _ _ _ ht hmore h2 => readRegOrNumber_surplus ht hmore (h2.startsOperand hstarts)
  rw [h2.no_register hregs] at hout2
  exact absurd hout2 (not_hasOutOfRange_tokens [t])

end

theorem readSwizzle_givesUp {r : RegisterIndex} {pattern : List SwizzlePatternComponent}
    (h : Stands (.reg r :: .reg src :: .dot :: pattern.map .vecComponent) ws)
    (hout : HasOutOfRange ws) : GivesUp readSwizzle (scannedAll numbers ws) := by
  refine (h.readReg nofun).givesUp hout (fun ws1 h1 hout1 => ?_)
    fun _ _ _ _ ht _ _ => givesUp_number ht _ _
  cases h1 with
  | outOfRange | outOfRangeDot => exact .inl fun rest => rfl
  | token _ h2 =>
    rw [h2.no_register (pattern_no_register pattern)] at hout1
    exact absurd hout1 (not_hasOutOfRange_tokens (.reg src :: .dot :: pattern.map .vecComponent))

/-! ### Immediate values -/

/-- How the destination of a line with immediate values is written out of range. -/
theorem init_cases {α : Type} {token : α → Token} (htoken : ∀ a, (token a).IsNumber)
    {imms : Immediates α} (h : Stands (dst.tokens ++ imms.toList.map token) ws)
    (hout : HasOutOfRange ws) :
    (∃ r a i, dst = .reg r ∧
      scannedAll numbers ws = .reg a :: .numberInt i :: imms.toList.map token) ∨
    (∃ a i more, (∃ r m, dst = .masked r m) ∧
      scannedAll numbers ws = .reg a :: .numberInt i :: .dot :: more) ∨
    ∃ a f v more, (∃ r m, dst = .masked r m) ∧
      scannedAll numbers ws = .reg a :: .numberFloat f :: .vecComponent v :: more := by
  have hregs : ∀ r, .reg r ∉ imms.toList.map token := by
    intro r hr
    obtain ⟨a, -, ha⟩ := List.mem_map.mp hr
    exact (htoken a).not_reg r ha
  have hdot : (imms.toList.map token).head? ≠ some .dot := by
    cases imms with
    | one a | two a | three a | four a => exact fun heq => (htoken a).not_dot (Option.some.inj heq)
  obtain ⟨wd, wt, rfl, hd, ht⟩ := h.append_inv rfl hdot
  rw [ht.no_register hregs] at hout ⊢
  rw [scannedAll_append, scannedAll_tokens]
  have hout := (hasOutOfRange_append hout).resolve_right (not_hasOutOfRange_tokens _)
  cases dst with
  | reg r =>
    obtain ⟨w, ws', rfl, hnil, rfl | ⟨digits, rfl⟩⟩ := hd.reg_inv nofun
    · cases hnil
      exact absurd hout (not_hasOutOfRange_tokens [.reg r])
    · cases hnil
      exact .inl ⟨r, _, _, rfl, rfl⟩
  | masked r m =>
    have hmaskDot : ∀ r, .reg r ∉ m.tokens := pattern_no_register m.components
    have hmask : ∀ r, .reg r ∉ m.components.map Token.vecComponent :=
      fun r hr => hmaskDot r (List.mem_cons_of_mem _ hr)
    cases hd with
    | token _ hd =>
      rw [hd.no_register hmaskDot] at hout
      exact absurd hout (not_hasOutOfRange_tokens (.reg r :: m.tokens))
    | outOfRange _ ds hd =>
      rw [hd.no_register hmaskDot, scannedAll_cons, scannedAll_tokens]
      exact .inr (.inl ⟨_, _, _, ⟨r, m, rfl⟩, rfl⟩)
    | outOfRangeDot _ ds hd =>
      rw [hd.no_register hmask, scannedAll_cons, scannedAll_tokens]
      cases m <;> exact .inr (.inr ⟨_, _, _, _, ⟨_, _, rfl⟩, rfl⟩)

theorem readFinit_givesUp {imms : Immediates NumberFloat}
    (h : Stands (dst.tokens ++ imms.toList.map .numberFloat) ws) (hout : HasOutOfRange ws) :
    GivesUp (readInit float .finit) (scannedAll numbers ws) := by
  rcases @init_cases numbers dst ws _ _ (fun f => .inr ⟨f, rfl⟩) imms h hout with
    ⟨r, a, i, -, hscanned⟩ | ⟨a, i, more, -, hscanned⟩ | ⟨a, f, v, more, -, hscanned⟩
  · rw [hscanned]
    exact .inl fun rest => rfl
  · rw [hscanned]
    exact .inl fun rest => rfl
  · rw [hscanned]
    exact .inr ⟨.finit (.reg a) (.one f), .vecComponent v, more, nofun, fun rest => rfl⟩

/-- A fifth value is one too many, and a mask is out of place behind a value. -/
theorem readIinit_givesUp {imms : Immediates Dword}
    (h : Stands (dst.tokens ++ imms.toList.map .numberInt) ws) (hout : HasOutOfRange ws)
    (hlong : ∀ r, dst = .reg r → 3 < imms.toList.length) :
    GivesUp (readInit int .iinit) (scannedAll numbers ws) := by
  rcases @init_cases numbers dst ws _ _ (fun i => .inl ⟨i, rfl⟩) imms h hout with
    ⟨r, a, i, rfl, hscanned⟩ | ⟨a, i, more, -, hscanned⟩ | ⟨a, f, v, more, -, hscanned⟩
  · rw [hscanned]
    have hlong := hlong r rfl
    cases imms with
    | one | two | three => simp [Immediates.toList] at hlong
    | four i1 i2 i3 i4 =>
      exact .inr ⟨.iinit (.reg a) (.four i i1 i2 i3), .numberInt i4, [],
        Token.IsNumber.not_mnemonic (.inl ⟨i4, rfl⟩), fun rest => rfl⟩
  · rw [hscanned]
    refine .inr ⟨.iinit (.reg a) (.one i), .dot, more, ?_, fun rest => rfl⟩
    intro m h
    cases h
  · rw [hscanned]
    exact .inl fun rest => rfl

end

end PicoGpu
