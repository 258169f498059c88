import PicoGpu.SourceLines

/- What the parser reads of an instruction line. The readers take the longest instruction
   that the tokens begin with. A line in range is read as it is written, and so is an `iinit`
   that takes the rest of an out-of-range number as a value of its own; at any other
   out-of-range register the reading of the section ends. -/
namespace PicoGpu
open Grammar

/-! ## Instructions on their own tokens -/

section
variable {rest : List Token} {dst : DstReg} {src src1 src2 src3 : RegisterIndex}

theorem readDstReg_operand (dst : DstReg) {ts : List Token} (hts : StartsOperand ts)
    (rest : List Token) : readDstReg ((dst.tokens ++ ts) ++ rest) = some (dst, ts ++ rest) := by
  obtain ⟨hdot, hvec, -⟩ := @StartsOperand.heads ts rest hts
  rw [List.append_assoc]
  exact readDstReg_tokens dst hdot hvec

theorem readUnary_tokens (f : DstReg → RegisterIndex → SourceInstruction) :
    readUnary f ((dst.tokens ++ [.reg src]) ++ rest) = some (f dst src, rest) := by
  rw [readUnary, Reader.then, readDstReg_operand dst (startsOperand_reg src _)]
  rfl

theorem readBinary_tokens (f : DstReg → RegisterIndex → RegisterIndex → SourceInstruction) :
    readBinary f ((dst.tokens ++ [.reg src1, .reg src2]) ++ rest) =
      some (f dst src1 src2, rest) := by
  rw [readBinary, Reader.then, readDstReg_operand dst (startsOperand_reg src1 _)]
  rfl

theorem readTernary_tokens
    (f : DstReg → RegisterIndex → RegisterIndex → RegisterIndex → SourceInstruction) :
    readTernary f ((dst.tokens ++ [.reg src1, .reg src2, .reg src3]) ++ rest) =
      some (f dst src1 src2 src3, rest) := by
  rw [readTernary, Reader.then, readDstReg_operand dst (startsOperand_reg src1 _)]
  rfl

section
variable {α : Type} {number : Token → Option α}
  {f : DstReg → RegisterIndex → RegisterIndex → SourceInstruction}
  {g : DstReg → RegisterIndex → α → SourceInstruction}

theorem readBinaryImm_tokens :
    readBinaryImm number f g ((dst.tokens ++ [.reg src1, .reg src2]) ++ rest) =
      some (f dst src1 src2, rest) := by
  rw [readBinaryImm, Reader.then, readDstReg_operand dst (startsOperand_reg src1 _)]
  rfl

theorem readBinaryNumber_tokens {t : Token} {a : α} (ht : t.IsNumber) (ha : number t = some a) :
    readBinaryImm number f g ((dst.tokens ++ [.reg src, t]) ++ rest) =
      some (g dst src a, rest) := by
  rw [readBinaryImm, Reader.then, readDstReg_operand dst (startsOperand_reg src _)]
  show readRegOrNumber number (f dst src) (g dst src) (t :: rest) = _
  obtain ⟨i, rfl⟩ | ⟨x, rfl⟩ := ht
  · show (number (.numberInt i)).map _ = _
    rw [ha]
    rfl
  · show (number (.numberFloat x)).map _ = _
    rw [ha]
    rfl

end

/-- Where no immediate value ends the tokens, more of them may be read. -/
theorem readOperands_tokens (s : SourceInstruction) :
    (∃ dst imms, s = .finit dst imms) ∨ (∃ dst imms, s = .iinit dst imms) ∨
      ∃ m ts, s.tokens = .mnemonic m :: ts ∧
        ∀ rest, readOperands m (ts ++ rest) = some (s, rest) := by
  cases s
  case finit dst imms => exact .inl ⟨dst, imms, rfl⟩
  case iinit dst imms => exact .inr (.inl ⟨dst, imms, rfl⟩)
  all_goals refine .inr (.inr ⟨_, _, rfl, fun rest => ?_⟩)
  case fadd | fsub | fmul | fdiv | iadd | isub | imul | idiv => exact readBinaryImm_tokens
  case fadd_imm | fsub_imm | fmul_imm | fdiv_imm =>
    exact readBinaryNumber_tokens (.inr ⟨_, rfl⟩) rfl
  case iadd_imm | isub_imm | imul_imm | idiv_imm =>
    exact readBinaryNumber_tokens (.inl ⟨_, rfl⟩) rfl
  case fneg | frcp | fnorm | ineg | mov => exact readUnary_tokens _
  case fdot | fcross2 | fmax | fmin | imax | imin => exact readBinary_tokens _
  case fmad => exact readTernary_tokens _
  case fcross | swizzle | trap => rfl

end

section
variable {α : Type} {number : Token → Option α} {token : α → Token} {dst : DstReg}
  {rest : List Token} {f : DstReg → Immediates α → SourceInstruction}

theorem startsOperand_immediates (htoken : ∀ a, (token a).IsNumber) (imms : Immediates α) :
    StartsOperand (imms.toList.map token) := by
  cases imms <;> exact ⟨_, _, rfl, .inr (htoken _)⟩

theorem readInit_tokens (hnumber : ∀ a, number (token a) = some a)
    (htoken : ∀ a, (token a).IsNumber) (imms : Immediates α)
    (hrest : ∀ t ∈ rest.head?, number t = none) :
    readInit number f ((dst.tokens ++ imms.toList.map token) ++ rest) = some (f dst imms, rest) := by
  rw [readInit, Reader.then, readDstReg_operand dst (startsOperand_immediates htoken imms)]
  show (readImmediates number).then _ _ = _
  rw [Reader.then, readImmediates_tokens hnumber imms hrest]
  rfl

/-- As many values as there are are read, up to four. -/
theorem readImmediates_longest (hnumber : ∀ a, number (token a) = some a) (imms : Immediates α) :
    ∃ imms' rest', readImmediates number (imms.toList.map token ++ rest) = some (imms', rest') ∧
      rest'.length ≤ rest.length := by
  unfold readImmediates
  cases imms with
  | one | two | three =>
    simp only [Immediates.toList, List.map_cons, List.map_nil, List.cons_append, List.nil_append,
      hnumber]
    -- a branch for fewer values than there are contradicts what was read
    split <;> grind
  | four =>
    simp only [Immediates.toList, List.map_cons, List.map_nil, List.cons_append, List.nil_append,
      hnumber]
    exact ⟨_, _, rfl, Nat.le_refl _⟩

theorem readInit_longest (hnumber : ∀ a, number (token a) = some a)
    (htoken : ∀ a, (token a).IsNumber) (imms : Immediates α) :
    ∃ s' rest', readInit number f ((dst.tokens ++ imms.toList.map token) ++ rest) =
      some (s', rest') ∧ rest'.length ≤ rest.length := by
  obtain ⟨imms', rest', hread, hle⟩ := @readImmediates_longest _ _ _ rest hnumber imms
  refine ⟨f dst imms', rest', ?_, hle⟩
  rw [readInit, Reader.then, readDstReg_operand dst (startsOperand_immediates htoken imms)]
  show (readImmediates number).then _ _ = _
  rw [Reader.then, hread]
  rfl

end

/-- No value comes next. -/
def NoNumber (ts : List Token) : Prop := ∀ t ∈ ts.head?, int t = none ∧ float t = none

theorem readOperands_own (s : SourceInstruction) {rest : List Token} (hrest : NoNumber rest) :
    ∃ m ts, s.tokens = .mnemonic m :: ts ∧ readOperands m (ts ++ rest) = some (s, rest) := by
  rcases readOperands_tokens s with ⟨dst, imms, rfl⟩ | ⟨dst, imms, rfl⟩ | ⟨m, ts, hs, hread⟩
  · exact ⟨_, _, rfl, @readInit_tokens _ _ .numberFloat _ _ _ (fun _ => rfl) (fun f => .inr ⟨f, rfl⟩)
      imms fun t ht => (hrest t ht).2⟩
  · exact ⟨_, _, rfl, @readInit_tokens _ _ .numberInt _ _ _ (fun _ => rfl) (fun i => .inl ⟨i, rfl⟩)
      imms fun t ht => (hrest t ht).1⟩
  · exact ⟨m, ts, hs, hread rest⟩

/-- No less is read than what an instruction's tokens are. -/
theorem readOperands_atLeast (s : SourceInstruction) (rest : List Token) :
    ∃ m ts s' rest', s.tokens = .mnemonic m :: ts ∧
      readOperands m (ts ++ rest) = some (s', rest') ∧ rest'.length ≤ rest.length := by
  rcases readOperands_tokens s with ⟨dst, imms, rfl⟩ | ⟨dst, imms, rfl⟩ | ⟨m, ts, hs, hread⟩
  · obtain ⟨s', rest', hread, hle⟩ :=
      @readInit_longest _ float .numberFloat dst rest .finit (fun _ => rfl) (fun f => .inr ⟨f, rfl⟩) imms
    exact ⟨_, _, s', rest', rfl, hread, hle⟩
  · obtain ⟨s', rest', hread, hle⟩ :=
      @readInit_longest _ int .numberInt dst rest .iinit (fun _ => rfl) (fun i => .inl ⟨i, rfl⟩) imms
    exact ⟨_, _, s', rest', rfl, hread, hle⟩
  · exact ⟨m, ts, s, rest, hs, hread rest, Nat.le_refl _⟩

/-! ## What is read are the tokens -/

theorem then_some {α β : Type} {read : Reader α} {next : α → Reader β} {ts rest : List Token} {b : β}
    (h : read.then next ts = some (b, rest)) :
    ∃ a more, read ts = some (a, more) ∧ next a more = some (b, rest) := by
  unfold Reader.then at h
  split at h
  · cases h
  · exact ⟨_, _, by assumption, h⟩

section
variable {ts rest : List Token}

theorem readReg_sound {r : RegisterIndex} (h : readReg ts = some (r, rest)) :
    ts = .reg r :: rest := by
  unfold readReg at h
  split at h
  · cases h
    rfl
  · cases h

theorem readRegMask_sound {m : RegMask} (h : readRegMask ts = some (m, rest)) :
    ts = m.tokens ++ rest := by
  unfold readRegMask at h
  split at h
  all_goals first | (cases h; rfl) | cases h

theorem readDstReg_sound {dst : DstReg} (h : readDstReg ts = some (dst, rest)) :
    ts = dst.tokens ++ rest := by
  unfold readDstReg at h
  split at h
  · obtain ⟨⟨m, more⟩, hmask, hdst⟩ := Option.map_eq_some_iff.mp h
    cases hdst
    exact congrArg (List.cons (Token.reg _)) (readRegMask_sound hmask)
  · cases h
    rfl
  · cases h

theorem int_sound {t : Token} {i : Dword} (h : int t = some i) : t = .numberInt i := by
  cases t <;> cases h
  rfl

theorem float_sound {t : Token} {f : NumberFloat} (h : float t = some f) : t = .numberFloat f := by
  cases t <;> cases h
  rfl

theorem readUnary_sound {f : DstReg → RegisterIndex → SourceInstruction} {s : SourceInstruction}
    (h : readUnary f ts = some (s, rest)) :
    ∃ dst src, s = f dst src ∧ ts = (dst.tokens ++ [.reg src]) ++ rest := by
  obtain ⟨dst, ts1, hdst, h⟩ := then_some h
  obtain ⟨src, ts2, hsrc, h⟩ := then_some h
  cases h
  refine ⟨dst, src, rfl, ?_⟩
  rw [readDstReg_sound hdst, readReg_sound hsrc, List.append_assoc]
  rfl

theorem readBinary_sound {f : DstReg → RegisterIndex → RegisterIndex → SourceInstruction}
    {s : SourceInstruction} (h : readBinary f ts = some (s, rest)) :
    ∃ dst src1 src2, s = f dst src1 src2 ∧
      ts = (dst.tokens ++ [.reg src1, .reg src2]) ++ rest := by
  obtain ⟨dst, ts1, hdst, h⟩ := then_some h
  obtain ⟨src1, ts2, hsrc1, h⟩ := then_some h
  obtain ⟨src2, ts3, hsrc2, h⟩ := then_some h
  cases h
  refine ⟨dst, src1, src2, rfl, ?_⟩
  rw [readDstReg_sound hdst, readReg_sound hsrc1, readReg_sound hsrc2, List.append_assoc]
  rfl

theorem readTernary_sound
    {f : DstReg → RegisterIndex → RegisterIndex → RegisterIndex → SourceInstruction}
    {s : SourceInstruction} (h : readTernary f ts = some (s, rest)) :
    ∃ dst src1 src2 src3, s = f dst src1 src2 src3 ∧
      ts = (dst.tokens ++ [.reg src1, .reg src2, .reg src3]) ++ rest := by
  obtain ⟨dst, ts1, hdst, h⟩ := then_some h
  obtain ⟨src1, ts2, hsrc1, h⟩ := then_some h
  obtain ⟨src2, ts3, hsrc2, h⟩ := then_some h
  obtain ⟨src3, ts4, hsrc3, h⟩ := then_some h
  cases h
  refine ⟨dst, src1, src2, src3, rfl, ?_⟩
  rw [readDstReg_sound hdst, readReg_sound hsrc1, readReg_sound hsrc2, readReg_sound hsrc3,
    List.append_assoc]
  rfl

section
variable {α : Type} {number : Token → Option α} {token : α → Token}
  (hnumber : ∀ {t a}, number t = some a → t = token a)

include hnumber

theorem readBinaryImm_sound {f : DstReg → RegisterIndex → RegisterIndex → SourceInstruction}
    {g : DstReg → RegisterIndex → α → SourceInstruction} {s : SourceInstruction}
    (h : readBinaryImm number f g ts = some (s, rest)) :
    (∃ dst src1 src2, s = f dst src1 src2 ∧
        ts = (dst.tokens ++ [.reg src1, .reg src2]) ++ rest) ∨
      ∃ dst src a, s = g dst src a ∧ ts = (dst.tokens ++ [.reg src, token a]) ++ rest := by
  obtain ⟨dst, ts1, hdst, h⟩ := then_some h
  obtain ⟨src, ts2, hsrc, h⟩ := then_some h
  rw [readDstReg_sound hdst, readReg_sound hsrc]
  unfold readRegOrNumber at h
  split at h
  · cases h
    exact .inl ⟨dst, src, _, rfl, by rw [List.append_assoc]; rfl⟩
  · obtain ⟨a, ha, hs⟩ := Option.map_eq_some_iff.mp h
    cases hs
    refine .inr ⟨dst, src, a, rfl, ?_⟩
    rw [hnumber ha, List.append_assoc]
    rfl
  · cases h

theorem readImmediates_sound {imms : Immediates α}
    (h : readImmediates number ts = some (imms, rest)) : ts = imms.toList.map token ++ rest := by
  -- one value after the other
  have hcons : ∀ {us : List Token} {a : α} {as : List (Option α)}, us.map number = some a :: as →
      ∃ more, us = token a :: more ∧ more.map number = as := by
    intro us a as hmap
    obtain ⟨t, more, rfl, ht, hmore⟩ := List.map_eq_cons_iff.mp hmap
    exact ⟨more, by rw [hnumber ht], hmore⟩
  unfold readImmediates at h
  split at h
  next heq =>
    obtain ⟨more1, rfl, h1⟩ := hcons heq
    obtain ⟨more2, rfl, h2⟩ := hcons h1
    obtain ⟨more3, rfl, h3⟩ := hcons h2
    obtain ⟨more4, rfl, h4⟩ := hcons h3
    cases h
    rfl
  next heq =>
    obtain ⟨more1, rfl, h1⟩ := hcons heq
    obtain ⟨more2, rfl, h2⟩ := hcons h1
    obtain ⟨more3, rfl, h3⟩ := hcons h2
    cases h
    rfl
  next heq =>
    obtain ⟨more1, rfl, h1⟩ := hcons heq
    obtain ⟨more2, rfl, h2⟩ := hcons h1
    cases h
    rfl
  next heq =>
    obtain ⟨more1, rfl, h1⟩ := hcons heq
    cases h
    rfl
  next => cases h

theorem readInit_sound {f : DstReg → Immediates α → SourceInstruction} {s : SourceInstruction}
    (h : readInit number f ts = some (s, rest)) :
    ∃ dst imms, s = f dst imms ∧ ts = (dst.tokens ++ imms.toList.map token) ++ rest := by
  obtain ⟨dst, ts1, hdst, h⟩ := then_some h
  obtain ⟨imms, ts2, himms, h⟩ := then_some h
  cases h
  refine ⟨dst, imms, rfl, ?_⟩
  rw [readDstReg_sound hdst, readImmediates_sound hnumber himms, List.append_assoc]

end

theorem readFcross_sound {s : SourceInstruction} (h : readFcross ts = some (s, rest)) :
    ∃ dst src1 src2, s = .fcross dst src1 src2 ∧
      ts = [.reg dst, .reg src1, .reg src2] ++ rest := by
  obtain ⟨dst, ts1, hdst, h⟩ := then_some h
  obtain ⟨src1, ts2, hsrc1, h⟩ := then_some h
  obtain ⟨src2, ts3, hsrc2, h⟩ := then_some h
  cases h
  refine ⟨dst, src1, src2, rfl, ?_⟩
  rw [readReg_sound hdst, readReg_sound hsrc1, readReg_sound hsrc2]
  rfl

theorem readSwizzle_sound {s : SourceInstruction} (h : readSwizzle ts = some (s, rest)) :
    .mnemonic .swizzle :: ts = s.tokens ++ rest := by
  obtain ⟨dst, ts1, hdst, h⟩ := then_some h
  obtain ⟨src, ts2, hsrc, h⟩ := then_some h
  rw [readReg_sound hdst, readReg_sound hsrc]
  unfold readPattern at h
  split at h
  · cases h
    rfl
  · cases h

/-- An instruction that is read has the tokens that were there. -/
theorem readOperands_sound {m : Mnemonic} {s : SourceInstruction}
    (h : readOperands m ts = some (s, rest)) : .mnemonic m :: ts = s.tokens ++ rest := by
  cases m
  case fadd | fsub | fmul | fdiv =>
    obtain ⟨dst, src1, src2, rfl, rfl⟩ | ⟨dst, src, f, rfl, rfl⟩ := readBinaryImm_sound float_sound h
    · rfl
    · rfl
  case iadd | isub | imul | idiv =>
    obtain ⟨dst, src1, src2, rfl, rfl⟩ | ⟨dst, src, i, rfl, rfl⟩ := readBinaryImm_sound int_sound h
    · rfl
    · rfl
  case fneg | frcp | fnorm | ineg | mov =>
    obtain ⟨dst, src, rfl, rfl⟩ := readUnary_sound h
    rfl
  case fdot | fcross2 | fmax | fmin | imax | imin =>
    obtain ⟨dst, src1, src2, rfl, rfl⟩ := readBinary_sound h
    rfl
  case fmad =>
    obtain ⟨dst, src1, src2, src3, rfl, rfl⟩ := readTernary_sound h
    rfl
  case fcross =>
    obtain ⟨dst, src1, src2, rfl, rfl⟩ := readFcross_sound h
    rfl
  case swizzle => exact readSwizzle_sound h
  case trap =>
    cases h
    rfl
  case finit =>
    obtain ⟨dst, imms, rfl, rfl⟩ := readInit_sound float_sound h
    rfl
  case iinit =>
    obtain ⟨dst, imms, rfl, rfl⟩ := readInit_sound int_sound h
    rfl

end

/-! ## The longest instruction -/

/-- The longest instruction that tokens begin with. -/
structure LongestInstruction (s : SourceInstruction) (ts : List Token) : Prop where
  begins : s.tokens <+: ts
  longest : ∀ s' : SourceInstruction, s'.tokens <+: ts → s'.tokens.length ≤ s.tokens.length

theorem tokens_injective {s s' : SourceInstruction} (h : s.tokens = s'.tokens) : s = s' := by
  obtain ⟨m, ts, hs, hread⟩ := @readOperands_own s [] nofun
  obtain ⟨m', ts', hs', hread'⟩ := @readOperands_own s' [] nofun
  rw [hs, hs'] at h
  cases h
  rw [hread] at hread'
  cases hread'
  rfl

theorem LongestInstruction.unique {s s' : SourceInstruction} {ts : List Token}
    (h : LongestInstruction s ts) (h' : LongestInstruction s' ts) : s = s' := by
  apply tokens_injective
  have hlength := Nat.le_antisymm (h'.longest s h.begins) (h.longest s' h'.begins)
  exact (List.prefix_of_prefix_length_le h.begins h'.begins (Nat.le_of_eq hlength)).eq_of_length
    hlength

/-- The parser reads the longest instruction, or none where there is none. -/
theorem readOperands_longest (m : Mnemonic) (ts : List Token) :
    (readOperands m ts = none ∧ ∀ s, ¬ LongestInstruction s (.mnemonic m :: ts)) ∨
      ∃ s rest, readOperands m ts = some (s, rest) ∧ LongestInstruction s (.mnemonic m :: ts) := by
  have hleast : ∀ s : SourceInstruction, s.tokens <+: .mnemonic m :: ts → ∃ s' rest',
      readOperands m ts = some (s', rest') ∧ s.tokens.length + rest'.length ≤ ts.length + 1 := by
    rintro s ⟨rest, hrest⟩
    obtain ⟨m', ts', s', rest', hs, hread, hle⟩ := readOperands_atLeast s rest
    rw [hs] at hrest ⊢
    obtain ⟨hm, hts⟩ := List.cons.inj hrest
    cases hm
    have hlength : (ts' ++ rest).length = ts.length := congrArg List.length hts
    rw [List.length_append] at hlength
    refine ⟨s', rest', ?_, ?_⟩
    · rw [← hts]
      exact hread
    · rw [List.length_cons]
      omega
  cases hread : readOperands m ts with
  | none =>
    refine .inl ⟨rfl, fun s hs => ?_⟩
    obtain ⟨s', rest', hsome, -⟩ := hleast s hs.begins
    rw [hread] at hsome
    cases hsome
  | some found =>
    obtain ⟨s, rest⟩ := found
    have hsound := readOperands_sound hread
    refine .inr ⟨s, rest, rfl, ⟨⟨rest, hsound.symm⟩, fun s' hs' => ?_⟩⟩
    obtain ⟨s1, rest1, hsome, hle⟩ := hleast s' hs'
    rw [hread] at hsome
    cases hsome
    have hlength := congrArg List.length hsound
    rw [List.length_cons, List.length_append] at hlength
    omega

/-! ## Instruction lines -/

/-- One more value in front of three at most. -/
def Immediates.cons {α : Type} (a : α) : Immediates α → Immediates α
  | one b => two a b
  | two b c => three a b c
  | three b c d => four a b c d
  | four b c d e => four b c d e

/-- An `iinit` without a mask that has room for one more value. -/
def SourceInstruction.takesValue : SourceInstruction → Bool
  | iinit (.reg _) imms => imms.toList.length ≤ 3
  | _ => false

theorem Immediates.toList_cons {α : Type} (a : α) {imms : Immediates α}
    (h : imms.toList.length ≤ 3) : (imms.cons a).toList = a :: imms.toList := by
  cases imms with
  | four => exact absurd h (Nat.not_le.mpr (Nat.lt_succ_self 3))
  | _ => rfl

section
variable {numbers : NumberReader}

theorem Stands.mnemonic_inv {m : Mnemonic} {ts : List Token} {ws : List Written}
    (h : Stands (.mnemonic m :: ts) ws) : ∃ ws', Stands ts ws' ∧
      (HasOutOfRange ws → HasOutOfRange ws') ∧
      scannedAll numbers ws = .mnemonic m :: scannedAll numbers ws' := by
  cases h with
  | token _ h =>
    refine ⟨_, h, ?_, rfl⟩
    rintro ⟨w, hw, hout⟩
    rcases List.mem_cons.mp hw with rfl | hw
    · exact hout.elim
    · exact ⟨w, hw, hout⟩

/-- An `iinit` that takes the rest of the number of its destination as a value. -/
theorem readsValue {line : InstructionLine} (hout : HasOutOfRange line.written)
    (hvalue : line.instruction.takesValue = true) : ∃ r a i imms,
      line.instruction = .iinit (.reg r) imms ∧ imms.toList.length ≤ 3 ∧
      scannedAll numbers line.written = (SourceInstruction.iinit (.reg a) (imms.cons i)).tokens := by
  obtain ⟨s, ws, hstands⟩ := line
  cases s
  case iinit dst imms =>
    cases dst with
    | masked => cases hvalue
    | reg r =>
      have hlength : imms.toList.length ≤ 3 := of_decide_eq_true hvalue
      obtain ⟨ws', h', hout', hscanned⟩ := @Stands.mnemonic_inv numbers _ _ _ hstands
      rcases @init_cases numbers _ ws' _ .numberInt (fun i => .inl ⟨i, rfl⟩) imms h' (hout' hout) with
        ⟨r', a, i, -, hws⟩ | ⟨a, i, more, ⟨r', m, hdst⟩, -⟩ | ⟨a, f, v, more, ⟨r', m, hdst⟩, -⟩
      · refine ⟨r, a, i, imms, rfl, hlength, ?_⟩
        rw [hscanned, hws]
        show _ = Token.mnemonic .iinit :: ([Token.reg a] ++ (imms.cons i).toList.map Token.numberInt)
        rw [Immediates.toList_cons i hlength]
        rfl
      · cases hdst
      · cases hdst
  all_goals cases hvalue

/-- At any other out-of-range register reading ends. -/
theorem givesUp_line {line : InstructionLine} (hout : HasOutOfRange line.written)
    (hvalue : line.instruction.takesValue = false) : ∃ m ts,
      scannedAll numbers line.written = .mnemonic m :: ts ∧ GivesUp (readOperands m) ts := by
  obtain ⟨s, ws, hstands⟩ := line
  have hline : ∀ m ts, s.tokens = .mnemonic m :: ts →
      (∀ ws', Stands ts ws' → HasOutOfRange ws' →
        GivesUp (readOperands m) (scannedAll numbers ws')) →
      ∃ m ts, scannedAll numbers ws = .mnemonic m :: ts ∧ GivesUp (readOperands m) ts := by
    intro m ts hs hgives
    obtain ⟨ws', h', hout', hscanned⟩ := @Stands.mnemonic_inv numbers _ _ _ (hs ▸ hstands)
    exact ⟨m, _, hscanned, hgives ws' h' (hout' hout)⟩
  cases s
  case iinit dst imms =>
    refine hline _ _ rfl fun ws' h' hout' => readIinit_givesUp h' hout' ?_
    rintro r rfl
    exact Nat.lt_of_not_le (of_decide_eq_false hvalue)
  all_goals refine hline _ _ rfl fun ws' h' hout' => ?_
  case fadd | fsub | fmul | fdiv | iadd | isub | imul | idiv => exact readBinaryImm_givesUp h' hout'
  case fadd_imm | fsub_imm | fmul_imm | fdiv_imm =>
    exact readBinaryNumber_givesUp (.inr ⟨_, rfl⟩) h' hout'
  case iadd_imm | isub_imm | imul_imm | idiv_imm =>
    exact readBinaryNumber_givesUp (.inl ⟨_, rfl⟩) h' hout'
  case fneg | frcp | fnorm | ineg | mov => exact readUnary_givesUp h' hout'
  case fdot | fcross2 | fmax | fmin | imax | imin => exact readBinary_givesUp h' hout'
  case fmad => exact readTernary_givesUp h' hout'
  case fcross => exact readFcross_givesUp h' hout'
  case swizzle x y z w => exact @readSwizzle_givesUp numbers _ _ _ [x, y, z, w] h' hout'
  case trap => exact absurd hout' (not_hasOutOfRange_nil h')
  case finit => exact readFinit_givesUp h' hout'

end

end PicoGpu
