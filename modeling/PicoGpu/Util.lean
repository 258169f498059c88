import Mathlib.Data.Fin.Basic
import Mathlib.Tactic.Ring

/- What every part of the simulator uses: error.h, types.h, math.h and
   non_zero_count.h. -/
namespace PicoGpu

/-- What `FATAL_ERROR` prints before it aborts the simulation. -/
abbrev FatalError := String

/-- `uint32_t` and `sc_uint<32>`. -/
abbrev Dword := BitVec 32

abbrev MemoryAddressType := Dword
abbrev MemoryDataType := Dword

/- The sizes of the arrays and index types. -/
instance neZero_three : NeZero 3 := ⟨by decide⟩
instance neZero_four : NeZero 4 := ⟨by decide⟩
instance neZero_sixteen : NeZero 16 := ⟨by decide⟩

@[simp] theorem ok_bind {α β : Type} (a : α) (f : α → Except FatalError β) :
    ((.ok a : Except FatalError α) >>= f) = f a := rfl

@[simp] theorem map_ok {α β : Type} (a : α) (f : α → β) :
    f <$> (.ok a : Except FatalError α) = .ok (f a) := rfl

theorem bind_ok {ε α β : Type} {x : Except ε α} {f : α → Except ε β} {b : β} :
    (x >>= f) = .ok b ↔ ∃ a, x = .ok a ∧ f a = .ok b := by
  cases x with
  | error e => exact ⟨fun h => (nomatch h), fun ⟨_, h, _⟩ => (nomatch h)⟩
  | ok a => exact ⟨fun h => ⟨a, rfl, h⟩, fun ⟨_, h, hb⟩ => by cases h; exact hb⟩

theorem foldlM_ok {α σ : Type} {f : σ → α → Except FatalError σ} : ∀ {l : List α} {s : σ},
    (∀ a ∈ l, ∀ s, ∃ s', f s a = .ok s') → ∃ s', l.foldlM f s = .ok s'
  | [], s, _ => ⟨s, rfl⟩
  | a :: l, s, h => by
    obtain ⟨s1, h1⟩ := h a List.mem_cons_self s
    obtain ⟨s', h'⟩ := foldlM_ok (s := s1) fun a ha => h a (List.mem_cons_of_mem _ ha)
    exact ⟨s', by rw [List.foldlM_cons, h1]; exact h'⟩

/-- What every step preserves, given the elements so far, holds where a fold goes through. -/
theorem foldlM_inv {ε α σ : Type} {f : σ → α → Except ε σ} {Inv : List α → σ → Prop}
    (hstep : ∀ {past s a s'}, Inv past s → f s a = .ok s' → Inv (past ++ [a]) s') (l : List α)
    {past : List α} {s s' : σ} (hs : Inv past s) (h : l.foldlM f s = .ok s') :
    Inv (past ++ l) s' := by
  induction l generalizing past s with
  | nil =>
    cases h
    rwa [List.append_nil]
  | cons a l ih =>
    rw [List.foldlM_cons] at h
    obtain ⟨s1, h1, h⟩ := bind_ok.mp h
    have hs' := ih (hstep hs h1) h
    rwa [List.append_assoc] at hs'

/-- A fold that goes through, followed step by step by another one. -/
theorem foldlM_map_ok {ε ε' α β σ : Type} {f : σ → α → Except ε σ} {g : σ → β → Except ε' σ}
    {e : α → β} (h : ∀ s a s', f s a = .ok s' → g s (e a) = .ok s') (l : List α) (s s' : σ)
    (hl : l.foldlM f s = .ok s') : (l.map e).foldlM g s = .ok s' := by
  induction l generalizing s with
  | nil => cases hl; rfl
  | cons a l ih =>
    rw [List.foldlM_cons] at hl
    obtain ⟨s1, h1, hl⟩ := bind_ok.mp hl
    rw [List.map_cons, List.foldlM_cons, h s a s1 h1]
    exact ih s1 hl

theorem mapM_ok {ε α β : Type} {f : α → Except ε β} {g : α → β} {l : List α}
    (h : ∀ a ∈ l, f a = .ok (g a)) : l.mapM f = .ok (l.map g) := by
  induction l with
  | nil => rfl
  | cons a l ih =>
    rw [List.mapM_cons, h a List.mem_cons_self, ih fun b hb => h b (List.mem_cons_of_mem _ hb)]
    rfl

/-! ## Bits -/

section
variable {width : Nat}

def setBit (bits : BitVec width) (bitNumber : Nat) : BitVec width :=
  bits ||| BitVec.ofNat width (1 <<< bitNumber)

def isBitSet (bits : BitVec width) (bitNumber : Nat) : Bool := bits.getLsbD bitNumber

def countBits (number : BitVec width) : Nat := (List.range width).countP number.getLsbD

/-- `findBit` with its `-1` as `none`. -/
def findBit (bits : BitVec width) (findSetBit : Bool) (startBit : Nat) : Option Nat :=
  ((List.range width).drop startBit).find? fun bitIndex => isBitSet bits bitIndex == findSetBit

end

/-! ## Counts that are not zero -/

/-- A `NonZeroCount` in a bit field of the given width: the count less one. -/
def intToNonZeroCount (bits arg : Nat) : BitVec bits := BitVec.ofNat bits arg - 1

def nonZeroCountToInt {bits : Nat} (arg : BitVec bits) : Nat := arg.toNat + 1

theorem nonZeroCount_roundtrip {bits arg : Nat} (h1 : 1 ≤ arg) (h2 : arg ≤ 2 ^ bits) :
    nonZeroCountToInt (intToNonZeroCount bits arg) = arg := by
  have hpos : 0 < 2 ^ bits := Nat.two_pow_pos bits
  have hsub : (BitVec.ofNat bits arg - 1 : BitVec bits) = BitVec.ofNat bits (arg - 1) := by
    apply BitVec.eq_of_toNat_eq
    simp only [BitVec.toNat_sub, BitVec.toNat_ofNat, Nat.add_mod_mod]
    cases bits with
    | zero => simp [Nat.mod_one]
    | succ bits =>
      have hone : 1 < 2 ^ (bits + 1) := Nat.one_lt_two_pow (by omega)
      have hsum : 2 ^ (bits + 1) - 1 + arg = arg - 1 + 2 ^ (bits + 1) := by omega
      simp only [BitVec.ofNat_eq_ofNat, BitVec.toNat_ofNat, Nat.mod_eq_of_lt hone]
      rw [hsum, Nat.add_mod_right]
  unfold nonZeroCountToInt intToNonZeroCount
  rw [hsub, BitVec.toNat_ofNat, Nat.mod_eq_of_lt (by omega)]
  omega

end PicoGpu
