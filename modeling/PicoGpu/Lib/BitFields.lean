import Mathlib.Data.Fin.Basic
import Mathlib.Tactic.Ring

/- Bit fields packed from the low end of a word, as widths and values. A value
   keeps the low bits that fit its field. -/
namespace BitFields

def pack : List (Nat × Nat) → Nat
  | [] => 0
  | (width, value) :: fields => value % 2 ^ width + 2 ^ width * pack fields

def unpack : List Nat → Nat → List Nat
  | [], _ => []
  | width :: widths, n => n % 2 ^ width :: unpack widths (n / 2 ^ width)

theorem unpack_pack : ∀ fields : List (Nat × Nat),
    unpack (fields.map Prod.fst) (pack fields) = fields.map fun f => f.2 % 2 ^ f.1
  | [] => rfl
  | (width, value) :: fields => by
    have hpos : 0 < 2 ^ width := Nat.two_pow_pos width
    have hlow : (value % 2 ^ width + 2 ^ width * pack fields) % 2 ^ width = value % 2 ^ width := by
      rw [Nat.add_mul_mod_self_left, Nat.mod_mod]
    have hhigh : (value % 2 ^ width + 2 ^ width * pack fields) / 2 ^ width = pack fields := by
      rw [Nat.add_mul_div_left _ _ hpos, Nat.div_eq_of_lt (Nat.mod_lt _ hpos), Nat.zero_add]
    simp only [List.map_cons, pack, unpack, hlow, hhigh, unpack_pack fields]

theorem pack_lt : ∀ fields : List (Nat × Nat), pack fields < 2 ^ (fields.map Prod.fst).sum
  | [] => by simp [pack]
  | (width, value) :: fields => by
    have hpos : 0 < 2 ^ width := Nat.two_pow_pos width
    have hvalue : value % 2 ^ width < 2 ^ width := Nat.mod_lt _ hpos
    have hrest : pack fields + 1 ≤ 2 ^ (fields.map Prod.fst).sum := pack_lt fields
    rw [List.map_cons, List.sum_cons, Nat.pow_add]
    calc value % 2 ^ width + 2 ^ width * pack fields
        < 2 ^ width + 2 ^ width * pack fields := Nat.add_lt_add_right hvalue _
      _ = 2 ^ width * (pack fields + 1) := by rw [Nat.mul_succ, Nat.add_comm]
      _ ≤ 2 ^ width * 2 ^ (fields.map Prod.fst).sum := Nat.mul_le_mul_left _ hrest

/-- A word of `bits` bits holds fields of at most that many bits. -/
theorem unpack_word {bits : Nat} (fields : List (Nat × Nat))
    (h : (fields.map Prod.fst).sum ≤ bits) :
    unpack (fields.map Prod.fst) (BitVec.ofNat bits (pack fields)).toNat =
      fields.map fun f => f.2 % 2 ^ f.1 := by
  have hlt : pack fields < 2 ^ bits :=
    Nat.lt_of_lt_of_le (pack_lt fields) (Nat.pow_le_pow_right (by decide) h)
  rw [BitVec.toNat_ofNat, Nat.mod_eq_of_lt hlt, unpack_pack]

/-- A layout with fewer fields shows the first ones. -/
theorem unpack_append (widths more : List Nat) (n : Nat) :
    unpack (widths ++ more) n = unpack widths n ++ unpack more (n / 2 ^ widths.sum) := by
  induction widths generalizing n with
  | nil => simp [unpack]
  | cons width widths ih =>
    rw [List.cons_append, unpack, ih, unpack, List.cons_append, List.sum_cons, Nat.pow_add,
      Nat.div_div_eq_div_mul]

end BitFields
