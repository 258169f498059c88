import PicoGpu.Scanner

/- Out-of-range registers in a source text. `written` reads a text as it is meant: an `r`
   with a number of 16 or more is one register that does not exist. The scanner has no such
   token and reads two of them, a register and the number made of the other digits. -/
namespace PicoGpu
open Munch

/-- What stands in a text: a token, or an out-of-range register with its digits, which a dot
    may follow at once. -/
inductive Written where
  | token (t : Token)
  | outOfRange (digits : List Char)
  | outOfRangeDot (digits : List Char)
  deriving DecidableEq, Repr

namespace Written

def IsOutOfRange : Written → Prop
  | token _ => False
  | outOfRange _ => True
  | outOfRangeDot _ => True

end Written

namespace Scanner

/-- An `r` and all digits behind it, with the dot that follows. -/
def outOfRange : Rule Char Written where
  longest
    | 'r' :: cs =>
      if 16 ≤ decimal (cs.takeWhile digit) then
        some ((cs.takeWhile digit).length +
          (if (cs.dropWhile digit).head? = some '.' then 1 else 0) + 1)
      else none
    | _ => none
  action text :=
    if text.getLast? = some '.' then some (.outOfRangeDot (text.drop 1).dropLast)
    else some (.outOfRange (text.drop 1))

def writtenRules (numbers : NumberReader) : List (Rule Char Written) :=
  outOfRange :: (rules numbers).map (Rule.map .token)

def written (numbers : NumberReader) (code : List Char) : List Written :=
  scan (writtenRules numbers) code

/-- The digits that the scanner reads with the `r`. -/
def registerDigits : List Char → Nat
  | '1' :: c :: _ => if c ≤ '5' then 2 else 1
  | _ => 1

/-- What the scanner makes of it. -/
def scanned (numbers : NumberReader) : Written → List Token
  | .token t => [t]
  | .outOfRange digits =>
    [.reg (Fin.ofNat 16 (decimal (digits.take (registerDigits digits)))),
      .numberInt (numbers.atoi (digits.drop (registerDigits digits)))]
  | .outOfRangeDot digits =>
    [.reg (Fin.ofNat 16 (decimal (digits.take (registerDigits digits)))),
      .numberFloat (numbers.atof (digits.drop (registerDigits digits) ++ ['.']))]

/-- A component follows wherever a dot follows an out-of-range register at once. -/
def DotsFit : List Written → Prop
  | [] => True
  | .outOfRangeDot _ :: ws => (∃ c more, ws = .token (.vecComponent c) :: more) ∧ DotsFit ws
  | _ :: ws => DotsFit ws

/-! ## Numbers -/

section
variable {numbers : NumberReader} {c d : Char} {cs : List Char}

theorem digit_cases (h : digit d = true) : d = '0' ∨ d = '1' ∨ d = '2' ∨ d = '3' ∨ d = '4' ∨
    d = '5' ∨ d = '6' ∨ d = '7' ∨ d = '8' ∨ d = '9' := by
  obtain ⟨hle, hge⟩ := of_decide_eq_true h
  have h48 : 48 ≤ d.toNat := hle
  have h57 : d.toNat ≤ 57 := hge
  have hd : Char.ofNat d.toNat = d := Char.ofNat_toNat d
  have hcases : d.toNat = 48 ∨ d.toNat = 49 ∨ d.toNat = 50 ∨ d.toNat = 51 ∨ d.toNat = 52 ∨
      d.toNat = 53 ∨ d.toNat = 54 ∨ d.toNat = 55 ∨ d.toNat = 56 ∨ d.toNat = 57 := by omega
  rcases hcases with h | h | h | h | h | h | h | h | h | h <;> rw [h] at hd <;> rw [← hd] <;> decide

/-- Only the rules for numbers read digits. -/
theorem best_digit (h : digit d = true) : best (rules numbers) (d :: cs) =
    best [numberInt numbers, numberFloat numbers, anyOther] (d :: cs) := by
  rcases digit_cases h with rfl | rfl | rfl | rfl | rfl | rfl | rfl | rfl | rfl | rfl
  all_goals rfl

theorem best_r : best (rules numbers) ('r' :: cs) = best [reg1, reg2, anyOther] ('r' :: cs) := rfl

theorem not_minus (h : digit d = true) : isChar '-' d = false := by
  rcases digit_cases h with rfl | rfl | rfl | rfl | rfl | rfl | rfl | rfl | rfl | rfl
  all_goals decide

theorem numberInt_longest (h : digit d = true) : (numberInt numbers).longest (d :: cs) =
    some ((cs.takeWhile digit).length + 1) := by
  show longer (oneBefore digit (runBefore digit fun _ => some 0) (d :: cs))
    (oneBefore (isChar '-') _ (d :: cs)) = _
  rw [oneBefore, oneBefore, h, not_minus h, runBefore_last]
  rfl

/-- What follows the digits of a `NUMBER_FLOAT`. -/
def fraction : List Char → Option Nat := longest [.one (isChar '.'), .star digit, .opt (isChar 'f')]

theorem numberFloat_longest (h : digit d = true) : (numberFloat numbers).longest (d :: cs) =
    (fraction (cs.dropWhile digit)).map (· + (cs.takeWhile digit).length + 1) := by
  have hfraction : ∀ a as, digit a = true → fraction (a :: as) = none := by
    intro a as ha
    rcases digit_cases ha with rfl | rfl | rfl | rfl | rfl | rfl | rfl | rfl | rfl | rfl
    all_goals rfl
  show longer (oneBefore digit (runBefore digit fraction) (d :: cs))
    (oneBefore (isChar '-') _ (d :: cs)) = _
  rw [oneBefore, oneBefore, h, not_minus h, runBefore_follow hfraction]
  simp only [Bool.false_eq_true, if_true, if_false, Option.map_map]
  cases fraction (cs.dropWhile digit) <;> rfl

theorem fraction_none (h : cs.head? ≠ some '.') : fraction cs = none := by
  cases cs with
  | nil => rfl
  | cons a as =>
    have ha : isChar '.' a = false := decide_eq_false fun heq => h (congrArg some heq)
    show oneBefore (isChar '.') _ (a :: as) = none
    rw [oneBefore, ha]
    rfl

theorem fraction_dot (h : ∀ a ∈ cs.head?, digit a = false ∧ a ≠ 'f') :
    fraction ('.' :: cs) = some 1 := by
  cases cs with
  | nil => rfl
  | cons a as =>
    obtain ⟨hdigit, hf⟩ := h a rfl
    have ha : isChar 'f' a = false := decide_eq_false hf
    show (runBefore digit (longest [.opt (isChar 'f')]) (a :: as)).map (· + 1) = _
    rw [runBefore, hdigit]
    show (longer (longer (some 0) (oneBefore (isChar 'f') _ (a :: as))) none).map _ = _
    rw [oneBefore, ha]
    rfl

end

/-! ## How an out-of-range register is scanned -/

section
variable {numbers : NumberReader} {ds rest : List Char} {d : Char}

theorem digits_span (hds : ∀ d ∈ ds, digit d = true) (hrest : ∀ a ∈ rest.head?, digit a = false) :
    (ds ++ rest).takeWhile digit = ds ∧ (ds ++ rest).dropWhile digit = rest := by
  have hnone : rest.takeWhile digit = [] ∧ rest.dropWhile digit = rest := by
    cases rest with
    | nil => exact ⟨rfl, rfl⟩
    | cons a as =>
      rw [List.takeWhile_cons, List.dropWhile_cons, hrest a rfl]
      exact ⟨rfl, rfl⟩
  rw [List.takeWhile_append_of_pos hds, List.dropWhile_append_of_pos hds, hnone.1, hnone.2,
    List.append_nil]
  exact ⟨rfl, rfl⟩

/-- The last rule reads one character. -/
theorem anyOther_one {n : Nat} {r : Rule Char Token} (h : best [anyOther] (d :: ds) = some (n, r)) :
    n = 1 := by
  obtain ⟨hmem, hlongest⟩ := best_mem h
  rw [List.mem_singleton.mp hmem] at hlongest
  have hone : oneBefore (fun c : Char => decide (c ≠ '\n')) (fun _ => some 0) (d :: ds) = some n :=
    hlongest
  rw [oneBefore] at hone
  split at hone
  · exact (Option.some.inj hone).symm
  · cases hone

theorem scan_numberInt (hds : ∀ a ∈ d :: ds, digit a = true)
    (hrest : ∀ a ∈ rest.head?, digit a = false) (hdot : rest.head? ≠ some '.') :
    tokens numbers (d :: ds ++ rest) =
      .numberInt (numbers.atoi (d :: ds)) :: tokens numbers rest := by
  have hd := hds d List.mem_cons_self
  obtain ⟨hrun, hafter⟩ := digits_span (fun a ha => hds a (List.mem_cons_of_mem _ ha)) hrest
  have hbest : best (rules numbers) (d :: (ds ++ rest)) =
      some (ds.length + 1, numberInt numbers) := by
    rw [best_digit hd]
    apply best_cons_longest
    · rw [numberInt_longest hd, hrun]
    · intro m other h
      rw [best_cons_none] at h
      · have := anyOther_one h
        omega
      · rw [numberFloat_longest hd, hafter, fraction_none hdot]
        rfl
  rw [tokens, List.cons_append, scan_best hbest, List.take_succ_cons, List.take_left, List.drop_left]
  rfl

theorem scan_numberFloat (hds : ∀ a ∈ d :: ds, digit a = true)
    (hrest : ∀ a ∈ rest.head?, digit a = false ∧ a ≠ 'f') :
    tokens numbers (d :: ds ++ '.' :: rest) =
      .numberFloat (numbers.atof (d :: ds ++ ['.'])) :: tokens numbers rest := by
  have hd := hds d List.mem_cons_self
  obtain ⟨hrun, hafter⟩ := @digits_span ds ('.' :: rest)
    (fun a ha => hds a (List.mem_cons_of_mem _ ha)) (by rintro a ⟨⟩; rfl)
  have hbest : best (rules numbers) (d :: (ds ++ '.' :: rest)) =
      some (ds.length + 1 + 1, numberFloat numbers) := by
    have hfloat : (numberFloat numbers).longest (d :: (ds ++ '.' :: rest)) =
        some (ds.length + 1 + 1) := by
      rw [numberFloat_longest hd, hafter, hrun, fraction_dot hrest]
      show some (1 + ds.length + 1) = _
      rw [Nat.add_comm 1]
    have hlast : best [numberFloat numbers, anyOther] (d :: (ds ++ '.' :: rest)) =
        some (ds.length + 1 + 1, numberFloat numbers) := by
      apply best_cons_longest hfloat
      intro m other h
      have := anyOther_one h
      omega
    -- the float is longer than the int
    rw [best_digit hd, best, hlast, numberInt_longest hd, hrun]
    dsimp only
    rw [if_neg (by omega)]
  have hsplit : ds ++ '.' :: rest = (ds ++ ['.']) ++ rest := by
    rw [List.append_assoc]
    rfl
  have hlength : (ds ++ ['.']).length = ds.length + 1 := List.length_append
  rw [tokens, List.cons_append, scan_best hbest, hsplit, List.take_succ_cons, ← hlength,
    List.take_left, List.drop_left]
  rfl

theorem registerDigits_pos (ds : List Char) : 1 ≤ registerDigits ds := by
  unfold registerDigits
  split
  · split <;> omega
  · exact Nat.le_refl 1

/-- More digits than the scanner reads with the `r`. -/
theorem registerDigits_lt (hds : ∀ a ∈ ds, digit a = true) (hbig : 16 ≤ decimal ds) :
    registerDigits ds < ds.length := by
  have hvalue : ∀ a, digit a = true → a.toNat - '0'.toNat ≤ 9 := by
    intro a ha
    rcases digit_cases ha with rfl | rfl | rfl | rfl | rfl | rfl | rfl | rfl | rfl | rfl
    all_goals decide
  match ds, hbig with
  | [], hbig => exact absurd hbig (by decide)
  | [a], hbig =>
    have ha := hvalue a (hds a List.mem_cons_self)
    have hdecimal : decimal [a] = 10 * 0 + (a.toNat - '0'.toNat) := rfl
    omega
  | [a, b], hbig =>
    unfold registerDigits
    split
    · next heq =>
      cases heq
      split
      · next hb =>
        -- a number from 10 to 15
        have hle : b.toNat ≤ '5'.toNat := hb
        have hdecimal : decimal ['1', b] = 10 * (10 * 0 + 1) + (b.toNat - '0'.toNat) := rfl
        have hfive : '5'.toNat = 53 := rfl
        have hzero : '0'.toNat = 48 := rfl
        omega
      · exact Nat.one_lt_two
    · exact Nat.one_lt_two
  | a :: b :: c :: more, _ =>
    unfold registerDigits
    simp only [List.length_cons]
    split
    · split <;> omega
    · omega

theorem reg2_longest (d : Char) (as : List Char) : reg2.longest ('r' :: d :: as) =
    (oneBefore (isChar '1') (oneBefore lowDigit fun _ => some 0) (d :: as)).map (· + 1) := rfl

theorem best_reg1 {as : List Char} (hd : digit d = true)
    (h : d = '1' → ∀ c ∈ as.head?, lowDigit c = false) :
    best (rules numbers) ('r' :: d :: as) = some (2, reg1) := by
  rw [best_r]
  apply best_cons_longest
  · show (oneBefore digit (fun _ => some 0) (d :: as)).map (· + 1) = _
    rw [oneBefore, hd]
    rfl
  · intro m other hother
    rw [best_cons_none] at hother
    · have := anyOther_one hother
      omega
    · rw [reg2_longest, oneBefore]
      split
      · next hone =>
        cases as with
        | nil => rfl
        | cons c more =>
          rw [oneBefore, h (of_decide_eq_true hone) c rfl]
          rfl
      · rfl

theorem best_reg2 {c : Char} {as : List Char} (h : lowDigit c = true) :
    best (rules numbers) ('r' :: '1' :: c :: as) = some (3, reg2) := by
  have hlong : reg2.longest ('r' :: '1' :: c :: as) = some 3 := by
    rw [reg2_longest, oneBefore, if_pos (by decide), oneBefore, h]
    rfl
  have hlast : best [reg2, anyOther] ('r' :: '1' :: c :: as) = some (3, reg2) := by
    apply best_cons_longest hlong
    intro m other hother
    have := anyOther_one hother
    omega
  have hshort : reg1.longest ('r' :: '1' :: c :: as) = some 2 := rfl
  rw [best_r, best, hlast, hshort]
  rfl

theorem best_register (hds : ∀ a ∈ ds, digit a = true) (hbig : 16 ≤ decimal ds)
    (rest : List Char) : ∃ r : Rule Char Token, r.action = reg ∧
      best (rules numbers) ('r' :: (ds ++ rest)) = some (registerDigits ds + 1, r) := by
  match ds, hds, registerDigits_lt hds hbig with
  | [a], _, hlt => exact absurd hlt (Nat.not_lt_of_le (registerDigits_pos [a]))
  | a :: b :: more, hds, _ =>
    have ha := hds a List.mem_cons_self
    have hb : '0' ≤ b := (of_decide_eq_true (hds b (by simp))).1
    unfold registerDigits
    split
    · next heq =>
      cases heq
      split
      · next hle => exact ⟨reg2, rfl, best_reg2 (decide_eq_true ⟨hb, hle⟩)⟩
      · next hgt =>
        refine ⟨reg1, rfl, best_reg1 ha ?_⟩
        rintro - c ⟨⟩
        exact decide_eq_false fun hc => hgt hc.2
    · next hother =>
      refine ⟨reg1, rfl, best_reg1 ha ?_⟩
      rintro rfl
      exact absurd rfl (hother b more)

theorem scan_reg (hds : ∀ a ∈ ds, digit a = true) (hbig : 16 ≤ decimal ds) (rest : List Char) :
    tokens numbers ('r' :: (ds ++ rest)) =
      .reg (Fin.ofNat 16 (decimal (ds.take (registerDigits ds)))) ::
        tokens numbers (ds.drop (registerDigits ds) ++ rest) := by
  have hlt := registerDigits_lt hds hbig
  obtain ⟨r, haction, hbest⟩ := @best_register numbers ds hds hbig rest
  rw [tokens, scan_best hbest, haction, List.take_succ_cons,
    List.take_append_of_le_length (Nat.le_of_lt hlt),
    List.drop_append_of_le_length (Nat.le_of_lt hlt)]
  rfl

/-- The digits that a register token leaves. -/
theorem surplus_digits (hds : ∀ a ∈ ds, digit a = true) (hbig : 16 ≤ decimal ds) :
    ∃ e es, ds.drop (registerDigits ds) = e :: es ∧ ∀ a ∈ e :: es, digit a = true := by
  have hlt := registerDigits_lt hds hbig
  cases hmore : ds.drop (registerDigits ds) with
  | nil =>
    have := List.drop_eq_nil_iff.mp hmore
    omega
  | cons e es =>
    refine ⟨e, es, rfl, ?_⟩
    intro a ha
    rw [← hmore] at ha
    exact hds a (List.mem_of_mem_drop ha)

/-- Two tokens instead of one. -/
theorem tokens_outOfRange (hds : ∀ a ∈ ds, digit a = true) (hbig : 16 ≤ decimal ds)
    (hrest : ∀ a ∈ rest.head?, digit a = false) (hdot : rest.head? ≠ some '.') :
    tokens numbers ('r' :: (ds ++ rest)) =
      scanned numbers (.outOfRange ds) ++ tokens numbers rest := by
  obtain ⟨e, es, hmore, hes⟩ := surplus_digits hds hbig
  rw [scan_reg hds hbig, hmore, scan_numberInt hes hrest hdot, scanned, hmore]
  rfl

theorem tokens_outOfRangeDot (hds : ∀ a ∈ ds, digit a = true) (hbig : 16 ≤ decimal ds)
    (hrest : ∀ a ∈ rest.head?, digit a = false ∧ a ≠ 'f') :
    tokens numbers ('r' :: (ds ++ '.' :: rest)) =
      scanned numbers (.outOfRangeDot ds) ++ tokens numbers rest := by
  obtain ⟨e, es, hmore, hes⟩ := surplus_digits hds hbig
  rw [scan_reg hds hbig, hmore, scan_numberFloat hes hrest, scanned, hmore]
  rfl

end

/-! ## How it is written -/

section
variable {numbers : NumberReader} {ds rest : List Char} {c : Char} {cs : List Char}

theorem best_written (h : outOfRange.longest (c :: cs) = none) :
    best (writtenRules numbers) (c :: cs) =
      (best (rules numbers) (c :: cs)).map fun found => (found.1, found.2.map .token) := by
  rw [writtenRules, best_cons_none h, best_map]

/-- No other rule reads as much. -/
theorem best_outOfRange {n : Nat} (hds : ∀ a ∈ ds, digit a = true) (hbig : 16 ≤ decimal ds)
    (hlong : outOfRange.longest ('r' :: (ds ++ rest)) = some n) (hn : ds.length < n) :
    best (writtenRules numbers) ('r' :: (ds ++ rest)) = some (n, outOfRange) := by
  apply best_cons_longest hlong
  intro m other h
  have hlt := registerDigits_lt hds hbig
  obtain ⟨r, -, hbest⟩ := @best_register numbers ds hds hbig rest
  rw [best_map, hbest] at h
  cases h
  omega

theorem written_outOfRange (hds : ∀ a ∈ ds, digit a = true) (hbig : 16 ≤ decimal ds)
    (hrest : ∀ a ∈ rest.head?, digit a = false) (hdot : rest.head? ≠ some '.') :
    written numbers ('r' :: (ds ++ rest)) = .outOfRange ds :: written numbers rest := by
  obtain ⟨hrun, hafter⟩ := digits_span hds hrest
  have hlong : outOfRange.longest ('r' :: (ds ++ rest)) = some (ds.length + 1) := by
    show (if 16 ≤ decimal ((ds ++ rest).takeWhile digit) then _ else none) = _
    rw [hrun, hafter, if_pos hbig, if_neg hdot]
  have hbest := @best_outOfRange numbers ds rest _ hds hbig hlong (Nat.lt_succ_self _)
  have hlast : ('r' :: ds).getLast? ≠ some '.' := by
    intro h
    rcases List.mem_cons.mp (List.mem_of_getLast? h) with h | h
    · exact absurd h (by decide)
    · exact absurd (hds '.' h) (by decide)
  rw [written, scan_best hbest, List.take_succ_cons, List.take_left, List.drop_left]
  show Option.toList (if ('r' :: ds).getLast? = some '.' then _ else _) ++ _ = _
  rw [if_neg hlast]
  rfl

theorem written_outOfRangeDot (hds : ∀ a ∈ ds, digit a = true) (hbig : 16 ≤ decimal ds) :
    written numbers ('r' :: (ds ++ '.' :: rest)) = .outOfRangeDot ds :: written numbers rest := by
  obtain ⟨hrun, hafter⟩ := @digits_span ds ('.' :: rest) hds (by rintro a ⟨⟩; rfl)
  have hlong : outOfRange.longest ('r' :: (ds ++ '.' :: rest)) = some (ds.length + 1 + 1) := by
    show (if 16 ≤ decimal ((ds ++ '.' :: rest).takeWhile digit) then _ else none) = _
    rw [hrun, hafter, if_pos hbig]
    rfl
  have hbest := @best_outOfRange numbers ds ('.' :: rest) _ hds hbig hlong (by omega)
  have hsplit : ds ++ '.' :: rest = (ds ++ ['.']) ++ rest := by
    rw [List.append_assoc]
    rfl
  have hlength : (ds ++ ['.']).length = ds.length + 1 := List.length_append
  have hlast : ('r' :: (ds ++ ['.'])).getLast? = some '.' :=
    @List.getLast?_concat _ ('r' :: ds) '.'
  rw [written, scan_best hbest, hsplit, List.take_succ_cons, ← hlength, List.take_left,
    List.drop_left]
  show Option.toList (if ('r' :: (ds ++ ['.'])).getLast? = some '.' then
    some (Written.outOfRangeDot (ds ++ ['.']).dropLast) else _) ++ _ = _
  rw [if_pos hlast, List.dropLast_concat]
  rfl

theorem longest_none_of_ne (h : c ≠ 'r') : outOfRange.longest (c :: cs) = none := by
  show (match c :: cs with
    | 'r' :: cs => _
    | _ => none) = none
  split
  · next heq =>
    cases heq
    exact absurd rfl h
  · rfl

/-- No component is read where only rules without components can read. -/
theorem not_component {component : SwizzlePatternComponent} {ws : List Written} (hr : c ≠ 'r')
    (hline : c ≠ '\n') {some_rules : List (Rule Char Token)}
    (hbest : best (rules numbers) (c :: cs) = best some_rules (c :: cs))
    (hother : anyOther ∈ some_rules)
    (hactions : ∀ r ∈ some_rules, ∀ text, ∃ t, r.action text = some t ∧ ∀ v, t ≠ .vecComponent v) :
    written numbers (c :: cs) ≠ .token (.vecComponent component) :: ws := by
  have hone : anyOther.longest (c :: cs) = some 1 := by
    show oneBefore (fun c => decide (c ≠ '\n')) (fun _ => some 0) (c :: cs) = _
    rw [oneBefore, if_pos (decide_eq_true hline)]
    rfl
  obtain ⟨m, r, hfound, hm⟩ := best_ge hother hone
  obtain ⟨t, haction, hne⟩ := hactions r (best_mem hfound).1 ((c :: cs).take m)
  have hwritten := @best_written numbers c cs (longest_none_of_ne hr)
  rw [hbest, hfound] at hwritten
  obtain ⟨k, rfl⟩ := Nat.exists_eq_add_of_le' hm
  rw [written, scan_best hwritten]
  show Option.toList ((r.action ((c :: cs).take (k + 1))).map Written.token) ++ _ ≠ _
  rw [haction]
  intro h
  cases h
  exact hne component rfl

/-- Where the next token is a component, no digit and no `f` comes next. -/
theorem head_of_component {component : SwizzlePatternComponent} {ws : List Written}
    (h : written numbers cs = .token (.vecComponent component) :: ws) :
    ∀ a ∈ cs.head?, digit a = false ∧ a ≠ 'f' := by
  intro a ha
  cases cs with
  | nil => cases ha
  | cons c cs =>
    cases ha
    constructor
    · rw [← Bool.not_eq_true]
      intro hdigit
      refine not_component ?_ ?_ (best_digit hdigit) (by simp) ?_ h
      · rintro rfl
        exact absurd hdigit (by decide)
      · rintro rfl
        exact absurd hdigit (by decide)
      · simp only [List.forall_mem_cons]
        refine ⟨fun _ => ⟨_, rfl, nofun⟩, fun _ => ⟨_, rfl, nofun⟩, fun _ => ⟨_, rfl, nofun⟩, ?_⟩
        exact fun r hr => absurd hr List.not_mem_nil
    · rintro rfl
      refine @not_component numbers 'f' cs component ws (by decide) (by decide)
        (mnemonics.map mnemonic ++ [anyOther]) rfl (by simp) ?_ h
      intro r hr text
      rcases List.mem_append.mp hr with hr | hr
      · obtain ⟨entry, -, rfl⟩ := List.mem_map.mp hr
        exact ⟨.mnemonic entry.2, rfl, nofun⟩
      · rw [List.mem_singleton.mp hr]
        exact ⟨.undefToken, rfl, nofun⟩

theorem dotsFit_append {ws more : List Written} (h : DotsFit (ws ++ more)) : DotsFit more := by
  induction ws with
  | nil => exact h
  | cons w ws ih =>
    cases w with
    | token | outOfRange => exact ih h
    | outOfRangeDot => exact ih h.2

/-- Where no register is out of range both scanners take the same rule. -/
theorem tokens_written_of_longest_none {c : Char} (hlong : outOfRange.longest (c :: cs) = none)
    (hrest : ∀ rest : List Char, rest.length ≤ cs.length → DotsFit (written numbers rest) →
      tokens numbers rest = (written numbers rest).flatMap (scanned numbers))
    (hfit : DotsFit (written numbers (c :: cs))) :
    tokens numbers (c :: cs) = (written numbers (c :: cs)).flatMap (scanned numbers) := by
  have hwritten := @best_written numbers c cs hlong
  by_cases hread : ∃ n r, best (rules numbers) (c :: cs) = some (n + 1, r)
  · obtain ⟨n, r, hbest⟩ := hread
    rw [hbest] at hwritten
    rw [written, scan_best hwritten] at hfit
    rw [tokens, written, scan_best hbest, scan_best hwritten, List.flatMap_append]
    have hshort : (cs.drop n).length ≤ cs.length := by
      rw [List.length_drop]
      exact Nat.sub_le _ _
    have hmore := hrest (cs.drop n) hshort (dotsFit_append hfit)
    rw [tokens, written] at hmore
    rw [hmore]
    congr 1
    show _ = List.flatMap _ (Option.toList ((r.action ((c :: cs).take (n + 1))).map _))
    cases r.action ((c :: cs).take (n + 1)) <;> rfl
  · have hnone : ∀ n r, best (rules numbers) (c :: cs) ≠ some (n + 1, r) :=
      fun n r h => hread ⟨n, r, h⟩
    have hnone' : ∀ n r, best (writtenRules numbers) (c :: cs) ≠ some (n + 1, r) := by
      intro n r h
      rw [hwritten] at h
      obtain ⟨⟨m, r'⟩, hfound, heq⟩ := Option.map_eq_some_iff.mp h
      cases heq
      exact hnone n r' hfound
    rw [written, scan_skip hnone'] at hfit
    rw [tokens, written, scan_skip hnone, scan_skip hnone']
    exact hrest cs (Nat.le_refl _) hfit

/-- Where the rule reads, there are an `r` and a number out of range. -/
theorem outOfRange_longest_some {c : Char} {n : Nat}
    (hlong : outOfRange.longest (c :: cs) = some n) :
    c = 'r' ∧ ∃ ds rest, cs = ds ++ rest ∧ (∀ a ∈ ds, digit a = true) ∧ 16 ≤ decimal ds ∧
      ∀ a ∈ rest.head?, digit a = false := by
  have hr : c = 'r' := by
    by_contra hne
    rw [longest_none_of_ne hne] at hlong
    cases hlong
  subst hr
  refine ⟨rfl, cs.takeWhile digit, cs.dropWhile digit, List.takeWhile_append_dropWhile.symm,
    List.all_eq_true.mp List.all_takeWhile, ?_, ?_⟩
  · by_contra hsmall
    have hnone : outOfRange.longest ('r' :: cs) = none := if_neg hsmall
    rw [hnone] at hlong
    cases hlong
  · intro a ha
    have hnot := List.head?_dropWhile_not digit cs
    rw [ha] at hnot
    exact hnot

/-- A register that is out of range is what `scanned` says it is. -/
theorem tokens_written_outOfRange {ds rest : List Char} (hds : ∀ a ∈ ds, digit a = true)
    (hbig : 16 ≤ decimal ds) (hdigit : ∀ a ∈ rest.head?, digit a = false)
    (hrest : ∀ more : List Char, more.length ≤ rest.length → DotsFit (written numbers more) →
      tokens numbers more = (written numbers more).flatMap (scanned numbers))
    (hfit : DotsFit (written numbers ('r' :: (ds ++ rest)))) :
    tokens numbers ('r' :: (ds ++ rest)) =
      (written numbers ('r' :: (ds ++ rest))).flatMap (scanned numbers) := by
  by_cases hdot : rest.head? = some '.'
  · obtain ⟨more, rfl⟩ : ∃ more, rest = '.' :: more := by
      cases rest with
      | nil => cases hdot
      | cons a more =>
        cases hdot
        exact ⟨more, rfl⟩
    rw [written_outOfRangeDot hds hbig] at hfit ⊢
    obtain ⟨⟨component, ws, hnext⟩, hfit⟩ := hfit
    rw [tokens_outOfRangeDot hds hbig (head_of_component hnext), List.flatMap_cons,
      hrest more (Nat.le_succ _) hfit]
  · rw [written_outOfRange hds hbig hdigit hdot] at hfit ⊢
    rw [tokens_outOfRange hds hbig hdigit hdot, List.flatMap_cons,
      hrest rest (Nat.le_refl _) hfit]

/-- What is written, token by token, is what is scanned. -/
theorem tokens_written (numbers : NumberReader) (code : List Char)
    (hfit : DotsFit (written numbers code)) :
    tokens numbers code = (written numbers code).flatMap (scanned numbers) := by
  -- on the length, as a rule reads more than one character
  induction hlength : code.length using Nat.strongRecOn generalizing code with
  | ind n ih =>
    cases code with
    | nil => rfl
    | cons c cs =>
      have hshorter : ∀ rest : List Char, rest.length ≤ cs.length →
          DotsFit (written numbers rest) →
          tokens numbers rest = (written numbers rest).flatMap (scanned numbers) :=
        fun rest hle hfit => ih _ (hlength ▸ Nat.lt_succ_of_le hle) rest hfit rfl
      cases hlong : outOfRange.longest (c :: cs) with
      | none => exact tokens_written_of_longest_none hlong hshorter hfit
      | some N =>
        obtain ⟨rfl, ds, rest, rfl, hds, hbig, hdigit⟩ := outOfRange_longest_some hlong
        refine tokens_written_outOfRange hds hbig hdigit (fun more hle => ?_) hfit
        exact hshorter more (by rw [List.length_append]; omega)

end

end Scanner

end PicoGpu
