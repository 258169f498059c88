import Mathlib.Tactic.Common

/- Scanners with the longest match. A pattern is a row of pieces, each for one symbol or a
   run of symbols of a class, and a rule reads the longest text that its pattern matches.
   Of several rules the one with the longest text is taken, of those with the same length
   the first one; its action makes a token of the text, or drops it. -/
namespace Munch

variable {α τ υ : Type*}

/-! ## Patterns -/

inductive Piece (α : Type*) where
  | one (p : α → Bool)
  | opt (p : α → Bool)
  | star (p : α → Bool)

def longer : Option Nat → Option Nat → Option Nat
  | none, n => n
  | some m, none => some m
  | some m, some n => some (max m n)

/-- A symbol of the class, and what follows it. -/
def oneBefore (p : α → Bool) (rest : List α → Option Nat) : List α → Option Nat
  | [] => none
  | a :: as => if p a then (rest as).map (· + 1) else none

def runBefore (p : α → Bool) (rest : List α → Option Nat) : List α → Option Nat
  | [] => rest []
  | a :: as => longer (rest (a :: as)) (if p a then (runBefore p rest as).map (· + 1) else none)

/-- The longest match of a piece with what follows it. -/
def Piece.before : Piece α → (List α → Option Nat) → List α → Option Nat
  | one p, rest => oneBefore p rest
  | opt p, rest => fun input => longer (rest input) (oneBefore p rest input)
  | star p, rest => runBefore p rest

/-- The length of the longest match at the start of the input. -/
def longest : List (Piece α) → List α → Option Nat
  | [] => fun _ => some 0
  | piece :: pieces => piece.before (longest pieces)

/-- One symbol or more. -/
def plus (p : α → Bool) : List (Piece α) := [.one p, .star p]

def literal [BEq α] (text : List α) : List (Piece α) := text.map fun a => .one (· == a)

/-! ### Runs -/

section
variable {p : α → Bool} {rest : List α → Option Nat}

/-- A run at the end of a pattern is as long as it can be. -/
theorem runBefore_last (p : α → Bool) : ∀ input : List α,
    runBefore p (fun _ => some 0) input = some (input.takeWhile p).length
  | [] => rfl
  | a :: as => by
    rw [runBefore, runBefore_last p as, List.takeWhile_cons]
    cases p a with
    | false => rfl
    | true =>
      show some (max 0 _) = _
      rw [Nat.zero_max]
      rfl

/-- What follows a run begins behind it, when it cannot begin with a symbol of the run. -/
theorem runBefore_follow (h : ∀ a as, p a = true → rest (a :: as) = none) : ∀ input : List α,
    runBefore p rest input =
      (rest (input.dropWhile p)).map (· + (input.takeWhile p).length)
  | [] => by
    rw [runBefore, List.dropWhile_nil, List.takeWhile_nil]
    cases rest [] <;> rfl
  | a :: as => by
    rw [runBefore, runBefore_follow h as, List.takeWhile_cons, List.dropWhile_cons]
    cases ha : p a with
    | false =>
      simp only [Bool.false_eq_true, if_false]
      cases rest (a :: as) <;> rfl
    | true =>
      rw [h a as ha]
      show (Option.map _ _).map _ = _
      rw [Option.map_map]
      rfl

end

/-! ## Rules -/

/-- The length of the longest text that a rule matches, and what it makes of the text. -/
structure Rule (α τ : Type*) where
  longest : List α → Option Nat
  action : List α → Option τ

/-- A rule with a pattern. -/
def Rule.ofPattern (pattern : List (Piece α)) (action : List α → Option τ) : Rule α τ :=
  ⟨Munch.longest pattern, action⟩

def Rule.map (f : τ → υ) (r : Rule α τ) : Rule α υ := ⟨r.longest, fun text => (r.action text).map f⟩

/-- The rule that is taken, with the length of its text. -/
def best : List (Rule α τ) → List α → Option (Nat × Rule α τ)
  | [], _ => none
  | r :: rules, input =>
    match r.longest input, best rules input with
    | some n, some (m, other) => if m ≤ n then some (n, r) else some (m, other)
    | some n, none => some (n, r)
    | none, other => other

/-- A symbol that no rule matches is left out. -/
def scanFrom (rules : List (Rule α τ)) : Nat → List α → List τ
  | 0, _ => []
  | _ + 1, [] => []
  | fuel + 1, a :: as =>
    match best rules (a :: as) with
    | some (n + 1, r) =>
      (r.action ((a :: as).take (n + 1))).toList ++ scanFrom rules fuel ((a :: as).drop (n + 1))
    | _ => scanFrom rules fuel as

def scan (rules : List (Rule α τ)) (input : List α) : List τ := scanFrom rules input.length input

/-! ## Which rule is taken -/

section
variable {r : Rule α τ} {rules : List (Rule α τ)} {input : List α} {n m : Nat}

theorem best_mem : ∀ {rules : List (Rule α τ)}, best rules input = some (n, r) →
    r ∈ rules ∧ r.longest input = some n
  | [], h => nomatch h
  | first :: rules, h => by
    unfold best at h
    split at h
    · next hfirst hrest =>
      split at h
      · cases h
        exact ⟨List.mem_cons_self, hfirst⟩
      · cases h
        obtain ⟨hmem, hlongest⟩ := best_mem hrest
        exact ⟨List.mem_cons_of_mem _ hmem, hlongest⟩
    · next hfirst hrest =>
      cases h
      exact ⟨List.mem_cons_self, hfirst⟩
    · obtain ⟨hmem, hlongest⟩ := best_mem h
      exact ⟨List.mem_cons_of_mem _ hmem, hlongest⟩

/-- What is taken is at least as long as what any rule reads. -/
theorem best_ge : ∀ {rules : List (Rule α τ)}, r ∈ rules → r.longest input = some n →
    ∃ m other, best rules input = some (m, other) ∧ n ≤ m
  | first :: rules, hmem, h => by
    unfold best
    rcases List.mem_cons.mp hmem with rfl | hmem
    · rw [h]
      cases best rules input with
      | none => exact ⟨n, r, rfl, Nat.le_refl n⟩
      | some found =>
        obtain ⟨m, other⟩ := found
        dsimp only
        split
        · exact ⟨n, r, rfl, Nat.le_refl n⟩
        · next hlt => exact ⟨m, other, rfl, Nat.le_of_not_le hlt⟩
    · obtain ⟨m, other, hbest, hle⟩ := best_ge hmem h
      rw [hbest]
      cases first.longest input with
      | none => exact ⟨m, other, rfl, hle⟩
      | some k =>
        dsimp only
        split
        · next hk => exact ⟨k, first, rfl, Nat.le_trans hle hk⟩
        · exact ⟨m, other, rfl, hle⟩

theorem best_cons_none (h : r.longest input = none) :
    best (r :: rules) input = best rules input := by
  rw [best, h]

/-- A rule that reads more than the others. -/
theorem best_cons_longest (h : r.longest input = some n)
    (hrest : ∀ m other, best rules input = some (m, other) → m ≤ n) :
    best (r :: rules) input = some (n, r) := by
  rw [best, h]
  cases hbest : best rules input with
  | none => rfl
  | some found =>
    obtain ⟨m, other⟩ := found
    dsimp only
    rw [if_pos (hrest m other hbest)]

theorem best_map (f : τ → υ) (input : List α) : ∀ rules : List (Rule α τ),
    best (rules.map (Rule.map f)) input =
      (best rules input).map fun found => (found.1, found.2.map f)
  | [] => rfl
  | r :: rules => by
    rw [List.map_cons, best, best, best_map f input rules]
    cases hr : r.longest input with
    | none =>
      have hr' : (r.map f).longest input = none := hr
      rw [hr']
    | some n =>
      have hr' : (r.map f).longest input = some n := hr
      rw [hr']
      cases best rules input with
      | none => rfl
      | some found =>
        obtain ⟨m, other⟩ := found
        simp only [Option.map_some]
        split <;> rfl

/-! ## Scanning -/

theorem scanFrom_succ (rules : List (Rule α τ)) : ∀ (fuel : Nat) (input : List α),
    input.length ≤ fuel → scanFrom rules (fuel + 1) input = scanFrom rules fuel input
  | 0, [], _ => rfl
  | _ + 1, [], _ => rfl
  | 0, _ :: _, h => absurd h (Nat.not_succ_le_zero _)
  | fuel + 1, a :: as, h => by
    rw [List.length_cons] at h
    rw [scanFrom, scanFrom]
    split
    · next n r hbest =>
      have hlength : ((a :: as).drop (n + 1)).length ≤ fuel := by
        rw [List.drop_succ_cons, List.length_drop]
        omega
      rw [scanFrom_succ rules fuel _ hlength]
    · exact scanFrom_succ rules fuel as (by omega)

theorem scanFrom_enough (rules : List (Rule α τ)) {fuel : Nat} {input : List α}
    (h : input.length ≤ fuel) : scanFrom rules fuel input = scan rules input := by
  induction h with
  | refl => rfl
  | step h ih => rw [scanFrom_succ rules _ input h, ih]

/-- A text that is read, and the rest of the input. -/
theorem scan_best {a : α} {as : List α} (h : best rules (a :: as) = some (n + 1, r)) :
    scan rules (a :: as) =
      (r.action ((a :: as).take (n + 1))).toList ++ scan rules (as.drop n) := by
  rw [scan, List.length_cons, scanFrom, h]
  dsimp only
  rw [scanFrom_enough]
  · rfl
  · rw [List.drop_succ_cons, List.length_drop]
    omega

/-- A symbol that is no text. -/
theorem scan_skip {a : α} {as : List α} (h : ∀ n r, best rules (a :: as) ≠ some (n + 1, r)) :
    scan rules (a :: as) = scan rules as := by
  rw [scan, List.length_cons, scanFrom]
  split
  · next n r hbest => exact absurd hbest (h n r)
  · rfl

end

end Munch
