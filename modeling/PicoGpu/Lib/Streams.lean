import Mathlib.Data.List.Basic

/- What passes through a process, clock by clock. A process takes items in, holds some of
   them, and gives items out. If at each clock what it held and what came in is, in this
   order, what it gave and what it holds next, then at any time all that has come in is what
   it has given and what it holds. What is lost on a link between two processes makes a
   sublist of what was given. -/
namespace Streams

variable {α β : Type*}

/-- What passed at the clocks before `n`. -/
def upTo (items : Nat → List α) (n : Nat) : List α := (List.range n).flatMap items

theorem upTo_succ (items : Nat → List α) (n : Nat) : upTo items (n + 1) = upTo items n ++ items n := by
  unfold upTo
  rw [List.range_succ, List.flatMap_append, List.flatMap_cons, List.flatMap_nil, List.append_nil]

theorem upTo_map (items : Nat → List α) (g : α → β) (n : Nat) :
    upTo (fun k => (items k).map g) n = (upTo items n).map g := by
  unfold upTo
  rw [List.map_flatMap]

theorem upTo_flatMap (items : Nat → List α) (g : α → List β) (n : Nat) :
    upTo (fun k => (items k).flatMap g) n = (upTo items n).flatMap g := by
  unfold upTo
  rw [List.flatMap_assoc]

/-- A link that loses items passes the others in their order. -/
theorem upTo_sublist {items items' : Nat → List α} (h : ∀ k, (items k).Sublist (items' k)) (n : Nat) :
    (upTo items n).Sublist (upTo items' n) := by
  induction n with
  | zero => exact List.Sublist.refl _
  | succ n ih =>
    rw [upTo_succ, upTo_succ]
    exact ih.append (h n)

/-- One more clock of a process that has given what it does not hold. -/
theorem conserved_step {total given holds new gives holds' : List α} (h : total = given ++ holds)
    (hclock : holds ++ new = gives ++ holds') : total ++ new = (given ++ gives) ++ holds' := by
  rw [h, List.append_assoc, hclock, List.append_assoc]

/-- All that has come in is what was given, and what is held. -/
theorem conserved {total holds gives : Nat → List α} (h0 : total 0 = holds 0)
    (h : ∀ k, ∃ new, total (k + 1) = total k ++ new ∧
      holds k ++ new = gives k ++ holds (k + 1)) (n : Nat) :
    total n = upTo gives n ++ holds n := by
  induction n with
  | zero => exact h0
  | succ n ih =>
    obtain ⟨new, htotal, hclock⟩ := h n
    calc total (n + 1) = total n ++ new := htotal
      _ = (upTo gives n ++ gives n) ++ holds (n + 1) := conserved_step ih hclock
      _ = upTo gives (n + 1) ++ holds (n + 1) := by rw [upTo_succ]

end Streams
