import Mathlib.Analysis.Convex.Combination
import Mathlib.Analysis.Convex.Join
import Mathlib.LinearAlgebra.AffineSpace.FiniteDimensional
import Mathlib.Order.UpperLower.Closure
import Mathlib.Tactic.FieldSimp
import Mathlib.Tactic.LinearCombination

/- Three points of a plane over an ordered field. The signed areas that a fourth point
   makes with the three edges are its barycentric coordinates times the area of the
   triangle, so that in a triangle with an area their signs decide whether the point
   is in the hull of the three (`mem_hull_iff_sameSign`). Without an area the three are on
   a line, and a point of this line is in their hull when it is in their box. -/
namespace Plane

variable {K : Type*} [Field K]

/-- Twice the signed area of the triangle of three points. -/
def area (a b c : K × K) : K := (a.1 - c.1) * (b.2 - c.2) - (b.1 - c.1) * (a.2 - c.2)

section
variable (p a b c : K × K)

theorem area_self : area a a b = 0 := by
  unfold area
  ring

/-- A point divides the area of a triangle. -/
theorem area_sum : area p a b + area p b c + area p c a = area a b c := by
  unfold area
  ring

theorem area_smul : area p b c • a + area p c a • b + area p a b • c = area a b c • p := by
  apply Prod.ext
  · simp only [area, Prod.fst_add, Prod.smul_fst, smul_eq_mul]
    ring
  · simp only [area, Prod.snd_add, Prod.smul_snd, smul_eq_mul]
    ring

variable {p a b c}

/-- The areas of a combination are its weights. -/
theorem area_of_combination {u v w : K} (hsum : u + v + w = 1) (hp : u • a + v • b + w • c = p) :
    area p a b = w * area a b c ∧ area p b c = u * area a b c ∧ area p c a = v * area a b c := by
  obtain rfl : u = 1 - v - w := by rw [← hsum]; ring
  subst hp
  simp only [area, Prod.fst_add, Prod.snd_add, Prod.smul_fst, Prod.smul_snd, smul_eq_mul]
  refine ⟨?_, ?_, ?_⟩
  · ring
  · ring
  · ring

end

/-! ## Lines -/

section
variable {p a b c : K × K}

/-- Three points of a line have no area. -/
theorem area_of_collinear {s : Set (K × K)} (h : Collinear K s) (ha : a ∈ s) (hb : b ∈ s)
    (hc : c ∈ s) : area a b c = 0 := by
  obtain ⟨v, hv⟩ := (collinear_iff_of_mem ha).mp h
  obtain ⟨r, rfl⟩ := hv b hb
  obtain ⟨t, rfl⟩ := hv c hc
  simp only [area, vadd_eq_add, Prod.fst_add, Prod.snd_add, Prod.smul_fst, Prod.smul_snd,
    smul_eq_mul]
  ring

/-- A point without an area over two others is on their line. -/
theorem exists_of_area (hne : a ≠ b) (h : area p a b = 0) : ∃ r : K, p = r • (b - a) +ᵥ a := by
  unfold area at h
  -- the parameter is read off a coordinate in which the two points differ
  by_cases hfst : b.1 - a.1 = 0
  · have hsnd : b.2 - a.2 ≠ 0 := by
      intro hsnd
      exact hne (Prod.ext (sub_eq_zero.mp hfst).symm (sub_eq_zero.mp hsnd).symm)
    refine ⟨(p.2 - a.2) / (b.2 - a.2), Prod.ext ?_ ?_⟩
    · have hx : p.1 - a.1 = 0 := by
        have hmul : (p.1 - a.1) * (b.2 - a.2) = 0 := by
          linear_combination -h + (p.2 - b.2) * hfst + (b.2 - a.2) * hfst
        exact (mul_eq_zero.mp hmul).resolve_right hsnd
      simp only [vadd_eq_add, Prod.fst_add, Prod.smul_fst, Prod.fst_sub, smul_eq_mul, hfst, mul_zero,
        zero_add]
      exact sub_eq_zero.mp hx
    · simp only [vadd_eq_add, Prod.snd_add, Prod.smul_snd, Prod.snd_sub, smul_eq_mul]
      field_simp
      ring
  · refine ⟨(p.1 - a.1) / (b.1 - a.1), Prod.ext ?_ ?_⟩
    · simp only [vadd_eq_add, Prod.fst_add, Prod.smul_fst, Prod.fst_sub, smul_eq_mul]
      field_simp
      ring
    · simp only [vadd_eq_add, Prod.snd_add, Prod.smul_snd, Prod.snd_sub, smul_eq_mul]
      field_simp
      linear_combination h

theorem collinear_of_areas (hne : a ≠ b) (hp : area p a b = 0) (hc : area c a b = 0) :
    Collinear K {p, a, b, c} := by
  have ha : a ∈ ({p, a, b, c} : Set (K × K)) := by simp
  apply (collinear_iff_of_mem ha).mpr
  refine ⟨b - a, fun q hq => ?_⟩
  obtain rfl | rfl | rfl | rfl := hq
  · exact exists_of_area hne hp
  · exact ⟨0, by simp⟩
  · exact ⟨1, by simp⟩
  · exact exists_of_area hne hc

/-- The points of the line of three points. If these are all the same, that is every point. -/
theorem collinear_insert_iff (h : Collinear K {a, b, c}) : Collinear K {p, a, b, c} ↔
    area p a b = 0 ∧ area p b c = 0 ∧ area p c a = 0 := by
  constructor
  · intro hp
    refine ⟨?_, ?_, ?_⟩
    · apply area_of_collinear hp <;> simp
    · apply area_of_collinear hp <;> simp
    · apply area_of_collinear hp <;> simp
  · rintro ⟨hab, hbc, hca⟩
    by_cases hne : a = b
    · subst hne
      by_cases hne' : a = c
      · subst hne'
        simpa using collinear_pair K p a
      · have hline := @collinear_of_areas K _ p a c a hne' hbc (area_self a c)
        apply hline.subset
        intro q hq
        simp only [Set.mem_insert_iff, Set.mem_singleton_iff] at hq ⊢
        tauto
    · apply collinear_of_areas hne hab
      apply area_of_collinear h <;> simp

end

/-! ## Hulls -/

section
variable [LinearOrder K] [IsStrictOrderedRing K] {p a b c : K × K}

theorem mem_hull_iff : p ∈ convexHull K {a, b, c} ↔
    ∃ u v w : K, 0 ≤ u ∧ 0 ≤ v ∧ 0 ≤ w ∧ u + v + w = 1 ∧ u • a + v • b + w • c = p := by
  constructor
  · intro h
    rw [convexHull_insert (Set.insert_nonempty b {c}), convexHull_pair, mem_convexJoin] at h
    obtain ⟨a', rfl, q, ⟨v, w, hv, hw, hvw, rfl⟩, s, t, hs, ht, hst, rfl⟩ := h
    refine ⟨s, t * v, t * w, hs, mul_nonneg ht hv, mul_nonneg ht hw, ?_, ?_⟩
    · rw [add_assoc, ← mul_add, hvw, mul_one, hst]
    · rw [smul_add, smul_smul, smul_smul, add_assoc]
  · rintro ⟨u, v, w, hu, hv, hw, hsum, rfl⟩
    have hmem := (convex_convexHull K {a, b, c}).sum_mem (t := Finset.univ) (w := ![u, v, w])
      (z := ![a, b, c])
    simp only [Finset.mem_univ, true_imp_iff, Fin.sum_univ_three] at hmem
    apply hmem
    · intro i
      match i with
      | 0 => exact hu
      | 1 => exact hv
      | 2 => exact hw
    · exact hsum
    · intro i
      apply subset_convexHull
      match i with
      | 0 | 1 | 2 => simp

/-- No two of three numbers have opposite signs. -/
def SameSign (x y z : K) : Prop := (0 ≤ x ∧ 0 ≤ y ∧ 0 ≤ z) ∨ (x ≤ 0 ∧ y ≤ 0 ∧ z ≤ 0)

/-- Numbers without opposite signs add up to zero only if they all are zero. -/
theorem sameSign_iff_of_sum {x y z : K} (hsum : x + y + z = 0) :
    SameSign x y z ↔ x = 0 ∧ y = 0 ∧ z = 0 := by
  constructor
  · rintro (⟨hx, hy, hz⟩ | ⟨hx, hy, hz⟩)
    · refine ⟨?_, ?_, ?_⟩ <;> linarith
    · refine ⟨?_, ?_, ?_⟩ <;> linarith
  · rintro ⟨rfl, rfl, rfl⟩
    exact .inl ⟨le_refl 0, le_refl 0, le_refl 0⟩

/-- Inside a triangle no two of the areas over its edges have opposite signs, whichever
    way round its corners come. -/
theorem mem_hull_iff_sameSign (harea : area a b c ≠ 0) : p ∈ convexHull K {a, b, c} ↔
    SameSign (area p a b) (area p b c) (area p c a) := by
  rw [mem_hull_iff]
  constructor
  · rintro ⟨u, v, w, hu, hv, hw, hsum, hp⟩
    obtain ⟨hab, hbc, hca⟩ := area_of_combination hsum hp
    rw [hab, hbc, hca]
    obtain hneg | hpos := lt_or_gt_of_ne harea
    · have hle := le_of_lt hneg
      exact .inr ⟨mul_nonpos_of_nonneg_of_nonpos hw hle, mul_nonpos_of_nonneg_of_nonpos hu hle,
        mul_nonpos_of_nonneg_of_nonpos hv hle⟩
    · have hle := le_of_lt hpos
      exact .inl ⟨mul_nonneg hw hle, mul_nonneg hu hle, mul_nonneg hv hle⟩
  · intro hsigns
    -- the areas over the edges, as parts of the whole
    have hsum := area_sum p a b c
    have hpoint := area_smul p a b c
    refine ⟨area p b c / area a b c, area p c a / area a b c, area p a b / area a b c, ?_⟩
    have hweights : area p b c / area a b c + area p c a / area a b c + area p a b / area a b c =
        1 := by
      rw [← add_div, ← add_div, div_eq_one_iff_eq harea, ← hsum]
      ring
    have hp : (area p b c / area a b c) • a + (area p c a / area a b c) • b +
        (area p a b / area a b c) • c = p := by
      simp only [div_eq_inv_mul, ← smul_smul, ← smul_add]
      rw [hpoint, smul_smul, inv_mul_cancel₀ harea, one_smul]
    obtain ⟨hab, hbc, hca⟩ | ⟨hab, hbc, hca⟩ := hsigns
    · have harea' : 0 ≤ area a b c := by rw [← hsum]; positivity
      exact ⟨div_nonneg hbc harea', div_nonneg hca harea', div_nonneg hab harea', hweights, hp⟩
    · have harea' : area a b c ≤ 0 := by linarith
      exact ⟨div_nonneg_of_nonpos hbc harea', div_nonneg_of_nonpos hca harea',
        div_nonneg_of_nonpos hab harea', hweights, hp⟩

/-! ## Boxes -/

/-- The point is in the box of some points: not beyond all of them to any side. -/
structure InBox (s : Set (K × K)) (p : K × K) : Prop where
  left : ∃ q ∈ s, q.1 ≤ p.1
  right : ∃ q ∈ s, p.1 ≤ q.1
  below : ∃ q ∈ s, q.2 ≤ p.2
  above : ∃ q ∈ s, p.2 ≤ q.2

variable {s : Set (K × K)}

/-- A linear measure of a hull is not below all that of its points. -/
theorem exists_le_of_mem_hull (measure : K × K →ₗ[K] K) (hp : p ∈ convexHull K s) :
    ∃ q ∈ s, measure q ≤ measure p := by
  have hupper : Convex K (upperClosure (measure '' s) : Set K) :=
    (upperClosure (measure '' s)).upper.ordConnected.convex
  have hsub : s ⊆ Set.preimage measure (upperClosure (measure '' s)) := by
    intro q hq
    exact subset_upperClosure (Set.mem_image_of_mem measure hq)
  have hmem := convexHull_min hsub (hupper.linear_preimage measure) hp
  obtain ⟨-, ⟨q, hq, rfl⟩, hle⟩ := mem_upperClosure.mp hmem
  exact ⟨q, hq, hle⟩

theorem inBox_of_mem_hull (hp : p ∈ convexHull K s) : InBox s p where
  left := exists_le_of_mem_hull (LinearMap.fst K K K) hp
  right := by
    obtain ⟨q, hq, hle⟩ := exists_le_of_mem_hull (-LinearMap.fst K K K) hp
    exact ⟨q, hq, neg_le_neg_iff.mp hle⟩
  below := exists_le_of_mem_hull (LinearMap.snd K K K) hp
  above := by
    obtain ⟨q, hq, hle⟩ := exists_le_of_mem_hull (-LinearMap.snd K K K) hp
    exact ⟨q, hq, neg_le_neg_iff.mp hle⟩

/-- A point of a line is between two others when one of its coordinates is. -/
theorem mem_segment_of_line {v o : K × K} {r t r' x y : K} (hx : x ≠ 0)
    (hle : r * x + y ≤ t * x + y) (hle' : t * x + y ≤ r' * x + y) :
    t • v + o ∈ segment K (r • v + o) (r' • v + o) := by
  have hbetween : t ∈ segment K r r' := by
    rw [segment_eq_uIcc, Set.mem_uIcc]
    -- against a falling coordinate the order of the parameters is the other way round
    obtain hneg | hpos := lt_or_gt_of_ne hx
    · refine .inr ⟨(mul_le_mul_right_of_neg hneg).mp ?_, (mul_le_mul_right_of_neg hneg).mp ?_⟩
      · linarith
      · linarith
    · refine .inl ⟨le_of_mul_le_mul_right ?_ hpos, le_of_mul_le_mul_right ?_ hpos⟩
      · linarith
      · linarith
  have hline : ∀ r : K, AffineMap.lineMap o (v + o) r = r • v + o := by
    intro r
    rw [AffineMap.lineMap_apply, vsub_eq_sub, add_sub_cancel_right, vadd_eq_add]
  rw [← hline, ← hline, ← hline, ← image_segment]
  exact Set.mem_image_of_mem _ hbetween

/-- On the line of some points their hull is their box. -/
theorem mem_hull_iff_inBox (hline : Collinear K (insert p s)) :
    p ∈ convexHull K s ↔ InBox s p := by
  constructor
  · exact inBox_of_mem_hull
  · rintro ⟨⟨q, hq, hleft⟩, ⟨q', hq', hright⟩, ⟨d, hd, hbelow⟩, ⟨d', hd', habove⟩⟩
    obtain ⟨o, v, hv⟩ := (collinear_iff_exists_forall_eq_smul_vadd (insert p s)).mp hline
    have hat : ∀ q ∈ s, ∃ r : K, q = r • v +ᵥ o := fun q hq => hv q (Set.mem_insert_of_mem p hq)
    obtain ⟨t, rfl⟩ := hv p (Set.mem_insert p s)
    obtain ⟨r, rfl⟩ := hat q hq
    -- a coordinate that changes along the line orders its points
    by_cases hfst : v.1 = 0
    · by_cases hsnd : v.2 = 0
      · -- all points are the same one
        have hzero : v = 0 := Prod.ext hfst hsnd
        subst hzero
        rw [smul_zero, zero_vadd] at hq ⊢
        exact subset_convexHull K s hq
      · obtain ⟨e, rfl⟩ := hat d hd
        obtain ⟨e', rfl⟩ := hat d' hd'
        exact segment_subset_convexHull hd hd' (mem_segment_of_line hsnd hbelow habove)
    · obtain ⟨r', rfl⟩ := hat q' hq'
      exact segment_subset_convexHull hq hq' (mem_segment_of_line hfst hleft hright)

end

end Plane
