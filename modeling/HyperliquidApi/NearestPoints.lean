import Mathlib

/-!
# Nearest points

Points of a set than which no other point of it is closer to a given number. Taking them fixes
the points of the set and keeps the order of numbers. A nearest point among the points beyond a
point of the set is a nearest point of the whole set.
-/
namespace HyperliquidApi.NearestPoints

variable {α : Type*} [Field α] [LinearOrder α] [IsStrictOrderedRing α]

/-- `p` is a point of `G`, and none is closer to `x`. -/
structure IsNearest (G : Set α) (x p : α) : Prop where
  mem : p ∈ G
  le : ∀ g ∈ G, |x - p| ≤ |x - g|

/-- A point of the set is nearest to itself only. -/
lemma IsNearest.eq_of_mem {G : Set α} {x p : α} (h : IsNearest G x p) (hx : x ∈ G) : p = x := by
  have hle := h.le x hx
  rw [sub_self, abs_zero] at hle
  exact (sub_eq_zero.mp (abs_nonpos_iff.mp hle)).symm

/-- Where the lower point is not farther, the number is not above the middle. -/
lemma le_midpoint {x p q : α} (hpq : p < q) (h : |x - p| ≤ |x - q|) : 2 * x ≤ p + q := by
  have hsq := sq_le_sq.mpr h
  have hprod : (q - p) * (2 * x) ≤ (q - p) * (p + q) := by linarith
  exact le_of_mul_le_mul_left hprod (sub_pos.mpr hpq)

lemma midpoint_le {x p q : α} (hpq : p < q) (h : |x - q| ≤ |x - p|) : p + q ≤ 2 * x := by
  have hsq := sq_le_sq.mpr h
  have hprod : (q - p) * (p + q) ≤ (q - p) * (2 * x) := by linarith
  exact le_of_mul_le_mul_left hprod (sub_pos.mpr hpq)

theorem IsNearest.mono {G : Set α} {x y p q : α} (hxy : x < y) (hp : IsNearest G x p)
    (hq : IsNearest G y q) : p ≤ q := by
  by_contra hlt
  rw [not_le] at hlt
  have hx := midpoint_le hlt (hp.le q hq.mem)
  have hy := le_midpoint hlt (hq.le p hp.mem)
  linarith

omit [IsStrictOrderedRing α] in
lemma IsNearest.subset {G H : Set α} {x p : α} (h : IsNearest H x p) (hmem : p ∈ G) (hsub : G ⊆ H) :
    IsNearest G x p :=
  ⟨hmem, fun g hg => h.le g (hsub hg)⟩

/-- What lies below a point of the set is farther than that point from the numbers above it. -/
lemma IsNearest.of_above {G : Set α} {x p a : α} (ha : a ∈ G) (hax : a ≤ x)
    (h : IsNearest (G ∩ Set.Ici a) x p) : IsNearest G x p := by
  refine ⟨h.mem.1, ?_⟩
  intro g hg
  by_cases hga : a ≤ g
  · exact h.le g ⟨hg, hga⟩
  · rw [not_le] at hga
    calc |x - p| ≤ |x - a| := h.le a ⟨ha, le_refl a⟩
      _ = x - a := abs_of_nonneg (sub_nonneg.mpr hax)
      _ ≤ x - g := sub_le_sub_left hga.le x
      _ ≤ |x - g| := le_abs_self _

end HyperliquidApi.NearestPoints
