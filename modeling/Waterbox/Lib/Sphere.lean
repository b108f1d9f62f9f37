import Mathlib.Analysis.InnerProductSpace.PiL2
import Mathlib.Analysis.SpecialFunctions.Trigonometric.Inverse
import Mathlib.Geometry.Euclidean.Angle.Unoriented.TriangleInequality

namespace Waterbox

/-!
# Distances on a sphere

The haversine formula for two places given by latitude and longitude, in radians, gives the angle
between them as seen from the centre.

* `haversine_eq_inner` — the formula and the inner product of the two unit vectors.
* `two_arcsin_haversine` — the angle between two places; `angle_place_eq_zero_iff` — when it is
  zero.
-/

namespace Sphere

open Real InnerProductGeometry

/-- The place on the unit sphere with a latitude and a longitude. -/
noncomputable def place (lat lon : ℝ) : EuclideanSpace ℝ (Fin 3) :=
  WithLp.toLp _ ![cos lat * cos lon, cos lat * sin lon, sin lat]

/-- The haversine of the angle between two places. -/
noncomputable def haversine (lat₁ lon₁ lat₂ lon₂ : ℝ) : ℝ :=
  sin ((lat₂ - lat₁) / (2 : ℕ)) ^ 2 +
    cos lat₁ * cos lat₂ * sin ((lon₂ - lon₁) / (2 : ℕ)) ^ 2

variable (lat₁ lon₁ lat₂ lon₂ lat₃ lon₃ : ℝ)

theorem inner_place :
    inner ℝ (place lat₁ lon₁) (place lat₂ lon₂) =
      cos lat₁ * cos lat₂ * cos (lon₂ - lon₁) + sin lat₁ * sin lat₂ := by
  rw [EuclideanSpace.inner_eq_star_dotProduct, cos_sub]
  simp [place, dotProduct, Fin.sum_univ_three]
  ring

theorem norm_place (lat lon : ℝ) : ‖place lat lon‖ = 1 := by
  have hsq : ‖place lat lon‖ ^ 2 = 1 := by
    rw [← real_inner_self_eq_norm_sq, inner_place, sub_self, cos_zero, mul_one, ← pow_two,
      ← pow_two, cos_sq_add_sin_sq]
  rwa [pow_eq_one_iff_of_nonneg (norm_nonneg _) two_ne_zero] at hsq

theorem half_angle (x : ℝ) : sin (x / 2) ^ 2 = (1 - cos x) / 2 := by
  have h := cos_sq (x / 2)
  have hone := sin_sq_add_cos_sq (x / 2)
  rw [mul_div_cancel₀ x two_ne_zero] at h
  linarith

theorem haversine_eq_inner :
    haversine lat₁ lon₁ lat₂ lon₂ = (1 - inner ℝ (place lat₁ lon₁) (place lat₂ lon₂)) / 2 := by
  rw [haversine, Nat.cast_ofNat, half_angle, half_angle, inner_place, cos_sub lat₂ lat₁]
  ring

/-- The haversine is a number whose root has an arc sine. -/
theorem haversine_mem : 0 ≤ haversine lat₁ lon₁ lat₂ lon₂ ∧ haversine lat₁ lon₁ lat₂ lon₂ ≤ 1 := by
  have h := abs_real_inner_le_norm (place lat₁ lon₁) (place lat₂ lon₂)
  rw [norm_place, norm_place, mul_one, abs_le] at h
  rw [haversine_eq_inner]
  constructor <;> linarith

/-- The angle between two places, by the haversine formula. -/
theorem two_arcsin_haversine :
    2 * arcsin (√(haversine lat₁ lon₁ lat₂ lon₂)) = angle (place lat₁ lon₁) (place lat₂ lon₂) := by
  obtain ⟨hlow, hhigh⟩ := haversine_mem lat₁ lon₁ lat₂ lon₂
  have hsqrt : √(haversine lat₁ lon₁ lat₂ lon₂) ≤ 1 := sqrt_le_one.2 hhigh
  have hsin := sin_arcsin (by linarith [sqrt_nonneg (haversine lat₁ lon₁ lat₂ lon₂)]) hsqrt
  have hcos : cos (2 * arcsin (√(haversine lat₁ lon₁ lat₂ lon₂))) =
      inner ℝ (place lat₁ lon₁) (place lat₂ lon₂) := by
    rw [cos_two_mul, cos_sq', hsin, sq_sqrt hlow, haversine_eq_inner]
    ring
  have harcsin := arcsin_nonneg.2 (sqrt_nonneg (haversine lat₁ lon₁ lat₂ lon₂))
  have hle := arcsin_le_pi_div_two (√(haversine lat₁ lon₁ lat₂ lon₂))
  rw [angle, norm_place, norm_place, mul_one, div_one, ← hcos,
    arccos_cos (by linarith) (by linarith)]

/-- Two places are one where the angle between them is zero. -/
theorem angle_place_eq_zero_iff :
    angle (place lat₁ lon₁) (place lat₂ lon₂) = 0 ↔ place lat₁ lon₁ = place lat₂ lon₂ := by
  have hone := norm_place lat₁ lon₁
  have hone' := norm_place lat₂ lon₂
  have hle := real_inner_le_norm (place lat₁ lon₁) (place lat₂ lon₂)
  rw [hone, hone', mul_one] at hle
  rw [angle, hone, hone', mul_one, div_one, arccos_eq_zero,
    ← inner_eq_one_iff_of_norm_eq_one (𝕜 := ℝ) hone hone']
  exact ⟨fun h => le_antisymm hle h, fun h => h.ge⟩

end Sphere

end Waterbox
