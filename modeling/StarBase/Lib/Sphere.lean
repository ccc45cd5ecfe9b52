import Mathlib.Analysis.Convex.SpecificFunctions.Deriv
import Mathlib.Analysis.SpecialFunctions.Trigonometric.Bounds
import Mathlib.Analysis.SpecialFunctions.Trigonometric.Inverse

/-!
# Caps of the sphere

Points by longitude and latitude in radians, and their distance by the haversine formula.

* `haversine`, `dist` — the distance of two points whose longitudes differ by `a`;
* `dist_le_iff` — **PROVED**: a cap is a half space;
* `abs_sub_le_dist` — **PROVED**: latitudes differ at most by the distance;
* `exists_wider` — **PROVED**: off the equator, a cap that reaches no pole is wider in longitude than
  its radius over the cosine of the latitude;
* `cos_le_of_dist_le_equator` — **PROVED**: on the equator it is as wide as its radius.
-/

namespace Sphere

open Real

/-! ### The distance -/

/-- The haversine of the distance of points at the latitudes `δ` and `δ'`. -/
noncomputable def haversine (δ δ' a : ℝ) : ℝ :=
  sin ((δ' - δ) / 2) ^ 2 + cos δ * cos δ' * sin (a / 2) ^ 2

noncomputable def dist (δ δ' a : ℝ) : ℝ := 2 * arcsin (√(haversine δ δ' a))

/-- Between the poles. -/
def IsLatitude (δ : ℝ) : Prop := -(π / 2) ≤ δ ∧ δ ≤ π / 2

variable {δ δ' a ρ : ℝ}

theorem IsLatitude.cos_nonneg (h : IsLatitude δ) : 0 ≤ cos δ := cos_nonneg_of_neg_pi_div_two_le_of_le h.1 h.2

theorem sin_half_sq (x : ℝ) : sin (x / 2) ^ 2 = (1 - cos x) / 2 := by
  rw [sin_sq_eq_half_sub]
  ring_nf

/-- The cosine of the distance. -/
theorem one_sub_two_haversine (δ δ' a : ℝ) :
    1 - 2 * haversine δ δ' a = sin δ * sin δ' + cos δ * cos δ' * cos a := by
  unfold haversine
  rw [sin_half_sq, sin_half_sq, cos_sub]
  ring

theorem haversine_nonneg (hδ : IsLatitude δ) (hδ' : IsLatitude δ') : 0 ≤ haversine δ δ' a := by
  have hcos := mul_nonneg hδ.cos_nonneg hδ'.cos_nonneg
  unfold haversine
  positivity

theorem haversine_le_one (hδ : IsLatitude δ) (hδ' : IsLatitude δ') : haversine δ δ' a ≤ 1 := by
  have hcos := mul_nonneg hδ.cos_nonneg hδ'.cos_nonneg
  have hsum : cos (δ' + δ) ≤ 1 := cos_le_one _
  rw [cos_add] at hsum
  have hleast : -(cos δ * cos δ') ≤ cos δ * cos δ' * cos a := by
    have := mul_le_mul_of_nonneg_left (neg_one_le_cos a) hcos
    linarith
  have := one_sub_two_haversine δ δ' a
  linarith

theorem cos_dist (hδ : IsLatitude δ) (hδ' : IsLatitude δ') :
    cos (dist δ δ' a) = sin δ * sin δ' + cos δ * cos δ' * cos a := by
  have hnn : 0 ≤ haversine δ δ' a := haversine_nonneg hδ hδ'
  have hone : √(haversine δ δ' a) ≤ 1 := Real.sqrt_le_one.mpr (haversine_le_one hδ hδ')
  have hzero : -1 ≤ √(haversine δ δ' a) := le_trans (by norm_num) (Real.sqrt_nonneg _)
  unfold dist
  rw [cos_two_mul', cos_sq', sin_arcsin hzero hone, Real.sq_sqrt hnn, ← one_sub_two_haversine]
  ring

theorem dist_mem (δ δ' a : ℝ) : 0 ≤ dist δ δ' a ∧ dist δ δ' a ≤ π := by
  have hnn : 0 ≤ arcsin (√(haversine δ δ' a)) := arcsin_nonneg.mpr (Real.sqrt_nonneg _)
  have hle : arcsin (√(haversine δ δ' a)) ≤ π / 2 := arcsin_le_pi_div_two _
  unfold dist
  constructor <;> linarith

theorem dist_neg (δ δ' a : ℝ) : dist δ δ' (-a) = dist δ δ' a := by
  unfold dist haversine
  rw [neg_div, sin_neg, neg_sq]

/-- **Caps.**  The points within a distance are those of a half space. -/
theorem dist_le_iff (hδ : IsLatitude δ) (hδ' : IsLatitude δ') (h0 : 0 ≤ ρ) (hπ : ρ ≤ π) :
    dist δ δ' a ≤ ρ ↔ cos ρ ≤ sin δ * sin δ' + cos δ * cos δ' * cos a := by
  rw [← cos_dist hδ hδ']
  constructor
  · exact fun h => cos_le_cos_of_nonneg_of_le_pi (dist_mem δ δ' a).1 hπ h
  · intro h
    by_contra hlt
    exact absurd (cos_lt_cos_of_nonneg_of_le_pi h0 (dist_mem δ δ' a).2 (not_le.mp hlt)) (not_lt.mpr h)

/-! ### Latitudes -/

theorem abs_sub_le_dist (hδ : IsLatitude δ) (hδ' : IsLatitude δ') : |δ' - δ| ≤ dist δ δ' a := by
  have hπ : |δ' - δ| ≤ π := abs_sub_le_iff.mpr ⟨by linarith [hδ.1, hδ'.2], by linarith [hδ.2, hδ'.1]⟩
  by_contra hlt
  have hcos := cos_lt_cos_of_nonneg_of_le_pi (dist_mem δ δ' a).1 hπ (not_le.mp hlt)
  rw [cos_dist hδ hδ', cos_abs, cos_sub] at hcos
  have hle := mul_le_mul_of_nonneg_left (cos_le_one a) (mul_nonneg hδ.cos_nonneg hδ'.cos_nonneg)
  linarith

/-! ### Longitudes -/

/-- On the equator, a cap is no wider than its radius. -/
theorem cos_le_of_dist_le_equator (hδ' : IsLatitude δ') (h0 : 0 ≤ ρ) (hρ : ρ < π / 2)
    (h : dist 0 δ' a ≤ ρ) : cos ρ ≤ cos a := by
  have heq : IsLatitude 0 := ⟨by linarith [pi_pos], by linarith [pi_pos]⟩
  have hcap := (dist_le_iff heq hδ' h0 (by linarith [pi_pos])).mp h
  rw [sin_zero, zero_mul, cos_zero, one_mul, zero_add] at hcap
  have hpos : 0 < cos ρ := cos_pos_of_mem_Ioo ⟨by linarith [pi_pos], hρ⟩
  have ha : 0 < cos a := pos_of_mul_pos_right (hpos.trans_le hcap) hδ'.cos_nonneg
  calc cos ρ ≤ cos δ' * cos a := hcap
    _ ≤ 1 * cos a := mul_le_mul_of_nonneg_right (cos_le_one δ') ha.le
    _ = cos a := one_mul _

/-- On the equator itself, the distance is the difference of the longitudes. -/
theorem dist_equator_le (h0 : 0 ≤ ρ) (hπ : ρ ≤ π) (h : cos ρ ≤ cos a) : dist 0 0 a ≤ ρ := by
  have heq : IsLatitude 0 := ⟨by linarith [pi_pos], by linarith [pi_pos]⟩
  rw [dist_le_iff heq heq h0 hπ, sin_zero, cos_zero]
  linarith

theorem sqrt_one_sub_div_sq {x c : ℝ} (hc : 0 < c) : √(1 - (x / c) ^ 2) = √(c ^ 2 - x ^ 2) / c := by
  have hmul : c ^ 2 - x ^ 2 = (1 - (x / c) ^ 2) * c ^ 2 := by
    field_simp
  rw [hmul, Real.sqrt_mul' _ (sq_nonneg c), Real.sqrt_sq hc.le, mul_div_cancel_right₀ _ hc.ne']

section Tangent

variable (hρ : 0 < ρ) (hδ : 0 < |δ|) (hpole : |δ| + ρ < π / 2)

include hρ hpole in
theorem sin_lt_cos : sin ρ < cos δ := by
  rw [← cos_abs δ, ← cos_pi_div_two_sub ρ]
  exact cos_lt_cos_of_nonneg_of_le_pi (abs_nonneg δ) (by linarith [pi_pos]) (by linarith)

include hρ hpole in
/-- The quotient is less than a right angle. -/
theorem div_cos_lt : ρ / cos δ < π / 2 := by
  have hρ' : ρ ≤ π / 2 := by linarith [abs_nonneg δ]
  have hsin : 0 < sin ρ := sin_pos_of_pos_of_lt_pi hρ (by linarith [pi_pos])
  have hcos : 0 < cos δ := hsin.trans (sin_lt_cos hρ hpole)
  have hjordan := (mul_le_sin hρ.le hρ').trans_lt (sin_lt_cos hρ hpole)
  rw [div_lt_iff₀ hcos]
  calc ρ = π / 2 * (2 / π * ρ) := by
        field_simp
    _ < π / 2 * cos δ := by
        exact mul_lt_mul_of_pos_left hjordan (by linarith [pi_pos])

include hρ hδ hpole in
/-- By the concavity of the sine. -/
theorem sin_div_cos_lt : sin (ρ / cos δ) < sin ρ / cos δ := by
  have hcos : 0 < cos δ := (sin_pos_of_pos_of_lt_pi hρ (by linarith [pi_pos, abs_nonneg δ])).trans
    (sin_lt_cos hρ hpole)
  have hone : cos δ < 1 := by
    rw [← cos_abs δ, ← cos_zero]
    exact cos_lt_cos_of_nonneg_of_le_pi le_rfl (by linarith [pi_pos]) hδ
  have hx : 0 < ρ / cos δ := div_pos hρ hcos
  have hconcave := strictConcaveOn_sin_Icc.2 ⟨le_rfl, pi_pos.le⟩
    ⟨hx.le, by linarith [div_cos_lt hρ hpole, pi_pos]⟩ hx.ne (sub_pos.mpr hone) hcos
    (sub_add_cancel 1 (cos δ))
  rw [sin_zero, smul_zero, zero_add, zero_add, smul_eq_mul, smul_eq_mul,
    mul_div_cancel₀ _ hcos.ne'] at hconcave
  rw [lt_div_iff₀ hcos, mul_comm]
  exact hconcave

include hρ hδ hpole in
/-- **Wider.**  Where a meridian touches the cap, the longitudes differ by more. -/
theorem exists_wider : ∃ δ' a, IsLatitude δ' ∧ ρ / cos δ < a ∧ a < π / 2 ∧ dist δ δ' a = ρ := by
  have hπ := pi_pos
  have habs := abs_nonneg δ
  have hlat : IsLatitude δ := abs_le.mp (by linarith)
  have hsinρ : 0 < sin ρ := sin_pos_of_pos_of_lt_pi hρ (by linarith)
  have hcosδ : 0 < cos δ := hsinρ.trans (sin_lt_cos hρ hpole)
  have hcosρ : 0 < cos ρ := cos_pos_of_mem_Ioo ⟨by linarith, by linarith⟩
  have hsinδ : |sin δ| < cos ρ := by
    have hswap : |sin δ| = sin |δ| := by
      rcases abs_cases δ with ⟨h, h'⟩ | ⟨h, h'⟩
      · rw [h, abs_of_nonneg (sin_nonneg_of_nonneg_of_le_pi h' (by linarith [hlat.2]))]
      · rw [h, sin_neg, abs_of_nonpos (sin_nonpos_of_nonpos_of_neg_pi_le h'.le (by linarith [hlat.1]))]
    rw [hswap, ← cos_pi_div_two_sub]
    exact cos_lt_cos_of_nonneg_of_le_pi hρ.le (by linarith) (by linarith)
  -- the point of the meridian that is nearest to the centre
  have hquot : |sin δ / cos ρ| < 1 := by
    rw [abs_div, abs_of_pos hcosρ, div_lt_one hcosρ]
    exact hsinδ
  have hwide : sin ρ / cos δ < 1 := (div_lt_one hcosδ).mpr (sin_lt_cos hρ hpole)
  have hwide0 : 0 < sin ρ / cos δ := div_pos hsinρ hcosδ
  obtain ⟨hq1, hq2⟩ := abs_lt.mp hquot
  refine ⟨arcsin (sin δ / cos ρ), arcsin (sin ρ / cos δ), ?_, ?_, arcsin_lt_pi_div_two.mpr hwide, ?_⟩
  · exact ⟨neg_pi_div_two_le_arcsin _, arcsin_le_pi_div_two _⟩
  · have hx : 0 < ρ / cos δ := div_pos hρ hcosδ
    rw [lt_arcsin_iff_sin_lt ⟨by linarith, (div_cos_lt hρ hpole).le⟩ ⟨by linarith, hwide.le⟩]
    exact sin_div_cos_lt hρ hδ hpole
  · have hlat' : IsLatitude (arcsin (sin δ / cos ρ)) :=
      ⟨neg_pi_div_two_le_arcsin _, arcsin_le_pi_div_two _⟩
    have hcosd : cos (dist δ (arcsin (sin δ / cos ρ)) (arcsin (sin ρ / cos δ))) = cos ρ := by
      rw [cos_dist hlat hlat', sin_arcsin hq1.le hq2.le, cos_arcsin, cos_arcsin]
      have hD : 0 ≤ cos ρ ^ 2 - sin δ ^ 2 := by
        have := sq_lt_sq.mpr (by rw [abs_of_pos hcosρ]; exact hsinδ : |sin δ| < |cos ρ|)
        linarith
      have hsame : cos δ ^ 2 - sin ρ ^ 2 = cos ρ ^ 2 - sin δ ^ 2 := by
        rw [cos_sq', cos_sq']
        ring
      have hsq : √(cos ρ ^ 2 - sin δ ^ 2) ^ 2 = cos ρ ^ 2 - sin δ ^ 2 := Real.sq_sqrt hD
      rw [sqrt_one_sub_div_sq hcosρ, sqrt_one_sub_div_sq hcosδ, hsame]
      calc sin δ * (sin δ / cos ρ) + cos δ * (√(cos ρ ^ 2 - sin δ ^ 2) / cos ρ) *
            (√(cos ρ ^ 2 - sin δ ^ 2) / cos δ)
          = (sin δ ^ 2 + √(cos ρ ^ 2 - sin δ ^ 2) ^ 2) / cos ρ := by
            field_simp
        _ = cos ρ ^ 2 / cos ρ := by rw [hsq, add_sub_cancel]
        _ = cos ρ := by rw [sq, mul_div_cancel_right₀ _ hcosρ.ne']
    exact injOn_cos ⟨(dist_mem _ _ _).1, (dist_mem _ _ _).2⟩ ⟨hρ.le, by linarith⟩ hcosd

end Tangent

end Sphere
