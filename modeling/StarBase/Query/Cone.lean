import Mathlib
import StarBase.Lib.Sphere
import StarBase.Query.Filter

/-!
# The cone search over the reals

A cone compiles to a bounding box, which an index can serve, and the exact distance.  Both are read
here over the real numbers.

* `exactRaHalf`, `InBox` — the bounding box;
* `centralAngle` — the haversine distance of the statement;
* `prefilter_sound_iff` — **PROVED**: the box keeps the whole cone exactly if it bounds no right
  ascension, or the cone is on the equator and does not cross the meridian of zero.

Rounding is left out: the box is that of real numbers.
-/

namespace StarBase.Query

open Real Sphere

/-! ### The predicate -/

/-- `RADIANS`, and `dec * M_PI / 180.0`. -/
noncomputable def radians (x : ℝ) : ℝ := x * π / 180

noncomputable def degrees (x : ℝ) : ℝ := x * 180 / π

/-- Half the width of the box; it grows with the declination and is clamped near the poles. -/
noncomputable def exactRaHalf (dec r : ℝ) : ℝ :=
  if |cos (radians dec)| < 1e-6 ∨ 90 ≤ |dec| + r then 180 else r / |cos (radians dec)|

/-- `dec_deg BETWEEN ...` and, for a half width under 180, `ra_deg BETWEEN ...`. -/
def InBox (ra dec r ra' dec' : ℝ) : Prop :=
  (dec - r ≤ dec' ∧ dec' ≤ dec + r) ∧
    (exactRaHalf dec r < 180 → ra - exactRaHalf dec r ≤ ra' ∧ ra' ≤ ra + exactRaHalf dec r)

/-- `DEGREES(2*ASIN(SQRT(...)))`; `centralAngle_eq` writes it out. -/
noncomputable def centralAngle (ra dec ra' dec' : ℝ) : ℝ :=
  degrees (Sphere.dist (radians dec) (radians dec') (radians (ra' - ra)))

/-- The predicate of a cone on the columns `ra_deg` and `dec_deg`. -/
def ConeHolds (ra dec r : ℝ) (raDeg decDeg : Option ℝ) : Prop :=
  ∃ ra' dec', raDeg = some ra' ∧ decDeg = some dec' ∧ InBox ra dec r ra' dec' ∧
    centralAngle ra dec ra' dec' ≤ r

structure IsPosition (ra dec : ℝ) : Prop where
  ra_nonneg : 0 ≤ ra
  ra_lt : ra < 360
  dec_ge : -90 ≤ dec
  dec_le : dec ≤ 90

/-- The box holds of every position in the cone, so the predicate is the test of the distance. -/
structure PrefilterSound (ra dec r : ℝ) : Prop where
  box : ∀ ra' dec', IsPosition ra' dec' → centralAngle ra dec ra' dec' ≤ r → InBox ra dec r ra' dec'
  whole : ∀ ra' dec', IsPosition ra' dec' →
    (ConeHolds ra dec r (some ra') (some dec') ↔ centralAngle ra dec ra' dec' ≤ r)

/-- A radius that `compile_cone` takes. -/
def AcceptsRadius (r : ℝ) : Prop := ¬(r ≤ 0 ∨ 180 < r)

/-! ### Degrees and radians -/

theorem radians_sub (x y : ℝ) : radians (x - y) = radians x - radians y := by
  unfold radians
  ring

theorem radians_degrees (x : ℝ) : radians (degrees x) = x := by
  unfold radians degrees
  field_simp

theorem degrees_le_iff {x r : ℝ} : degrees x ≤ r ↔ x ≤ radians r := by
  unfold degrees radians
  rw [div_le_iff₀ pi_pos, le_div_iff₀ (by norm_num)]

theorem lt_degrees_iff {x r : ℝ} : r < degrees x ↔ radians r < x := by
  rw [← not_le, degrees_le_iff, not_le]

theorem radians_le_radians {x y : ℝ} : radians x ≤ radians y ↔ x ≤ y := by
  rw [← degrees_le_iff]
  unfold degrees radians
  rw [div_mul_cancel₀ _ (by norm_num), mul_div_cancel_right₀ _ pi_ne_zero]

theorem radians_lt_radians {x y : ℝ} : radians x < radians y ↔ x < y := by
  rw [← not_le, radians_le_radians, not_le]

theorem radians_zero : radians 0 = 0 := by simp [radians]

theorem radians_right : radians 90 = π / 2 := by
  unfold radians
  ring

theorem radians_full : radians 360 = 2 * π := by
  unfold radians
  ring

theorem radians_abs (x : ℝ) : radians |x| = |radians x| := by
  unfold radians
  rw [abs_div, abs_mul, abs_of_pos pi_pos, abs_of_pos (by norm_num : (0 : ℝ) < 180)]

theorem radians_div (x c : ℝ) : radians (x / c) = radians x / c := by
  unfold radians
  ring

section Cone

variable {ra dec r ra' dec' : ℝ}

theorem centralAngle_eq (ra dec ra' dec' : ℝ) :
    centralAngle ra dec ra' dec' =
      degrees (2 * arcsin (√(sin (radians (dec' - dec) / 2) ^ 2 +
        cos (radians dec) * cos (radians dec') * sin (radians (ra' - ra) / 2) ^ 2))) := by
  unfold centralAngle Sphere.dist haversine
  rw [← radians_sub dec' dec]

theorem centralAngle_le_iff : centralAngle ra dec ra' dec' ≤ r ↔
    Sphere.dist (radians dec) (radians dec') (radians (ra' - ra)) ≤ radians r := by
  exact degrees_le_iff

theorem IsPosition.isLatitude (h : IsPosition ra dec) : IsLatitude (radians dec) := by
  have hneg : radians (-90) = -(π / 2) := by
    unfold radians
    ring
  unfold IsLatitude
  rw [← hneg, ← radians_right, radians_le_radians, radians_le_radians]
  exact ⟨h.dec_ge, h.dec_le⟩

theorem AcceptsRadius.pos (h : AcceptsRadius r) : 0 < r := not_le.mp (not_or.mp h).1

theorem AcceptsRadius.le (h : AcceptsRadius r) : r ≤ 180 := not_lt.mp (not_or.mp h).2

theorem prefilterSound_iff_box : PrefilterSound ra dec r ↔
    ∀ ra' dec', IsPosition ra' dec' → centralAngle ra dec ra' dec' ≤ r →
      InBox ra dec r ra' dec' := by
  constructor
  · exact fun h => h.box
  · intro h
    refine ⟨h, fun ra' dec' hpos => ⟨?_, fun hcone => ⟨ra', dec', rfl, rfl, h _ _ hpos hcone, hcone⟩⟩⟩
    rintro ⟨x, y, hx, hy, -, hcone⟩
    cases hx
    cases hy
    exact hcone

/-- The declinations of a cone are those of the box. -/
theorem dec_between (hc : IsPosition ra dec) (hp : IsPosition ra' dec')
    (hcone : centralAngle ra dec ra' dec' ≤ r) : dec - r ≤ dec' ∧ dec' ≤ dec + r := by
  have hdist := (abs_sub_le_dist hc.isLatitude hp.isLatitude).trans (centralAngle_le_iff.mp hcone)
  rw [← radians_sub, ← radians_abs, radians_le_radians, abs_le] at hdist
  constructor <;> linarith [hdist.1, hdist.2]

/-- Near the poles only the declination counts. -/
theorem sound_of_clamped (hc : IsPosition ra dec)
    (hclamped : |cos (radians dec)| < 1e-6 ∨ 90 ≤ |dec| + r) : PrefilterSound ra dec r := by
  rw [prefilterSound_iff_box]
  intro ra' dec' hp hcone
  refine ⟨dec_between hc hp hcone, fun hhalf => ?_⟩
  unfold exactRaHalf at hhalf
  rw [if_pos hclamped] at hhalf
  exact absurd hhalf (lt_irrefl _)

/-- On the equator the half width is the radius. -/
theorem exactRaHalf_equator (hr : r < 90) : exactRaHalf 0 r = r := by
  unfold exactRaHalf
  rw [radians_zero, cos_zero, abs_one, abs_zero, zero_add, div_one, if_neg]
  rintro (h | h)
  · norm_num at h
  · exact absurd hr (not_lt.mpr h)

/-- What lies within the radius on the equator, all around. -/
theorem cos_le_iff_around (hr : 0 ≤ r) (hr' : r ≤ 180) {x : ℝ} (hx : |x| ≤ 360) :
    cos (radians r) ≤ cos (radians x) ↔ |x| ≤ r ∨ 360 - r ≤ |x| := by
  have hle : ∀ y, 0 ≤ y → y ≤ 180 → (cos (radians r) ≤ cos (radians y) ↔ y ≤ r) := by
    have hzero : ∀ y, 0 ≤ y → 0 ≤ radians y := fun y hy => by
      rw [← radians_zero, radians_le_radians]
      exact hy
    have hhalf : ∀ y, y ≤ 180 → radians y ≤ π := fun y hy => by
      have hπ : radians 180 = π := by
        unfold radians
        ring
      rw [← hπ, radians_le_radians]
      exact hy
    intro y h0 h180
    exact (strictAntiOn_cos.le_iff_ge ⟨hzero r hr, hhalf r hr'⟩
      ⟨hzero y h0, hhalf y h180⟩).trans radians_le_radians
  rw [← cos_abs (radians x), ← radians_abs]
  rcases le_total |x| 180 with hnear | hfar
  · rw [hle _ (abs_nonneg x) hnear]
    constructor
    · exact Or.inl
    · rintro (h | h) <;> linarith
  · have hback : cos (radians |x|) = cos (radians (360 - |x|)) := by
      rw [radians_sub, radians_full, cos_two_pi_sub]
    rw [hback, hle _ (by linarith) (by linarith)]
    constructor
    · intro h
      exact Or.inr (by linarith)
    · rintro (h | h) <;> linarith

theorem sound_of_equator (hc : IsPosition ra 0) (hr : 0 < r) (hr' : r < 90) (hlo : r ≤ ra)
    (hhi : ra + r < 360) : PrefilterSound ra 0 r := by
  rw [prefilterSound_iff_box]
  intro ra' dec' hp hcone
  refine ⟨dec_between hc hp hcone, fun _ => ?_⟩
  rw [exactRaHalf_equator hr']
  have hdist := centralAngle_le_iff.mp hcone
  have h0 : 0 ≤ radians r := by
    rw [← radians_zero, radians_le_radians]
    exact hr.le
  have hright : radians r < π / 2 := by
    rw [← radians_right, radians_lt_radians]
    exact hr'
  rw [radians_zero] at hdist
  have hcos := cos_le_of_dist_le_equator hp.isLatitude h0 hright hdist
  have hspan : |ra' - ra| ≤ 360 := abs_le.mpr
    ⟨by linarith [hp.ra_nonneg, hc.ra_lt], by linarith [hp.ra_lt, hc.ra_nonneg]⟩
  rcases (cos_le_iff_around hr.le (by linarith) hspan).mp hcos with h | h
  · rw [abs_le] at h
    constructor <;> linarith [h.1, h.2]
  · -- the other way around would cross the meridian of zero
    rcases le_abs.mp h with h | h
    · linarith [hp.ra_lt]
    · linarith [hp.ra_nonneg]

/-- Across the meridian of zero the box holds only one side. -/
theorem unsound_of_wrap (hc : IsPosition ra 0) (hr : 0 < r) (hr' : r < 90)
    (hwrap : ra < r ∨ 360 ≤ ra + r) : ¬PrefilterSound ra 0 r := by
  rw [prefilterSound_iff_box]
  intro h
  have hbox : ∀ x, 0 ≤ ra + x → ra + x < 360 → |x| = 360 - r → |x| ≤ r := by
    intro x hlo hhi hx
    have hp : IsPosition (ra + x) 0 := ⟨hlo, hhi, by norm_num, by norm_num⟩
    have hcone : centralAngle ra 0 (ra + x) 0 ≤ r := by
      rw [centralAngle_le_iff, radians_zero, add_sub_cancel_left]
      refine dist_equator_le ?_ ?_ ((cos_le_iff_around hr.le (by linarith) ?_).mpr (Or.inr hx.ge))
      · rw [← radians_zero, radians_le_radians]
        exact hr.le
      · linarith [radians_right, pi_pos, radians_le_radians.mpr hr'.le]
      · rw [hx]
        linarith
    have hin := (h _ _ hp hcone).2
    rw [exactRaHalf_equator hr'] at hin
    obtain ⟨h1, h2⟩ := hin (by linarith)
    exact abs_le.mpr ⟨by linarith, by linarith⟩
  rcases hwrap with hlow | hhigh
  · have hx : |360 - r| = 360 - r := abs_of_pos (by linarith)
    have := hbox (360 - r) (by linarith [hc.ra_nonneg]) (by linarith) hx
    linarith
  · have hx : |r - 360| = 360 - r := by
      rw [abs_of_neg (by linarith)]
      ring
    have := hbox (r - 360) (by linarith) (by linarith [hc.ra_lt]) hx
    linarith

/-- Off the equator the cone is wider than the box. -/
theorem unsound_of_wider (hc : IsPosition ra dec) (hr : 0 < r) (hdec : dec ≠ 0)
    (hpole : |dec| + r < 90) (hcos : ¬|cos (radians dec)| < 1e-6) : ¬PrefilterSound ra dec r := by
  have hρ : 0 < radians r := by
    rw [← radians_zero, radians_lt_radians]
    exact hr
  have hδ : 0 < |radians dec| := by
    rw [← radians_abs, ← radians_zero, radians_lt_radians]
    exact abs_pos.mpr hdec
  have hsum : |radians dec| + radians r < π / 2 := by
    have hadd : radians |dec| + radians r = radians (|dec| + r) := by
      unfold radians
      ring
    rw [← radians_abs, hadd, ← radians_right, radians_lt_radians]
    exact hpole
  obtain ⟨δ', a, hlat, hwide, hright, hdist⟩ := exists_wider hρ hδ hsum
  have hnn := hc.isLatitude.cos_nonneg
  have hhalf : exactRaHalf dec r = r / cos (radians dec) := by
    unfold exactRaHalf
    rw [if_neg (by rintro (h | h); exacts [hcos h, absurd hpole (not_lt.mpr h)]), abs_of_nonneg hnn]
  have hlt : exactRaHalf dec r < degrees a := by
    rw [hhalf, lt_degrees_iff, radians_div]
    exact hwide
  have hquarter : degrees a < 90 := by
    rw [← not_le, ← radians_le_radians, radians_degrees, radians_right, not_le]
    exact hright
  have hpos : 0 ≤ exactRaHalf dec r := by
    rw [hhalf]
    positivity
  have hbox : ∀ x, 0 ≤ ra + x → ra + x < 360 → |x| = degrees a → ¬PrefilterSound ra dec r := by
    intro x hlo hhi hx hsound
    have hp : IsPosition (ra + x) (degrees δ') := by
      refine ⟨hlo, hhi, ?_, ?_⟩
      · rw [← radians_le_radians, radians_degrees]
        have hneg : radians (-90) = -(π / 2) := by
          unfold radians
          ring
        rw [hneg]
        exact hlat.1
      · rw [← radians_le_radians, radians_degrees, radians_right]
        exact hlat.2
    have hcone : centralAngle ra dec (ra + x) (degrees δ') ≤ r := by
      rw [centralAngle_le_iff, radians_degrees, add_sub_cancel_left]
      have ha : |radians x| = a := by rw [← radians_abs, hx, radians_degrees]
      rcases abs_choice (radians x) with h | h
      · rw [← h, ha, hdist]
      · rw [← neg_neg (radians x), ← h, ha, dist_neg, hdist]
    obtain ⟨h1, h2⟩ := (hsound.box _ _ hp hcone).2 (by linarith)
    have : |x| ≤ exactRaHalf dec r := abs_le.mpr ⟨by linarith, by linarith⟩
    linarith
  have ha0 : 0 ≤ degrees a := hpos.trans hlt.le
  rcases lt_or_ge (ra + degrees a) 360 with hroom | hfull
  · exact hbox _ (by linarith [hc.ra_nonneg]) hroom (abs_of_nonneg ha0)
  · exact hbox (-degrees a) (by linarith) (by linarith [hc.ra_lt])
      (by rw [abs_neg, abs_of_nonneg ha0])

/-- **The prefilter, exactly.**  The box keeps the whole cone exactly if the cone reaches a pole, or
the declination is clamped, or the cone is on the equator and does not cross the meridian of zero. -/
theorem prefilter_sound_iff (hc : IsPosition ra dec) (hr : AcceptsRadius r) :
    PrefilterSound ra dec r ↔ 90 ≤ |dec| + r ∨ |cos (radians dec)| < 1e-6 ∨
      (dec = 0 ∧ r ≤ ra ∧ ra + r < 360) := by
  by_cases hclamped : |cos (radians dec)| < 1e-6 ∨ 90 ≤ |dec| + r
  · refine iff_of_true (sound_of_clamped hc hclamped) ?_
    rcases hclamped with h | h
    · exact Or.inr (Or.inl h)
    · exact Or.inl h
  · obtain ⟨hcos, hpole⟩ := not_or.mp hclamped
    rw [or_iff_right hpole, or_iff_right hcos]
    constructor
    · intro h
      have hdec : dec = 0 := by
        by_contra hne
        exact unsound_of_wider hc hr.pos hne (not_le.mp hpole) hcos h
      subst hdec
      have hr' : r < 90 := by simpa using hpole
      by_contra hno
      refine unsound_of_wrap hc hr.pos hr' ?_ h
      by_contra hwrap
      obtain ⟨hlo, hhi⟩ := not_or.mp hwrap
      exact hno ⟨rfl, not_lt.mp hlo, not_le.mp hhi⟩
    · rintro ⟨rfl, hlo, hhi⟩
      have hr' : r < 90 := by simpa using hpole
      exact sound_of_equator hc hr.pos hr' hlo hhi

end Cone

/-- A cone on the equator, away from the meridian of zero. -/
theorem prefilter_sound_equator : PrefilterSound 180 0 10 :=
  (prefilter_sound_iff ⟨by norm_num, by norm_num, by norm_num, by norm_num⟩
    (by unfold AcceptsRadius; norm_num)).mpr (by norm_num)

/-- A cone across that meridian, and one at 60 degrees. -/
theorem prefilter_drops : ¬PrefilterSound 0 0 1 ∧ ¬PrefilterSound 180 60 10 := by
  constructor
  · exact unsound_of_wrap ⟨by norm_num, by norm_num, by norm_num, by norm_num⟩ (by norm_num)
      (by norm_num) (Or.inl (by norm_num))
  · have hcos : cos (radians 60) = 1 / 2 := by
      have hthird : radians 60 = π / 3 := by
        unfold radians
        ring
      rw [hthird, cos_pi_div_three]
    refine unsound_of_wider ⟨by norm_num, by norm_num, by norm_num, by norm_num⟩ (by norm_num)
      (by norm_num) (by norm_num) ?_
    rw [hcos]
    norm_num

end StarBase.Query
