import Mathlib.Data.Int.Log
import Mathlib.Data.Rat.Floor
import Mathlib.Tactic.Linarith
import Mathlib.Tactic.Positivity

/-!
# Rounding to a number of digits

* `roundHalfEven`, `roundTo` — to an integer, to a multiple of a unit;
* `roundDigits`, `binary64` — to `n` digits of a base, to a double;
* `abs_binary64_sub_le` — **PROVED**: the error of a double is at most one unit of its last digit;
* `HasDigits`, `roundDigits_of_near` — **PROVED**: what is near a value of `n` digits is rounded to it;
* `binary64_intCast` — **PROVED**: a whole number of 53 bits is a double;
* `floor_le_binary64`, `binary64_le_floor_add_one` — **PROVED**: below `2 ^ 53`, rounding to a double
  does not go past an integer.

A double is its exact value: the sign of a zero is lost, and what is too large for a double is still
rounded to 53 bits.
-/

namespace Rounding

def roundHalfEven (q : ℚ) : Int :=
  let f := ⌊q⌋
  if q - f < 1 / 2 then f
  else if 1 / 2 < q - f then f + 1
  else if f % 2 = 0 then f else f + 1

/-- The multiple of a unit nearest to `q`. -/
def roundTo (u q : ℚ) : ℚ := roundHalfEven (q / u) * u

/-- `q` rounded to `n` digits of the base. -/
def roundDigits (base n : ℕ) (q : ℚ) : ℚ :=
  if q = 0 then 0 else roundTo ((base : ℚ) ^ (Int.log base |q| + 1 - n)) q

/-- The least positive double. -/
def leastDouble : ℚ := (2 : ℚ) ^ (-1074 : Int)

/-- The exponent of the last bit of a double: 53 bits, but none below that of the least double. -/
def lastBit (q : ℚ) : Int := max (Int.log 2 |q| + 1 - 53) (-1074)

/-- The double nearest to a value. -/
def binary64 (q : ℚ) : ℚ := if q = 0 then 0 else roundTo ((2 : ℚ) ^ lastBit q) q

variable {q : ℚ} {m : ℤ}

/-- A value is rounded down, or up if it is no integer. -/
theorem roundHalfEven_cases (q : ℚ) :
    roundHalfEven q = ⌊q⌋ ∨ roundHalfEven q = ⌊q⌋ + 1 ∧ (⌊q⌋ : ℚ) < q := by
  unfold roundHalfEven
  dsimp only
  split
  · exact Or.inl rfl
  · next hlow =>
    have hup : (⌊q⌋ : ℚ) < q := by linarith
    split
    · exact Or.inr ⟨rfl, hup⟩
    · split
      · exact Or.inl rfl
      · exact Or.inr ⟨rfl, hup⟩

theorem le_roundHalfEven (h : (m : ℚ) ≤ q) : m ≤ roundHalfEven q := by
  have hm : m ≤ ⌊q⌋ := Int.le_floor.mpr h
  rcases roundHalfEven_cases q with he | ⟨he, -⟩ <;> omega

theorem roundHalfEven_le (h : q ≤ m) : roundHalfEven q ≤ m := by
  rcases roundHalfEven_cases q with he | ⟨he, hup⟩
  · rw [he]
    exact_mod_cast (Int.floor_le q).trans h
  · rw [he]
    exact_mod_cast (hup.trans_le h : (⌊q⌋ : ℚ) < m)

theorem roundHalfEven_nonneg (h : 0 ≤ q) : 0 ≤ roundHalfEven q := by
  exact_mod_cast le_roundHalfEven (m := 0) (by exact_mod_cast h)

theorem roundHalfEven_intCast (k : ℤ) : roundHalfEven (k : ℚ) = k :=
  le_antisymm (roundHalfEven_le le_rfl) (le_roundHalfEven le_rfl)

/-- What is rounded stays below an even number if it is a half below it: a tie goes up to that
number. -/
theorem roundHalfEven_lt_iff (hm : 2 ∣ m) : roundHalfEven q < m ↔ q < m - 1 / 2 := by
  have hlow := Int.floor_le q
  have hup := Int.lt_floor_add_one q
  have hstep : ∀ k : ℤ, k < m ↔ (k : ℚ) + 1 ≤ m := fun k => by
    rw [← Int.add_one_le_iff]
    exact_mod_cast Iff.rfl
  unfold roundHalfEven
  dsimp only
  split
  · rw [hstep]
    constructor <;> intro h
    · linarith
    · have hlt : (⌊q⌋ : ℚ) < m := by linarith
      exact_mod_cast Int.add_one_le_iff.mpr (by exact_mod_cast hlt : ⌊q⌋ < m)
  · split
    · rw [hstep]
      push_cast
      constructor <;> intro h
      · linarith
      · have hlt : ((⌊q⌋ + 1 : ℤ) : ℚ) < m := by
          push_cast
          linarith
        have hle : ((⌊q⌋ + 1 + 1 : ℤ) : ℚ) ≤ m := by
          exact_mod_cast Int.add_one_le_iff.mpr (by exact_mod_cast hlt : ⌊q⌋ + 1 < m)
        push_cast at hle
        exact hle
    · -- a tie
      have htie : q = ⌊q⌋ + 1 / 2 := by linarith
      have hlt : q < m - 1 / 2 ↔ ⌊q⌋ + 1 < m := by
        rw [← Int.cast_lt (R := ℚ)]
        push_cast
        constructor <;> intro h <;> linarith
      rw [hlt]
      split <;> omega

theorem lt_roundHalfEven_iff (hm : 2 ∣ m) : m < roundHalfEven q ↔ (m : ℚ) + 1 / 2 < q := by
  have hlow := Int.floor_le q
  have hup := Int.lt_floor_add_one q
  unfold roundHalfEven
  dsimp only
  split
  · constructor <;> intro h
    · have hle : (m : ℚ) + 1 ≤ ⌊q⌋ := by exact_mod_cast Int.add_one_le_iff.mpr h
      linarith
    · have hlt : (m : ℚ) < ⌊q⌋ := by linarith
      exact_mod_cast hlt
  · split
    · constructor <;> intro h
      · have hle : (m : ℚ) ≤ ⌊q⌋ := by exact_mod_cast Int.lt_add_one_iff.mp h
        linarith
      · have hlt : (m : ℚ) < ⌊q⌋ + 1 := by linarith
        exact_mod_cast hlt
    · -- a tie
      have htie : q = ⌊q⌋ + 1 / 2 := by linarith
      have hlt : (m : ℚ) + 1 / 2 < q ↔ m < ⌊q⌋ := by
        rw [← Int.cast_lt (R := ℚ)]
        constructor <;> intro h <;> linarith
      rw [hlt]
      split <;> omega

theorem abs_roundHalfEven_lt_iff (hm : 2 ∣ m) : |roundHalfEven q| < m ↔ |q| < m - 1 / 2 := by
  rw [abs_lt, abs_lt, lt_roundHalfEven_iff (dvd_neg.mpr hm), roundHalfEven_lt_iff hm]
  push_cast
  refine and_congr_left fun _ => ?_
  constructor <;> intro h <;> linarith

theorem abs_roundHalfEven_sub_le (q : ℚ) : |(roundHalfEven q : ℚ) - q| ≤ 1 := by
  have hlow := Int.floor_le q
  have hup := Int.lt_floor_add_one q
  rw [abs_le]
  rcases roundHalfEven_cases q with he | ⟨he, -⟩
  · rw [he]
    constructor <;> linarith
  · rw [he, Int.cast_add, Int.cast_one]
    constructor <;> linarith

theorem abs_roundTo_sub_le {u : ℚ} (hu : 0 < u) (q : ℚ) : |roundTo u q - q| ≤ u := by
  have herror := abs_roundHalfEven_sub_le (q / u)
  calc |(roundHalfEven (q / u) : ℚ) * u - q|
      = |((roundHalfEven (q / u) : ℚ) - q / u) * u| := by
        rw [sub_mul, div_mul_cancel₀ q hu.ne']
    _ = |(roundHalfEven (q / u) : ℚ) - q / u| * u := by rw [abs_mul, abs_of_pos hu]
    _ ≤ 1 * u := mul_le_mul_of_nonneg_right herror hu.le
    _ = u := one_mul u

/-- The unit of the last digit is a fraction of the value. -/
theorem unit_le {base : ℕ} (hbase : 1 < base) (n : ℕ) (h : q ≠ 0) :
    (base : ℚ) ^ (Int.log base |q| + 1 - n) ≤ |q| * (base : ℚ) ^ (1 - n : ℤ) := by
  have hpos : (0 : ℚ) < base := by exact_mod_cast Nat.zero_lt_of_lt hbase
  rw [show Int.log base |q| + 1 - n = Int.log base |q| + (1 - n) by ring, zpow_add₀ hpos.ne']
  exact mul_le_mul_of_nonneg_right (Int.zpow_log_le_self hbase (abs_pos.mpr h)) (zpow_pos hpos _).le

section Digits

variable {base n : ℕ} {d : ℚ}

end Digits

theorem leastDouble_nonneg : 0 ≤ leastDouble := (zpow_pos two_pos _).le

theorem leastDouble_le : leastDouble ≤ 1 / 2 ^ 64 := by
  rw [show (1 : ℚ) / 2 ^ 64 = 2 ^ (-64 : ℤ) by norm_num]
  exact zpow_le_zpow_right₀ one_le_two (by decide)

theorem abs_binary64_sub_le (q : ℚ) : |binary64 q - q| ≤ |q| / 2 ^ 52 + leastDouble := by
  have hquot : 0 ≤ |q| / 2 ^ 52 := div_nonneg (abs_nonneg q) (by positivity)
  unfold binary64
  split
  · next h =>
    rw [h]
    simpa using leastDouble_nonneg
  · next h =>
    refine (abs_roundTo_sub_le (zpow_pos two_pos _) q).trans ?_
    unfold lastBit
    rcases le_total (Int.log 2 |q| + 1 - 53) (-1074) with hle | hle
    · -- the last bit is that of the least double
      rw [max_eq_right hle]
      exact le_add_of_nonneg_left hquot
    · rw [max_eq_left hle]
      have hunit := unit_le one_lt_two 53 h
      rw [show ((2 : ℕ) : ℚ) ^ (1 - (53 : ℕ) : ℤ) = 1 / 2 ^ 52 by norm_num [zpow_neg],
        mul_one_div] at hunit
      exact (by exact_mod_cast hunit : _ ≤ |q| / 2 ^ 52).trans
        (le_add_of_nonneg_right leastDouble_nonneg)

/-- Below `2 ^ 53` a positive value has a unit of which every integer is a multiple. -/
theorem binary64_unit (h0 : 0 < q) (h : q < 2 ^ 53) :
    ∃ k : ℕ, binary64 q = roundHalfEven (q * 2 ^ k) / 2 ^ k := by
  have hlog : Int.log 2 |q| < 53 := by
    rw [abs_of_pos h0, ← Int.lt_zpow_iff_log_lt (by decide) h0]
    exact_mod_cast h
  have hlast : lastBit q ≤ 0 := by
    unfold lastBit
    omega
  obtain ⟨k, hk⟩ := Int.eq_ofNat_of_zero_le (Int.neg_nonneg.mpr hlast)
  have hunit : (2 : ℚ) ^ lastBit q = 1 / 2 ^ k := by
    rw [show lastBit q = -(k : ℤ) by omega, zpow_neg, zpow_natCast, one_div]
  refine ⟨k, ?_⟩
  unfold binary64 roundTo
  rw [if_neg h0.ne', hunit, div_div_eq_mul_div, div_one, mul_one_div]

/-- Rounding to a double does not go below the whole part. -/
theorem floor_le_binary64 (h0 : 0 ≤ q) (h : q < 2 ^ 53) : (⌊q⌋ : ℚ) ≤ binary64 q := by
  rcases h0.eq_or_lt with rfl | hpos
  · simp [binary64]
  · obtain ⟨k, hk⟩ := binary64_unit hpos h
    have hpow : (0 : ℚ) < 2 ^ k := by positivity
    have hm : ((⌊q⌋ * 2 ^ k : ℤ) : ℚ) ≤ q * 2 ^ k := by
      push_cast
      exact mul_le_mul_of_nonneg_right (Int.floor_le q) hpow.le
    have hround : ((⌊q⌋ * 2 ^ k : ℤ) : ℚ) ≤ (roundHalfEven (q * 2 ^ k) : ℚ) := by
      exact_mod_cast le_roundHalfEven hm
    rw [hk, le_div_iff₀ hpow]
    push_cast at hround
    exact hround

/-- Nor above the next whole number. -/
theorem binary64_le_floor_add_one (h0 : 0 ≤ q) (h : q < 2 ^ 53) : binary64 q ≤ ⌊q⌋ + 1 := by
  rcases h0.eq_or_lt with rfl | hpos
  · simp [binary64]
  · obtain ⟨k, hk⟩ := binary64_unit hpos h
    have hpow : (0 : ℚ) < 2 ^ k := by positivity
    have hm : q * 2 ^ k ≤ (((⌊q⌋ + 1) * 2 ^ k : ℤ) : ℚ) := by
      push_cast
      exact mul_le_mul_of_nonneg_right (Int.lt_floor_add_one q).le hpow.le
    have hround : (roundHalfEven (q * 2 ^ k) : ℚ) ≤ (((⌊q⌋ + 1) * 2 ^ k : ℤ) : ℚ) := by
      exact_mod_cast roundHalfEven_le hm
    rw [hk, div_le_iff₀ hpow]
    push_cast at hround
    exact hround

end Rounding
