import StarBase.Extract.DecimalText
import StarBase.Lib.Calendar

/-!
# The observing night

`night_of` reads a timestamp, moves it to local time and prints the date of the noon before.

* `exists_civilFromDays` — **PROVED**: the day is printed as its date in the Gregorian calendar;
* `Timestamp`, `Offset` — a moment as it is written, and a UTC offset;
* `RoundsToNoon` — the seconds, read as a double, are rounded up to noon;
* `beyondInt` — the first date whose year is no `int`;
* `nightOf_iff` — **PROVED**: the label is right exactly if the first is not so and the moment is before
  noon of the second;
* `nightOf_normalized` — **PROVED**: of a normalized date only the second matters.

Offsets are whole seconds within a day; the calendar is the proleptic Gregorian one, as in `timegm`.
-/

namespace StarBase.Extract

open Calendar Rounding

/-! ### Civil dates -/

/-- The days of whole eras, and of the years since. -/
theorem eraDays (y : ℤ) : y / 400 * 146097 + ((y - y / 400 * 400) * 365 +
    (y - y / 400 * 400) / 4 - (y - y / 400 * 400) / 100) = 365 * y + leapsThrough y := by
  unfold leapsThrough
  omega

/-- `timegm` counts the days of the calendar. -/
theorem daysFromCivil_eq (y : ℤ) {m : ℤ} (d : ℤ) (h1 : 1 ≤ m) (h12 : m ≤ 12) :
    daysFromCivil y m d = dayNumber y m d := by
  have hstart : leapsThrough 1969 = 477 := rfl
  unfold dayNumber yearStart
  rw [monthStart_eq y h1 h12, hstart]
  unfold daysFromCivil
  dsimp only
  by_cases hm : m ≤ 2
  · have hera := eraDays (y - 1)
    rw [if_pos hm, if_neg (by omega), if_pos hm]
    omega
  · have hera := eraDays y
    have hleap := leapsThrough_eq y
    rw [if_neg hm, if_pos (by omega), if_neg hm]
    omega

section Era

variable {c b a r n : ℤ}

/-- The year of a day of an era is computed from its place in it. -/
theorem yearOfEra (hc : 0 ≤ c ∧ c ≤ 3) (hb : 0 ≤ b ∧ b ≤ 24) (ha : 0 ≤ a ∧ a ≤ 3)
    (hr : 0 ≤ r ∧ r ≤ 365) (hlast : r = 365 → a = 3 ∧ (b = 24 → c = 3))
    (hn : n = 36524 * c + 1461 * b + 365 * a + r) :
    (n - n / 1460 + n / 36524 - n / 146096) / 365 = 100 * c + 4 * b + a := by
  obtain ⟨k, hk⟩ : ∃ k : ℤ, (k = 0 ∧ 24 * c + b + 365 * a + r < 1460) ∨
      (k = 1 ∧ 1460 ≤ 24 * c + b + 365 * a + r) := by
    by_cases h : 24 * c + b + 365 * a + r < 1460
    · exact ⟨0, Or.inl ⟨rfl, h⟩⟩
    · exact ⟨1, Or.inr ⟨rfl, not_lt.mp h⟩⟩
  have hfour : n / 1460 = 25 * c + b + k := by omega
  by_cases hend : n = 146096
  · subst hend
    omega
  · have hcentury : n / 36524 = c := by omega
    have hera : n / 146096 = 0 := by omega
    rw [hfour, hcentury, hera]
    omega

/-- The leap days of an era before one of its years. -/
theorem leapsOfEra (c : ℤ) (hb : 0 ≤ b ∧ b ≤ 24) (ha : 0 ≤ a ∧ a ≤ 3) :
    (100 * c + 4 * b + a) / 4 - (100 * c + 4 * b + a) / 100 = 24 * c + b := by
  have hfour : (100 * c + 4 * b + a) / 4 = 25 * c + b := by omega
  have hcentury : (100 * c + 4 * b + a) / 100 = c := by omega
  rw [hfour, hcentury]
  ring

/-- The civil date of a day, by its place in its era. -/
theorem civilFromDays_place (era : ℤ) (hc : 0 ≤ c ∧ c ≤ 3) (hb : 0 ≤ b ∧ b ≤ 24)
    (ha : 0 ≤ a ∧ a ≤ 3) (hr : 0 ≤ r ∧ r ≤ 365) (hlast : r = 365 → a = 3 ∧ (b = 24 → c = 3))
    (hn : n = 36524 * c + 1461 * b + 365 * a + r) :
    civilFromDays (era * 146097 + n - 719468) =
      let mp := (5 * r + 2) / 153
      let m := if mp < 10 then mp + 3 else mp - 9
      let y := 100 * c + 4 * b + a + era * 400
      (if m ≤ 2 then y + 1 else y, m, r - (153 * mp + 2) / 5 + 1) := by
  have hera : (era * 146097 + n - 719468 + 719468) / 146097 = era := by omega
  have hdoe : era * 146097 + n - 719468 + 719468 - era * 146097 = n := by ring
  have hleaps := leapsOfEra c hb ha
  have hdoy : n - (365 * (100 * c + 4 * b + a) + (100 * c + 4 * b + a) / 4 -
      (100 * c + 4 * b + a) / 100) = r := by
    rw [add_sub_assoc, hleaps, hn]
    ring
  unfold civilFromDays
  dsimp only
  rw [hera, hdoe, yearOfEra hc hb ha hr hlast hn, hdoy]

/-- The day of a year that begins in March is in the month that is computed from it. -/
theorem isDate_of_place (era : ℤ) (hb : 0 ≤ b ∧ b ≤ 24) (ha : 0 ≤ a ∧ a ≤ 3)
    (hr : 0 ≤ r ∧ r ≤ 365) (hlast : r = 365 → a = 3 ∧ (b = 24 → c = 3)) :
    let mp := (5 * r + 2) / 153
    let m := if mp < 10 then mp + 3 else mp - 9
    let y := 100 * c + 4 * b + a + era * 400
    IsDate (if m ≤ 2 then y + 1 else y) m (r - (153 * mp + 2) / 5 + 1) := by
  intro mp m y
  have hmp : 0 ≤ mp ∧ mp ≤ 11 := by omega
  have hplace : 153 * mp ≤ 5 * r + 2 ∧ 5 * r + 2 < 153 * mp + 153 := by omega
  clear_value mp
  obtain ⟨h0, h11⟩ := hmp
  refine ⟨by omega, by omega, by omega, ?_⟩
  unfold monthLength
  by_cases hfeb : mp = 11
  · -- the last month of such a year has a day more in a leap year
    have hm : m = 2 := by omega
    have hyear : (if m ≤ 2 then y + 1 else y) = y + 1 := if_pos (by omega)
    rw [if_pos hm, hyear]
    split
    · omega
    · next hl =>
      have hr' : r ≠ 365 := by
        intro he
        obtain ⟨rfl, hcentury⟩ := hlast he
        refine hl ⟨by omega, ?_⟩
        by_cases hb' : b = 24
        · exact Or.inr (by omega)
        · exact Or.inl (by omega)
      omega
  · rw [if_neg (show m ≠ 2 by omega)]
    split <;> omega

/-- A day's number from its place in its era. -/
theorem dayNumber_of_place (era : ℤ) (hc : 0 ≤ c ∧ c ≤ 3) (hb : 0 ≤ b ∧ b ≤ 24)
    (ha : 0 ≤ a ∧ a ≤ 3) (hr : 0 ≤ r ∧ r ≤ 365) (hn : n = 36524 * c + 1461 * b + 365 * a + r) :
    let mp := (5 * r + 2) / 153
    let m := if mp < 10 then mp + 3 else mp - 9
    let y := 100 * c + 4 * b + a + era * 400
    dayNumber (if m ≤ 2 then y + 1 else y) m (r - (153 * mp + 2) / 5 + 1) =
      era * 146097 + n - 719468 := by
  intro mp m y
  have hm : 1 ≤ m ∧ m ≤ 12 := by omega
  have hleaps := leapsOfEra c hb ha
  have hyear : (if m ≤ 2 then (if m ≤ 2 then y + 1 else y) - 1 else (if m ≤ 2 then y + 1 else y)) =
      y := by
    split <;> omega
  have hera : y / 400 = era := by omega
  have hyoe : y - era * 400 = 100 * c + 4 * b + a := by omega
  have hmonth : (if m > 2 then m - 3 else m + 9) = mp := by omega
  rw [← daysFromCivil_eq _ _ hm.1 hm.2]
  unfold daysFromCivil
  dsimp only
  rw [hyear, hera, hyoe, hmonth]
  omega

end Era

/-- **`gmtime` gives the date of a day.** -/
theorem exists_civilFromDays (z : ℤ) :
    ∃ D : Date, civilFromDays z = (D.year, D.month, D.day) ∧ D.number = z := by
  obtain ⟨c, b, a, r, hc, hb, ha, hr, hlast, hn⟩ :=
    exists_marchYear (Int.emod_nonneg (z + 719468) (by decide : (146097 : ℤ) ≠ 0))
      (Int.emod_lt_of_pos _ (by decide))
  have hz : z = (z + 719468) / 146097 * 146097 + (z + 719468) % 146097 - 719468 := by omega
  refine ⟨⟨_, _, _, isDate_of_place ((z + 719468) / 146097) hb ha hr hlast⟩, ?_, ?_⟩
  · conv_lhs => rw [hz]
    exact civilFromDays_place _ hc hb ha hr hlast hn
  · conv_rhs => rw [hz]
    exact dayNumber_of_place _ hc hb ha hr hn

/-! ### Timestamps -/

/-- What stands between the date and the time. -/
inductive DateSep
  | letter
  | blank
  deriving DecidableEq, Repr

def DateSep.char : DateSep → Char
  | .letter => 'T'
  | .blank => ' '

/-- Seconds, with the digits behind the point if there is one. -/
structure Seconds where
  whole : ℕ
  whole_lt : whole < 60
  fraction : Option Str
  isDigit : ∀ ds ∈ fraction, ∀ c ∈ ds, c.isDigit = true

/-- A moment of a day from 1970 on; the seconds are optional. -/
structure Timestamp where
  date : Date
  from1970 : 1970 ≤ date.year
  hour : ℕ
  hour_lt : hour < 24
  minute : ℕ
  minute_lt : minute < 60
  seconds : Option Seconds

/-- A date as the label of a night is printed. -/
def dateText (D : Date) : Str := padInt 4 D.year ++ '-' :: padInt 2 D.month ++ '-' :: padInt 2 D.day

def Seconds.text (x : Seconds) : Str :=
  padLeft 2 (natText x.whole) ++ match x.fraction with
    | none => []
    | some ds => '.' :: ds

def secondsText : Option Seconds → Str
  | none => []
  | some x => ':' :: x.text

def Timestamp.text (t : Timestamp) (sep : DateSep) : Str :=
  dateText t.date ++ sep.char :: (padLeft 2 (natText t.hour) ++ ':' :: (padLeft 2 (natText t.minute) ++
    secondsText t.seconds))

def Seconds.value (x : Seconds) : ℚ :=
  x.whole + (digitsValue 10 (x.fraction.getD []) : ℚ) / 10 ^ (x.fraction.getD []).length

/-- The seconds of a moment, none being none past the minute. -/
def Timestamp.second (t : Timestamp) : ℚ := (t.seconds.map Seconds.value).getD 0

/-- The minutes since 1970, in seconds. -/
def Timestamp.minuteStart (t : Timestamp) : ℤ := t.date.number * 86400 + t.hour * 3600 + t.minute * 60

/-- The seconds since 1970. -/
def Timestamp.instant (t : Timestamp) : ℚ := t.minuteStart + t.second

/-! ### Reading a timestamp -/

/-- `%d` reads a small number. -/
theorem scanInt_small {k n : ℕ} {t : Str} (ht : ∀ c ∈ t.head?, c.isDigit = false) (hn : n < 60) :
    scanInt (padLeft k (natText n) ++ t) = some ((n : ℤ), t) := by
  unfold scanInt
  rw [scanInteger_digits (fun c => isDigit_padLeft) (padLeft_natText_ne_nil k n) ht, digitsValue_padLeft]
  exact congrArg (fun i => some (i, t)) (storedInt_eq_self (by omega) (by omega))

theorem Seconds.fraction_isDigit (x : Seconds) : ∀ c ∈ x.fraction.getD [], c.isDigit = true := by
  cases hf : x.fraction with
  | none => nofun
  | some ds => exact x.isDigit ds hf

def Seconds.mantissa (x : Seconds) : Mantissa :=
  ⟨padLeft 2 (natText x.whole), x.fraction, fun _ => isDigit_padLeft, x.fraction_isDigit,
    Or.inl (padLeft_natText_ne_nil 2 x.whole)⟩

theorem Seconds.mantissa_value (x : Seconds) : x.mantissa.value = x.value := by
  show (digitsValue 10 (padLeft 2 (natText x.whole) ++ x.fraction.getD []) : ℚ) /
    10 ^ (x.fraction.getD []).length = _
  rw [digitsValue_append (fun _ => isDigit_padLeft) x.fraction_isDigit, digitsValue_padLeft]
  unfold Seconds.value
  push_cast
  rw [add_div, mul_div_cancel_right₀ _ (by positivity)]

/-- `%lf` reads the seconds. -/
theorem scanDouble_seconds (x : Seconds) : scanDouble x.text = some (.fin x.value, []) := by
  have htext : x.text = x.mantissa.text := by
    show x.text = padLeft 2 (natText x.whole) ++ fractionText x.fraction
    unfold Seconds.text
    cases x.fraction <;> rfl
  rw [htext, scanDouble_of_digits x.mantissa.digit_or_point, scanDigits_mantissa, x.mantissa_value]
  rfl

theorem Seconds.value_nonneg (x : Seconds) : 0 ≤ x.value := by
  unfold Seconds.value
  positivity

theorem Timestamp.second_nonneg (t : Timestamp) : 0 ≤ t.second := by
  unfold Timestamp.second
  cases t.seconds with
  | none => exact le_refl 0
  | some x => exact x.value_nonneg

/-- The moment's fields, its year read as an `int` and its seconds as a double. -/
def Timestamp.civil (t : Timestamp) : CivilTime :=
  ⟨storedInt t.date.year, t.date.month, t.date.day, t.hour, t.minute, ⌊binary64 t.second⌋⟩

theorem Seconds.floor_value (x : Seconds) : ⌊x.value⌋ = x.whole := by
  have hpow : (0 : ℚ) < 10 ^ (x.fraction.getD []).length := by positivity
  have hlt : (digitsValue 10 (x.fraction.getD []) : ℚ) < 10 ^ (x.fraction.getD []).length := by
    exact_mod_cast digitsValue_lt x.fraction_isDigit
  rw [Int.floor_eq_iff]
  unfold Seconds.value
  push_cast
  constructor
  · have := div_nonneg (Nat.cast_nonneg (α := ℚ) (digitsValue 10 (x.fraction.getD []))) hpow.le
    linarith
  · have := (div_lt_one hpow).mpr hlt
    linarith

theorem Seconds.value_lt (x : Seconds) : x.value < 60 := by
  have h := Int.lt_floor_add_one x.value
  rw [x.floor_value] at h
  have hw : (x.whole : ℚ) + 1 ≤ 60 := by exact_mod_cast x.whole_lt
  push_cast at h
  exact h.trans_le hw

theorem Timestamp.second_lt (t : Timestamp) : t.second < 60 := by
  unfold Timestamp.second
  cases t.seconds with
  | none => norm_num
  | some x => exact x.value_lt

/-- A double is read as the whole second, or as the next one. -/
theorem Timestamp.floor_binary64 (t : Timestamp) :
    ⌊binary64 t.second⌋ = ⌊t.second⌋ ∨ ⌊binary64 t.second⌋ = ⌊t.second⌋ + 1 := by
  have hlt : t.second < 2 ^ 53 := t.second_lt.trans (by norm_num)
  have hlow := floor_le_binary64 t.second_nonneg hlt
  have hup := binary64_le_floor_add_one t.second_nonneg hlt
  have h1 : ⌊t.second⌋ ≤ ⌊binary64 t.second⌋ := Int.le_floor.mpr hlow
  have h2 : ⌊binary64 t.second⌋ ≤ ⌊t.second⌋ + 1 := by
    have := Int.floor_le_floor hup
    rwa [← Int.cast_one (R := ℚ), ← Int.cast_add, Int.floor_intCast] at this
  omega

/-- Seconds are an `int`, cut from their double. -/
theorem truncate_round {q : ℚ} (h0 : 0 ≤ binary64 q) (hlt : binary64 q < 2 ^ 31) :
    truncate (.round q) = ⌊binary64 q⌋ := by
  have hround : Dbl.round q = .fin (binary64 q) := by
    refine if_pos ?_
    rw [abs_of_nonneg h0]
    exact hlt.trans (pow_lt_pow_right₀ one_lt_two (by norm_num))
  have hfloor : ⌊binary64 q⌋ < 2 ^ 31 := by
    rw [Int.floor_lt]
    exact_mod_cast hlt
  rw [hround]
  unfold truncate
  dsimp only
  rw [if_neg (not_lt.mpr h0)]
  exact if_pos ⟨(by norm_num : -(2 ^ 31 : ℤ) ≤ 0).trans (Int.floor_nonneg.mpr h0), hfloor⟩

/-- Seconds behind a colon are read, and none are zero. -/
theorem scanSeconds_text (t : Timestamp) : scanSeconds (secondsText t.seconds) = ⌊binary64 t.second⌋ := by
  have h0 : (0 : ℚ) ≤ binary64 t.second := by
    refine le_trans ?_ (floor_le_binary64 t.second_nonneg (t.second_lt.trans (by norm_num)))
    exact_mod_cast Int.floor_nonneg.mpr t.second_nonneg
  have hlt : binary64 t.second < 2 ^ 31 := by
    have hfloor : ⌊t.second⌋ < 60 := Int.floor_lt.mpr (by exact_mod_cast t.second_lt)
    have hfloor' : ⌊binary64 t.second⌋ < 61 := by
      have := t.floor_binary64
      omega
    exact (Int.floor_lt.mp hfloor').trans (by norm_num)
  unfold scanSeconds
  unfold Timestamp.second at h0 hlt ⊢
  cases hs : t.seconds with
  | none => rfl
  | some x =>
    have hlit : scanLit ':' (secondsText (some x)) = some x.text := by
      simp [scanLit, secondsText]
    rw [hs] at h0 hlt
    rw [hlit, Option.bind_some, scanDouble_seconds]
    exact truncate_round h0 hlt

/-- A character that is no digit ends a number. -/
theorem head_not_digit {c : Char} (hc : c.isDigit = false) (r : Str) :
    ∀ d ∈ (c :: r).head?, d.isDigit = false := by
  intro d hd
  cases hd
  exact hc

theorem secondsText_head (x : Option Seconds) : ∀ c ∈ (secondsText x).head?, c.isDigit = false := by
  cases x with
  | none => nofun
  | some x => exact head_not_digit rfl _

/-- The separator of the format is found. -/
theorem scanLit_sep (sep : DateSep) (k n : ℕ) (r : Str) :
    scanLit sep.char (sep.char :: (padLeft k (natText n) ++ r)) = some (padLeft k (natText n) ++ r) := by
  cases sep with
  | letter => rfl
  | blank =>
    obtain ⟨c, cs, hcs⟩ := List.exists_cons_of_ne_nil (padLeft_natText_ne_nil k n)
    have hc : c.isDigit = true := isDigit_padLeft (hcs ▸ List.mem_cons_self)
    obtain ⟨hspace, -⟩ := digitOrPoint (Or.inl hc)
    rw [hcs]
    show some ((' ' :: (c :: (cs ++ r))).dropWhile isSpaceChar) = _
    rw [List.dropWhile_cons_of_pos rfl, List.dropWhile_cons_of_neg (by simp [hspace])]
    rfl

/-- The month and the day of a date are kept by an `int`. -/
theorem storedInt_date (D : Date) : storedInt D.month = D.month ∧ storedInt D.day = D.day := by
  have h1 := D.isDate.one_le_month
  have h12 := D.isDate.month_le
  have h1' := D.isDate.one_le_day
  have h31 : D.day ≤ 31 := D.isDate.day_le_31
  exact ⟨storedInt_eq_self (by omega) (by omega), storedInt_eq_self (by omega) (by omega)⟩

theorem scanDateTime_text (t : Timestamp) (sep : DateSep) :
    scanDateTime sep.char (t.text sep) = some t.civil := by
  have hsep : sep.char.isDigit = false := by cases sep <;> rfl
  have hlit : ∀ r : Str, scanLit '-' ('-' :: r) = some r := fun _ => rfl
  have hcolon : ∀ r : Str, scanLit ':' (':' :: r) = some r := fun _ => rfl
  have hdash := head_not_digit (c := '-') rfl
  obtain ⟨hmonth, hday⟩ := storedInt_date t.date
  unfold scanDateTime Timestamp.text dateText
  rw [List.append_assoc, List.append_assoc, List.cons_append, List.cons_append,
    scanInt_padInt (hdash _)]
  simp only [Option.bind_eq_bind, Option.bind_some, hlit, scanInt_padInt (hdash _),
    scanInt_padInt (head_not_digit hsep _), scanLit_sep, hmonth, hday]
  rw [scanInt_small (head_not_digit rfl _) (t.hour_lt.trans (by decide))]
  simp only [Option.bind_some, hcolon]
  rw [scanInt_small (secondsText_head _) t.minute_lt]
  simp only [Option.bind_some, scanSeconds_text]
  rfl

/-- The first format does not fit a blank. -/
theorem scanDateTime_blank (t : Timestamp) : scanDateTime 'T' (t.text .blank) = none := by
  have hlit : ∀ r : Str, scanLit '-' ('-' :: r) = some r := fun _ => rfl
  have hno : ∀ r : Str, scanLit 'T' (DateSep.blank.char :: r) = none := fun _ => rfl
  have hdash := head_not_digit (c := '-') rfl
  unfold scanDateTime Timestamp.text dateText
  rw [List.append_assoc, List.append_assoc, List.cons_append, List.cons_append,
    scanInt_padInt (hdash _)]
  simp only [Option.bind_eq_bind, Option.bind_some, hlit, scanInt_padInt (hdash _),
    scanInt_padInt (head_not_digit (show DateSep.blank.char.isDigit = false from rfl) _), hno,
    Option.bind_none]

/-- One of the two formats reads a timestamp. -/
theorem scanDateTime_either (t : Timestamp) (sep : DateSep) :
    ((scanDateTime 'T' (t.text sep)).orElse fun _ => scanDateTime ' ' (t.text sep)) =
      some t.civil := by
  cases sep with
  | letter =>
    rw [show scanDateTime 'T' (t.text .letter) = some t.civil from scanDateTime_text t .letter]
    rfl
  | blank =>
    rw [scanDateTime_blank]
    exact scanDateTime_text t .blank

/-! ### Offsets -/

/-- A UTC offset of whole seconds, within a day. -/
structure Offset where
  seconds : ℤ
  within : |seconds| ≤ 86400

/-- The hours of an offset, as a double. -/
def Offset.hours (o : Offset) : ℚ := binary64 (o.seconds / 3600)

theorem roundHalfAway_eq {q : ℚ} {s : ℤ} (h : |q - s| < 1 / 2) : roundHalfAway q = s := by
  obtain ⟨hlow, hup⟩ := abs_lt.mp h
  unfold roundHalfAway
  split
  · rw [neg_eq_iff_eq_neg, Int.floor_eq_iff]
    push_cast
    constructor <;> linarith
  · rw [Int.floor_eq_iff]
    constructor <;> linarith

/-- The rounding of the hours to a double, and of their seconds, is undone by `lround`. -/
theorem Offset.lround_hours (o : Offset) :
    roundHalfAway (binary64 (o.hours * 3600)) = o.seconds := by
  have hs : |(o.seconds : ℚ)| ≤ 86400 := by exact_mod_cast o.within
  have hhours : |o.hours * 3600 - o.seconds| ≤ 86400 / 2 ^ 52 + 3600 / 2 ^ 64 := by
    have h : |o.hours - o.seconds / 3600| ≤ |(o.seconds : ℚ) / 3600| / 2 ^ 52 + 1 / 2 ^ 64 :=
      (abs_binary64_sub_le _).trans (by linarith [leastDouble_le])
    have hquot : |(o.seconds : ℚ) / 3600| * 3600 ≤ 86400 := by
      rw [abs_div, abs_of_pos (by norm_num : (0 : ℚ) < 3600),
        div_mul_cancel₀ _ (by norm_num : (3600 : ℚ) ≠ 0)]
      exact hs
    calc |o.hours * 3600 - o.seconds| = |o.hours - o.seconds / 3600| * 3600 := by
          rw [show o.hours * 3600 - o.seconds = (o.hours - o.seconds / 3600) * 3600 by ring, abs_mul,
            abs_of_pos (by norm_num : (0 : ℚ) < 3600)]
      _ ≤ (|(o.seconds : ℚ) / 3600| / 2 ^ 52 + 1 / 2 ^ 64) * 3600 :=
          mul_le_mul_of_nonneg_right h (by norm_num)
      _ = |(o.seconds : ℚ) / 3600| * 3600 / 2 ^ 52 + 3600 / 2 ^ 64 := by ring
      _ ≤ 86400 / 2 ^ 52 + 3600 / 2 ^ 64 :=
          add_le_add_left (div_le_div_of_nonneg_right hquot (by positivity)) _
  generalize o.hours * 3600 = y at hhours ⊢
  have hsmall : |y| ≤ 86401 := by
    have := abs_sub_abs_le_abs_sub y o.seconds
    norm_num at hhours
    linarith
  have hsecond := abs_binary64_sub_le y
  refine roundHalfAway_eq ?_
  have htri := abs_sub_le (binary64 y) y o.seconds
  have hleast := leastDouble_le
  norm_num at hhours hsecond hleast
  linarith

/-! ### The label of a night -/

/-- The moment in local time. -/
def Timestamp.local (t : Timestamp) (o : Offset) : ℚ := t.instant + o.seconds

/-- Local noon of a date. -/
def noon (D : Date) : ℤ := D.number * 86400 + 43200

/-- The label is the date of the noon before. -/
def Labelled (t : Timestamp) (sep : DateSep) (o : Offset) (D : Date) : Prop :=
  nightOf (t.text sep) o.hours = some (dateText D) ∧
    (noon D : ℚ) ≤ t.local o ∧ t.local o < (noon D + 86400 : ℤ)

/-- The seconds, read as a double, are the next whole second, and that is local noon. -/
def RoundsToNoon (t : Timestamp) (o : Offset) : Prop :=
  ⌊t.second⌋ < ⌊binary64 t.second⌋ ∧ (t.minuteStart + ⌊t.second⌋ + 1 + o.seconds) % 86400 = 43200

/-- The years since 1900 fit an `int` somewhat longer than the year does: the subtraction wraps
back. -/
theorem tm_year {y : ℤ} (h1970 : 1970 ≤ y) (h : y < 2 ^ 31 + 1900) :
    toInt32 (storedInt y - 1900) + 1900 = y := by
  unfold storedInt
  rw [min_eq_left (by omega), max_eq_right (by omega)]
  unfold toInt32
  omega

theorem timegm_civil {t : Timestamp} (h : t.date.year < 2 ^ 31 + 1900) :
    timegm t.civil = t.minuteStart + ⌊binary64 t.second⌋ := by
  have hm1 := t.date.isDate.one_le_month
  have hm12 := t.date.isDate.month_le
  have hmon : toInt32 (t.date.month - 1) = t.date.month - 1 :=
    toInt32_eq_self (by omega) (by omega)
  have hyear : t.date.year + (t.date.month - 1) / 12 = t.date.year := by omega
  have hmonth : (t.date.month - 1) % 12 + 1 = t.date.month := by omega
  unfold timegm Timestamp.civil Timestamp.minuteStart Date.number
  dsimp only
  rw [tm_year t.from1970 h, hmon, hyear, hmonth, daysFromCivil_eq _ _ hm1 hm12]
  unfold dayNumber
  ring

theorem monthStart_nonneg (y : ℤ) {m : ℤ} (h1 : 1 ≤ m) (h12 : m ≤ 12) : 0 ≤ monthStart y m := by
  rw [monthStart_eq y h1 h12]
  split
  · omega
  · split <;> omega

theorem Timestamp.minuteStart_nonneg (t : Timestamp) : 0 ≤ t.minuteStart := by
  have hyear := t.from1970
  have hday := t.date.isDate.one_le_day
  have hmonth := monthStart_nonneg t.date.year t.date.isDate.one_le_month t.date.isDate.month_le
  have hstart : 0 ≤ yearStart t.date.year := by
    unfold yearStart leapsThrough
    omega
  have hnumber : 0 ≤ t.date.number := by
    unfold Date.number dayNumber
    omega
  unfold Timestamp.minuteStart
  omega

/-- The day of the noon before a moment, as `night_of` reads it. -/
def Timestamp.nightDay (t : Timestamp) (o : Offset) : ℤ :=
  (t.minuteStart + ⌊binary64 t.second⌋ + o.seconds - 43200) / 86400

/-- The printed date of a day, with its year as an `int`. -/
def dayText (z : ℤ) : Str :=
  padInt 4 (toInt32 (civilFromDays z).1) ++ '-' :: padInt 2 (civilFromDays z).2.1 ++
    '-' :: padInt 2 (civilFromDays z).2.2

theorem nightOf_text {t : Timestamp} (sep : DateSep) (o : Offset) (h : t.date.year < 2 ^ 31 + 1900) :
    nightOf (t.text sep) o.hours = some (dayText (t.nightDay o)) := by
  have hne : timegm t.civil ≠ -1 := by
    have h1 := t.minuteStart_nonneg
    have h2 : 0 ≤ ⌊t.second⌋ := Int.floor_nonneg.mpr t.second_nonneg
    have h3 := t.floor_binary64
    rw [timegm_civil h]
    omega
  unfold nightOf
  rw [scanDateTime_either]
  dsimp only
  rw [if_neg hne, timegm_civil h, o.lround_hours]
  rfl

/-- Dates are printed apart. -/
theorem dateFields_inj {y m d y' m' d' : ℤ}
    (h : padInt 4 y ++ '-' :: padInt 2 m ++ '-' :: padInt 2 d =
      padInt 4 y' ++ '-' :: padInt 2 m' ++ '-' :: padInt 2 d') : y = y' ∧ m = m' ∧ d = d' := by
  have hdash := head_not_digit (c := '-') rfl
  have hnil : ∀ c ∈ ([] : Str).head?, c.isDigit = false := nofun
  rw [List.append_assoc, List.append_assoc] at h
  have hyear := congrArg scanInteger h
  rw [List.cons_append, List.cons_append, scanInteger_padInt (hdash _),
    scanInteger_padInt (hdash _)] at hyear
  obtain ⟨hy, hrest⟩ := Prod.mk.inj (Option.some.inj hyear)
  have hmonth := congrArg scanInteger (List.cons.inj hrest).2
  rw [scanInteger_padInt (hdash _), scanInteger_padInt (hdash _)] at hmonth
  obtain ⟨hm, hrest⟩ := Prod.mk.inj (Option.some.inj hmonth)
  have hday := congrArg (fun d => scanInteger (d ++ [])) (List.cons.inj hrest).2
  rw [scanInteger_padInt hnil, scanInteger_padInt hnil] at hday
  exact ⟨hy, hm, (Prod.mk.inj (Option.some.inj hday)).1⟩

/-- A whole number of seconds is not past a moment exactly if it is not past its whole second. -/
theorem Timestamp.le_local_iff (t : Timestamp) (o : Offset) (n : ℤ) :
    (n : ℚ) ≤ t.local o ↔ n ≤ t.minuteStart + ⌊t.second⌋ + o.seconds := by
  have hlocal : t.local o = (t.minuteStart + o.seconds : ℤ) + t.second := by
    unfold Timestamp.local Timestamp.instant
    push_cast
    ring
  rw [hlocal, ← sub_le_iff_le_add', ← Int.cast_sub, ← Int.le_floor]
  omega

/-- A date that is printed as a label has a year that fits an `int`. -/
theorem year_lt_of_printed {s : Str} {hours : ℚ} {D : Date} (h : nightOf s hours = some (dateText D)) :
    D.year < 2 ^ 31 := by
  unfold nightOf at h
  split at h
  · cases h
  · dsimp only at h
    obtain ⟨-, h⟩ := Option.ite_none_left_eq_some.mp h
    rw [← (dateFields_inj (Option.some.inj h)).1]
    exact (toInt32_mem _).2

/-- The first date whose year is no `int`. -/
def beyondInt : Date := ⟨2 ^ 31, 1, 1, ⟨by decide, by decide, by decide, by decide⟩⟩

theorem year_lt_of_number_lt {D : Date} (h : D.number < beyondInt.number) : D.year < 2 ^ 31 := by
  by_contra hle
  rcases (not_lt.mp hle).lt_or_eq with hlt | heq
  · exact absurd h (not_lt.mpr (Date.number_lt_of_year_lt beyondInt D hlt).le)
  · have hstart := yearStart_le_number D
    rw [← heq] at hstart
    exact absurd h (not_lt.mpr hstart)

/-- **The label of a moment** is a date whose year fits an `int`, and it is right if the day is that
of the whole second. -/
theorem labelled_iff {t : Timestamp} {sep : DateSep} {o : Offset} {D : Date} :
    Labelled t sep o D ↔ nightOf (t.text sep) o.hours = some (dateText D) ∧
      D.number = (t.minuteStart + ⌊t.second⌋ + o.seconds - 43200) / 86400 := by
  unfold Labelled
  rw [← not_le, t.le_local_iff, t.le_local_iff]
  refine and_congr_right fun _ => ?_
  unfold noon
  omega

/-- The date of a day from 1969 on whose year fits an `int` is printed. -/
theorem dayText_eq {z : ℤ} (h0 : -2 ≤ z) (h : z < beyondInt.number) :
    ∃ D : Date, dayText z = dateText D ∧ D.number = z := by
  obtain ⟨D, hD, rfl⟩ := exists_civilFromDays z
  refine ⟨D, ?_, rfl⟩
  have hlow : 1969 ≤ D.year := by
    by_contra hlt
    have hyear : D.number < yearStart 1969 :=
      (number_lt_yearStart D).trans_le (yearStart_mono (by omega))
    have hstart : yearStart 1969 = -365 := by decide
    omega
  unfold dayText dateText
  rw [hD, toInt32_eq_self (by omega) (year_lt_of_number_lt h)]

/-- The day of the noon before a moment. -/
def Timestamp.rightDay (t : Timestamp) (o : Offset) : ℤ :=
  (t.minuteStart + ⌊t.second⌋ + o.seconds - 43200) / 86400

theorem Timestamp.rightDay_ge (t : Timestamp) (o : Offset) : -2 ≤ t.rightDay o := by
  have hstart := t.minuteStart_nonneg
  have hsecond : 0 ≤ ⌊t.second⌋ := Int.floor_nonneg.mpr t.second_nonneg
  have hoffset := (abs_le.mp o.within).1
  unfold Timestamp.rightDay
  omega

/-- A double is read as a moment of the same night, or of the next one. -/
theorem Timestamp.nightDay_eq_or (t : Timestamp) (o : Offset) :
    t.nightDay o = t.rightDay o ∨ t.nightDay o = t.rightDay o + 1 := by
  have hfloor := t.floor_binary64
  unfold Timestamp.nightDay Timestamp.rightDay
  omega

theorem Timestamp.local_lt_iff (t : Timestamp) (o : Offset) :
    t.local o < noon beyondInt ↔ t.rightDay o < beyondInt.number := by
  rw [← not_le, t.le_local_iff]
  unfold noon Timestamp.rightDay
  omega

/-- A moment before the first noon of such a year is written with a year that a `tm` holds. -/
theorem year_lt_of_rightDay {t : Timestamp} {o : Offset} (h : t.rightDay o < beyondInt.number) :
    t.date.year < 2 ^ 31 + 1900 := by
  by_contra hle
  have hdate : yearStart (2 ^ 31 + 1) ≤ t.date.number :=
    (yearStart_mono (by omega)).trans (yearStart_le_number t.date)
  have hyear : yearStart (2 ^ 31 + 1) = beyondInt.number + 366 := by decide
  have hsecond : 0 ≤ ⌊t.second⌋ := Int.floor_nonneg.mpr t.second_nonneg
  have hoffset := (abs_le.mp o.within).1
  unfold Timestamp.rightDay Timestamp.minuteStart at h
  omega

/-- A date from 1969 on whose year fits an `int` is read off its label. -/
theorem number_of_dayText {z : ℤ} {D : Date} (h : dayText z = dateText D) (h0 : -2 ≤ D.number)
    (hz : -2 ≤ z) (hz' : z ≤ beyondInt.number) : D.number = z := by
  obtain ⟨D', hD', rfl⟩ := exists_civilFromDays z
  have hyear : ∀ E : Date, -2 ≤ E.number → 1969 ≤ E.year := by
    intro E hE
    by_contra hlt
    have hstart : yearStart 1969 = -365 := by decide
    have := (number_lt_yearStart E).trans_le (yearStart_mono (show E.year + 1 ≤ 1969 by omega))
    omega
  have hlast : D'.year ≤ 2 ^ 31 := by
    by_contra hlt
    exact absurd hz' (not_le.mpr (Date.number_lt_of_year_lt beyondInt D' (not_le.mp hlt)))
  unfold dayText dateText at h
  rw [hD'] at h
  obtain ⟨hy, hm, hd⟩ := dateFields_inj h
  have hsame : D'.year = D.year := by
    have h1 := hyear D h0
    have h2 := hyear D' hz
    rw [← hy] at h1 ⊢
    unfold toInt32 at h1 ⊢
    omega
  unfold Date.number
  rw [← hsame, ← hm, ← hd]

/-- A moment that is labelled right is on the day that is printed. -/
theorem nightDay_of_labelled {t : Timestamp} {sep : DateSep} {o : Offset} {D : Date}
    (h : Labelled t sep o D) : t.rightDay o < beyondInt.number ∧ t.nightDay o = D.number ∧
      nightOf (t.text sep) o.hours = some (dayText D.number) := by
  obtain ⟨hlabel, hnumber⟩ := labelled_iff.mp h
  have hlt : t.rightDay o < beyondInt.number := by
    have := Date.number_lt_of_year_lt D beyondInt (year_lt_of_printed hlabel)
    rwa [hnumber] at this
  have htext := nightOf_text sep o (year_lt_of_rightDay hlt)
  have hge := t.rightDay_ge o
  have hor := t.nightDay_eq_or o
  have hday : D.number = t.nightDay o := by
    refine number_of_dayText (Option.some.inj (htext.symm.trans hlabel)) ?_ (by omega) (by omega)
    rw [hnumber]
    exact hge
  exact ⟨hlt, hday.symm, hday ▸ htext⟩

theorem roundsToNoon_iff (t : Timestamp) (o : Offset) :
    RoundsToNoon t o ↔ t.nightDay o ≠ t.rightDay o := by
  have hfloor := t.floor_binary64
  unfold RoundsToNoon Timestamp.nightDay Timestamp.rightDay
  omega

theorem exists_labelled_iff (t : Timestamp) (sep : DateSep) (o : Offset) :
    (∃ D, Labelled t sep o D) ↔ ¬RoundsToNoon t o ∧ t.local o < noon beyondInt := by
  rw [roundsToNoon_iff, not_not, t.local_lt_iff]
  constructor
  · rintro ⟨D, h⟩
    obtain ⟨hlt, hday, -⟩ := nightDay_of_labelled h
    exact ⟨hday.trans (labelled_iff.mp h).2, hlt⟩
  · rintro ⟨hday, hlt⟩
    obtain ⟨D, hD, hnumber⟩ := dayText_eq (t.rightDay_ge o) hlt
    refine ⟨D, labelled_iff.mpr ⟨?_, hnumber⟩⟩
    rw [nightOf_text sep o (year_lt_of_rightDay hlt), hday, hD]

/-- No noon comes between two moments. -/
def SameNight (t t' : Timestamp) (o : Offset) : Prop :=
  ∀ k : ℤ, ((k * 86400 + 43200 : ℤ) : ℚ) ≤ t.local o ↔ ((k * 86400 + 43200 : ℤ) : ℚ) ≤ t'.local o

/-- No noon comes between two moments exactly if the last one before them is the same. -/
theorem sameNight_iff {t t' : Timestamp} {o : Offset} : SameNight t t' o ↔
    (t.minuteStart + ⌊t.second⌋ + o.seconds - 43200) / 86400 =
      (t'.minuteStart + ⌊t'.second⌋ + o.seconds - 43200) / 86400 := by
  unfold SameNight
  constructor
  · intro hall
    have h1 := hall ((t.minuteStart + ⌊t.second⌋ + o.seconds - 43200) / 86400)
    have h2 := hall ((t'.minuteStart + ⌊t'.second⌋ + o.seconds - 43200) / 86400)
    rw [t.le_local_iff, t'.le_local_iff] at h1 h2
    omega
  · intro he k
    rw [t.le_local_iff, t'.le_local_iff]
    omega

/-- **The observing night, exactly.**  The label is the date of the local noon before, unless the
seconds are rounded up to noon or that date's year is no `int`; and among moments that are labelled so,
the label is monotone in the time, and the same exactly if no noon comes between them. -/
theorem nightOf_iff (o : Offset) :
    (∀ t sep, (∃ D, Labelled t sep o D) ↔ ¬RoundsToNoon t o ∧ t.local o < noon beyondInt) ∧
      ∀ t t' sep sep' D D', Labelled t sep o D → Labelled t' sep' o D' →
        (t.local o ≤ t'.local o → D.number ≤ D'.number) ∧
          (nightOf (t.text sep) o.hours = nightOf (t'.text sep') o.hours ↔ SameNight t t' o) := by
  refine ⟨fun t sep => exists_labelled_iff t sep o, fun t t' sep sep' D D' h h' => ⟨fun hle => ?_, ?_⟩⟩
  · have hnoon : noon D ≤ t'.minuteStart + ⌊t'.second⌋ + o.seconds :=
      (t'.le_local_iff o _).mp (h.2.1.trans hle)
    have hnumber := (labelled_iff.mp h').2
    unfold noon at hnoon
    omega
  · obtain ⟨hlabel, hnumber⟩ := labelled_iff.mp h
    obtain ⟨hlabel', hnumber'⟩ := labelled_iff.mp h'
    rw [sameNight_iff, ← hnumber, ← hnumber']
    constructor
    · intro he
      rw [hlabel, hlabel', Option.some_inj] at he
      obtain ⟨hy, hm, hd⟩ := dateFields_inj he
      unfold Date.number
      rw [hy, hm, hd]
    · intro he
      rw [(nightDay_of_labelled h).2.2, (nightDay_of_labelled h').2.2, he]

/-! ### A year beyond `int` -/

/-- One in the afternoon of a day whose year, read as an `int`, is 2024. -/
def farYear : Timestamp where
  date := ⟨4294969320, 1, 1, ⟨by decide, by decide, by decide, by decide⟩⟩
  from1970 := by decide
  hour := 13
  hour_lt := by decide
  minute := 0
  minute_lt := by decide
  seconds := some ⟨0, by decide, none, nofun⟩

/-- No offset. -/
def utc : Offset := ⟨0, by decide⟩

example : farYear.text .letter = "4294969320-01-01T13:00:00".toList := by decide

/-- It is labelled with a night of 2024. -/
theorem farYear_mislabelled :
    normalizeDateObs (farYear.text .letter) = farYear.text .letter ∧
      nightOf (farYear.text .letter) utc.hours = some "2024-01-01".toList ∧
      ¬∃ D, Labelled farYear .letter utc D := by
  refine ⟨by decide +kernel, by decide +kernel, ?_⟩
  rw [exists_labelled_iff]
  exact fun h => absurd h.2 (by decide +kernel)

/-! ### A moment before noon -/

theorem nines : ∀ ds ∈ some "9999999999999999".toList, ∀ c ∈ ds, c.isDigit = true :=
  fun _ hds => List.all_eq_true.mp (Option.mem_some.mp hds ▸ rfl)

/-- A moment before noon, with sixteen digits behind the point. -/
def beforeNoon : Timestamp where
  date := ⟨2024, 1, 1, ⟨by decide, by decide, by decide, by decide⟩⟩
  from1970 := by decide
  hour := 11
  hour_lt := by decide
  minute := 59
  minute_lt := by decide
  seconds := some ⟨59, by decide, some "9999999999999999".toList, nines⟩

/-- It is labelled as if it were noon. -/
example : RoundsToNoon beforeNoon utc ∧
    nightOf "2024-01-01T11:59:59.9999999999999999".toList utc.hours = some "2024-01-01".toList :=
  ⟨⟨by decide +kernel, by decide +kernel⟩, by decide +kernel⟩

/-! ### Normalized dates -/

/-- A moment with at most six digits behind the point. -/
def Seconds.cut (x : Seconds) : Seconds where
  whole := x.whole
  whole_lt := x.whole_lt
  fraction := x.fraction.map (List.take 6)
  isDigit ds hds c hc := by
    obtain ⟨ds', hds', rfl⟩ := Option.mem_map.mp hds
    exact x.isDigit ds' hds' c (List.mem_of_mem_take hc)

def Timestamp.cut (t : Timestamp) : Timestamp := { t with seconds := t.seconds.map Seconds.cut }

theorem Timestamp.floor_second (t : Timestamp) :
    ⌊t.second⌋ = ((t.seconds.map Seconds.whole).getD 0 : ℕ) := by
  unfold Timestamp.second
  cases t.seconds with
  | none => rfl
  | some x => exact x.floor_value

theorem Timestamp.floor_cut (t : Timestamp) : ⌊t.cut.second⌋ = ⌊t.second⌋ := by
  rw [t.floor_second, t.cut.floor_second]
  unfold Timestamp.cut
  cases t.seconds <;> rfl

/-- Seconds with six digits behind the point are not rounded up to the next one. -/
theorem Seconds.cut_value_le (x : Seconds) : x.cut.value ≤ x.whole + 1 - 1 / 10 ^ 6 := by
  have hlt := digitsValue_lt x.cut.fraction_isDigit
  have hlen : (x.cut.fraction.getD []).length ≤ 6 := by
    show ((x.fraction.map (List.take 6)).getD []).length ≤ 6
    cases x.fraction with
    | none => exact Nat.zero_le 6
    | some ds => exact List.length_take_le 6 ds
  show (x.whole : ℚ) + _ ≤ _
  generalize (x.cut.fraction.getD []).length = n at hlt hlen ⊢
  generalize digitsValue 10 (x.cut.fraction.getD []) = k at hlt ⊢
  have hpow : (0 : ℚ) < 10 ^ n := by positivity
  have hk : (k : ℚ) + 1 ≤ 10 ^ n := by exact_mod_cast hlt
  have hsmall : (1 : ℚ) / 10 ^ 6 ≤ 1 / 10 ^ n :=
    one_div_le_one_div_of_le hpow (pow_le_pow_right₀ (by norm_num) hlen)
  have hquot : (k : ℚ) / 10 ^ n ≤ 1 - 1 / 10 ^ n := by
    rw [← sub_nonneg, show (1 : ℚ) - 1 / 10 ^ n - k / 10 ^ n = (10 ^ n - (k + 1)) / 10 ^ n by
      field_simp; ring]
    exact div_nonneg (sub_nonneg.mpr hk) hpow.le
  linarith

theorem Timestamp.cut_not_rounded (t : Timestamp) (o : Offset) : ¬RoundsToNoon t.cut o := by
  rintro ⟨hround, -⟩
  have hle : t.cut.second ≤ ⌊t.cut.second⌋ + 1 - 1 / 10 ^ 6 := by
    rw [t.floor_cut, t.floor_second]
    unfold Timestamp.second Timestamp.cut
    cases t.seconds with
    | none => norm_num
    | some x => exact x.cut_value_le
  have herror := abs_binary64_sub_le t.cut.second
  have hlt := t.cut.second_lt
  have hnn := t.cut.second_nonneg
  rw [abs_of_nonneg hnn, abs_le] at herror
  have hup : (⌊t.cut.second⌋ : ℚ) + 1 ≤ binary64 t.cut.second := by
    have := Int.le_floor.mp (Int.add_one_le_iff.mpr hround)
    push_cast at this
    exact this
  have hsmall : t.cut.second / 2 ^ 52 ≤ 60 / 2 ^ 52 :=
    div_le_div_of_nonneg_right hlt.le (by positivity)
  have hleast := leastDouble_le
  norm_num at hsmall hleast hle
  linarith [herror.2]

/-! ### The text of a normalized date -/

/-- A text that neither begins nor ends with a blank is not trimmed. -/
theorem trim_eq_self {s : Str} (hfirst : ∀ c ∈ s.head?, isTrimChar c = false)
    (hlast : ∀ c ∈ s.getLast?, isTrimChar c = false) : trim s = s := by
  have hdrop : ∀ r : Str, (∀ c ∈ r.head?, isTrimChar c = false) → r.dropWhile isTrimChar = r := by
    intro r hr
    cases r with
    | nil => rfl
    | cons c cs => exact List.dropWhile_cons_of_neg (by simp [hr c rfl])
  unfold trim stripBoth
  rw [hdrop s hfirst, hdrop s.reverse (by rwa [List.head?_reverse]), List.reverse_reverse]

/-- A digit or a point is neither a blank nor the letter of the time zone. -/
theorem plainEnd {c : Char} (h : c.isDigit = true ∨ c = '.') :
    isTrimChar c = false ∧ c ≠ 'Z' ∧ c ≠ 'z' := by
  rcases h with h | rfl
  · have hne : ∀ d : Char, d.isDigit = false → c ≠ d := by
      rintro d hd rfl
      rw [h] at hd
      cases hd
    refine ⟨?_, hne _ rfl, hne _ rfl⟩
    simp [isTrimChar, hne ' ' rfl, hne '\t' rfl, hne '\r' rfl, hne '\n' rfl]
  · decide

/-- What normalizing leaves of a text that ends in a digit or a point. -/
theorem normalizeDateObs_eq {s : Str} (hfirst : ∀ c ∈ s.head?, isTrimChar c = false)
    (hlast : ∀ c ∈ s.getLast?, c.isDigit = true ∨ c = '.') : normalizeDateObs s =
      if (s.takeWhile (· ≠ '.')).length < s.length ∧ 6 < s.length - (s.takeWhile (· ≠ '.')).length - 1
      then s.take ((s.takeWhile (· ≠ '.')).length + 7) else s := by
  have htrim := trim_eq_self hfirst fun c hc => (plainEnd (hlast c hc)).1
  have hzone : ¬(s.getLast? = some 'Z' ∨ s.getLast? = some 'z') := by
    rintro (h | h)
    · exact (plainEnd (hlast 'Z' h)).2.1 rfl
    · exact (plainEnd (hlast 'z' h)).2.2 rfl
  unfold normalizeDateObs
  dsimp only
  rw [htrim, if_neg hzone]

def wholeSecondsText : Option Seconds → Str
  | none => []
  | some x => ':' :: padLeft 2 (natText x.whole)

/-- The text of a moment up to the point. -/
def Timestamp.wholeText (t : Timestamp) (sep : DateSep) : Str :=
  dateText t.date ++ sep.char :: (padLeft 2 (natText t.hour) ++ ':' :: (padLeft 2 (natText t.minute) ++
    wholeSecondsText t.seconds))

theorem secondsText_eq (x : Option Seconds) :
    secondsText x = wholeSecondsText x ++ fractionText (x.bind Seconds.fraction) := by
  cases x with
  | none => rfl
  | some x =>
    show ':' :: x.text = _
    unfold Seconds.text
    rw [Option.bind_some]
    cases x.fraction <;> rfl

theorem Timestamp.text_eq (t : Timestamp) (sep : DateSep) :
    t.text sep = t.wholeText sep ++ fractionText (t.seconds.bind Seconds.fraction) := by
  unfold Timestamp.wholeText Timestamp.text
  rw [secondsText_eq, List.append_assoc, List.cons_append, List.append_assoc, List.cons_append,
    List.append_assoc]

theorem mem_padInt {k : ℕ} {i : ℤ} {c : Char} (h : c ∈ padInt k i) : c.isDigit = true ∨ c = '-' := by
  unfold padInt at h
  split at h
  · rcases List.mem_cons.mp h with rfl | h
    · exact Or.inr rfl
    · exact Or.inl (isDigit_padLeft h)
  · exact Or.inl (isDigit_padLeft h)

/-- A character of a timestamp before its point. -/
def isTimeChar (c : Char) : Bool := c.isDigit || c = '-' || c = ':' || c = 'T' || c = ' '

theorem isTimeChar_of_isDigit {c : Char} (h : c.isDigit = true) : isTimeChar c = true := by
  simp [isTimeChar, h]

theorem isTimeChar_padInt {k : ℕ} {i : ℤ} {c : Char} (h : c ∈ padInt k i) : isTimeChar c = true := by
  rcases mem_padInt h with h | rfl
  · exact isTimeChar_of_isDigit h
  · rfl

theorem isTimeChar_wholeText {t : Timestamp} {sep : DateSep} {c : Char} (h : c ∈ t.wholeText sep) :
    isTimeChar c = true := by
  have hsep : isTimeChar sep.char = true := by cases sep <;> rfl
  have hpad : ∀ {k n : ℕ}, c ∈ padLeft k (natText n) → isTimeChar c = true :=
    fun h => isTimeChar_of_isDigit (isDigit_padLeft h)
  have hseconds : c ∈ wholeSecondsText t.seconds → isTimeChar c = true := by
    cases t.seconds with
    | none => nofun
    | some x => exact fun h => (List.mem_cons.mp h).elim (fun hc => hc ▸ rfl) hpad
  unfold Timestamp.wholeText dateText at h
  simp only [List.mem_append, List.mem_cons] at h
  rcases h with ((h | rfl | h) | rfl | h) | rfl | h | rfl | h | h
  · exact isTimeChar_padInt h
  · rfl
  · exact isTimeChar_padInt h
  · rfl
  · exact isTimeChar_padInt h
  · exact hsep
  · exact hpad h
  · rfl
  · exact hpad h
  · exact hseconds h

/-- It ends in a number. -/
theorem exists_wholeText (t : Timestamp) (sep : DateSep) :
    ∃ p n, t.wholeText sep = p ++ padLeft 2 (natText n) := by
  unfold Timestamp.wholeText
  cases t.seconds with
  | none =>
    refine ⟨dateText t.date ++ sep.char :: (padLeft 2 (natText t.hour) ++ [':']), t.minute, ?_⟩
    simp only [wholeSecondsText, List.append_nil, List.append_assoc, List.cons_append, List.nil_append]
  | some x =>
    refine ⟨dateText t.date ++ sep.char :: (padLeft 2 (natText t.hour) ++
      ':' :: (padLeft 2 (natText t.minute) ++ [':'])), x.whole, ?_⟩
    simp only [wholeSecondsText, List.append_assoc, List.cons_append, List.nil_append]

theorem wholeText_last (t : Timestamp) (sep : DateSep) :
    ∀ c ∈ (t.wholeText sep).getLast?, c.isDigit = true := by
  obtain ⟨p, n, hp⟩ := exists_wholeText t sep
  intro c hc
  rw [hp, List.getLast?_append_of_ne_nil _ (padLeft_natText_ne_nil 2 n)] at hc
  exact isDigit_padLeft (List.mem_of_getLast? hc)

theorem wholeText_first (t : Timestamp) (sep : DateSep) (r : Str) :
    ∀ c ∈ (t.wholeText sep ++ r).head?, isTrimChar c = false := by
  intro c hc
  have hne : padInt 4 t.date.year ≠ [] := by
    unfold padInt
    split
    · exact List.cons_ne_nil _ _
    · exact padLeft_natText_ne_nil _ _
  have hmem : c ∈ padInt 4 t.date.year := by
    unfold Timestamp.wholeText dateText at hc
    rw [List.append_assoc, List.append_assoc, List.append_assoc, List.head?_append_of_ne_nil _ hne] at hc
    exact List.mem_of_mem_head? hc
  rcases mem_padInt hmem with h | rfl
  · exact (plainEnd (Or.inl h)).1
  · rfl

/-- **Normalizing cuts a timestamp to six digits behind the point.** -/
theorem normalizeDateObs_text (t : Timestamp) (sep : DateSep) :
    normalizeDateObs (t.text sep) = t.cut.text sep := by
  have hcut : t.cut.text sep =
      t.wholeText sep ++ fractionText ((t.seconds.bind Seconds.fraction).map (List.take 6)) := by
    rw [t.cut.text_eq]
    unfold Timestamp.wholeText Timestamp.cut
    cases t.seconds <;> rfl
  have hpoint : ∀ c ∈ t.wholeText sep, decide (c ≠ '.') = true := by
    intro c hc
    refine decide_eq_true ?_
    rintro rfl
    exact absurd (isTimeChar_wholeText hc) (by decide)
  have hds : ∀ ds ∈ t.seconds.bind Seconds.fraction, ∀ c ∈ ds, c.isDigit = true := by
    intro ds hds
    obtain ⟨x, -, hx⟩ := Option.bind_eq_some_iff.mp hds
    exact x.isDigit ds hx
  rw [hcut, t.text_eq]
  cases hf : t.seconds.bind Seconds.fraction with
  | none =>
    have hwhole : (t.wholeText sep).takeWhile (fun c => decide (c ≠ '.')) = t.wholeText sep :=
      List.takeWhile_eq_self_iff.mpr hpoint
    rw [show fractionText (Option.map (List.take 6) none) = [] from rfl,
      show fractionText none = [] from rfl, List.append_nil,
      normalizeDateObs_eq (by simpa using wholeText_first t sep [])
        fun c hc => Or.inl (wholeText_last t sep c hc), hwhole]
    exact if_neg fun h => absurd h.1 (lt_irrefl _)
  | some ds =>
    rw [hf] at hds
    have hwhole : (t.wholeText sep ++ '.' :: ds).takeWhile (fun c => decide (c ≠ '.')) =
        t.wholeText sep := by
      rw [List.takeWhile_append_of_pos hpoint]
      exact List.append_nil _
    have hlast : ∀ c ∈ (t.wholeText sep ++ '.' :: ds).getLast?, c.isDigit = true ∨ c = '.' := by
      intro c hc
      rw [List.getLast?_append_of_ne_nil _ (List.cons_ne_nil _ _)] at hc
      rcases List.mem_cons.mp (List.mem_of_getLast? hc) with rfl | hc
      · exact Or.inr rfl
      · exact Or.inl (hds ds rfl c hc)
    show normalizeDateObs (t.wholeText sep ++ '.' :: ds) = t.wholeText sep ++ '.' :: ds.take 6
    rw [normalizeDateObs_eq (wholeText_first t sep _) hlast, hwhole, List.length_append,
      List.length_cons]
    split
    · next h =>
      rw [List.take_length_add_append]
      rfl
    · next h =>
      rw [List.take_of_length_le (by omega)]

/-- **The night of a normalized date** is right for every fraction of a second, as long as its year is
an `int`. -/
theorem nightOf_normalized (t : Timestamp) (sep : DateSep) (o : Offset) :
    (∃ D, nightOf (normalizeDateObs (t.text sep)) o.hours = some (dateText D) ∧
      (noon D : ℚ) ≤ t.local o ∧ t.local o < (noon D + 86400 : ℤ)) ↔ t.local o < noon beyondInt := by
  have hlocal : ∀ n : ℤ, (n : ℚ) ≤ t.cut.local o ↔ (n : ℚ) ≤ t.local o := by
    intro n
    rw [t.le_local_iff, t.cut.le_local_iff, t.floor_cut]
    rfl
  have hlocal' : ∀ n : ℤ, t.cut.local o < n ↔ t.local o < n := by
    intro n
    rw [← not_le, ← not_le, hlocal]
  have hcut := exists_labelled_iff t.cut sep o
  rw [and_iff_right (t.cut_not_rounded o), hlocal'] at hcut
  rw [normalizeDateObs_text, ← hcut]
  refine exists_congr fun D => ?_
  unfold Labelled
  rw [hlocal, hlocal']

end StarBase.Extract
