import Mathlib.Tactic.Ring
import StarBase.Extract.DecimalText
import StarBase.Query.FilterText

/-!
# Numeric literals

A value compared with a numeric column is printed as a number.  `sqlNumber` is what a server reads
there.

* `sqlNumber_intNumeral`, `sqlNumber_fixedNumeral` — **PROVED**: what the printed numbers denote;
* `sqlNumber_of_numeric` — **PROVED**: a numeric string of decimal characters denotes the number
  that `stod` reads;
* `literal_faithful_iff` — **PROVED**: the values whose text denotes them exactly.
-/

namespace StarBase.Query

open Extract

/-! ### What a server reads -/

/-- Digits with an optional point, and an optional exponent. -/
def sqlUnsigned (s : Str) : Option ℚ :=
  match scanDigits 10 10 Char.isDigit 'e' s with
  | some (q, []) => some q
  | _ => none

/-- The number a text denotes as a single numeric literal with an optional sign. -/
def sqlNumber : Str → Option ℚ
  | '-' :: s => (sqlUnsigned s).map Neg.neg
  | '+' :: s => sqlUnsigned s
  | s => sqlUnsigned s

/-- The number that a value gives: a JSON number, or the number that the whole of a string is written
for, if `stod` takes it. -/
def givenNumber (v : Json) : Option ℚ :=
  match num? v, v with
  | some n, _ => some n.value
  | none, .str s =>
    match stodIn .fin s with
    | .ok (.fin q, []) => some q
    | _ => none
  | none, _ => none

/-- The text of a value denotes the number given, or the value is rejected. -/
def LiteralFaithful (ses : SqlSession) (v : Json) : Prop :=
  match literal .num v with
  | .ok lit => ∃ q, givenNumber v = some q ∧ sqlNumber (lit.sql ses) = some q
  | .error e => ∃ what, e = .query what

/-! ### Printed numbers -/

theorem sqlUnsigned_natText (n : ℕ) : sqlUnsigned (natText n) = some (n : ℚ) := by
  unfold sqlUnsigned
  rw [scanDigits_whole (fun _ => isDigit_natText) (natText_ne_nil n), digitsValue_natText]

theorem sqlUnsigned_point {a b k : ℕ} (hk : 0 < k) (h : b < 10 ^ k) :
    sqlUnsigned (natText a ++ '.' :: padLeft k (natText b)) =
      some ((a * 10 ^ k + b : ℕ) / 10 ^ k : ℚ) := by
  unfold sqlUnsigned
  rw [scanDigits_point (fun _ => isDigit_natText) (natText_ne_nil a) (fun _ => isDigit_padLeft),
    digitsValue_point hk h, length_padLeft hk h]

theorem sqlNumber_text (x : Numeral) {q : ℚ} (h : sqlUnsigned x.digits = some q) :
    sqlNumber x.text = some (if x.neg then -q else q) := by
  unfold Numeral.text
  cases x.neg with
  | true =>
    show (sqlUnsigned x.digits).map Neg.neg = _
    rw [h]
    rfl
  | false =>
    obtain ⟨c, cs, hx, hc, -⟩ := x.head_digit
    show sqlNumber x.digits = _
    rw [hx] at h ⊢
    unfold sqlNumber
    split
    · next he =>
      obtain ⟨rfl, -⟩ := List.cons.inj he
      cases hc
    · next he =>
      obtain ⟨rfl, -⟩ := List.cons.inj he
      cases hc
    · exact h

/-- **A printed integer denotes itself.** -/
theorem sqlNumber_intNumeral (i : ℤ) : sqlNumber (intNumeral i).text = some (i : ℚ) := by
  have hall := sqlNumber_text (intNumeral i) (sqlUnsigned_natText i.natAbs)
  rw [hall]
  show some (if decide (i < 0) = true then -((i.natAbs : ℕ) : ℚ) else ((i.natAbs : ℕ) : ℚ)) = _
  rw [Nat.cast_natAbs]
  by_cases hneg : i < 0
  · rw [if_pos (decide_eq_true hneg), abs_of_neg hneg, Int.cast_neg, neg_neg]
  · rw [if_neg (by rw [decide_eq_true_iff]; exact hneg), abs_of_nonneg (not_lt.mp hneg)]

/-- Six decimals of a number, with its sign. -/
def sixDecimalsText (d : ℚ) : ℚ :=
  if d < 0 then -(Rounding.roundHalfEven (|d| * 10 ^ 6) / 10 ^ 6) else
    Rounding.roundHalfEven (|d| * 10 ^ 6) / 10 ^ 6

/-- **A number printed with six decimals denotes its rounding.** -/
theorem sqlNumber_fixedNumeral (d : ℚ) :
    sqlNumber (fixedNumeral d).text = some (sixDecimalsText d) := by
  have hnn : 0 ≤ Rounding.roundHalfEven (|d| * 10 ^ 6) :=
    Rounding.roundHalfEven_nonneg (mul_nonneg (abs_nonneg d) (by norm_num))
  obtain ⟨r, hr⟩ := Int.eq_ofNat_of_zero_le hnn
  have hdigits : (fixedNumeral d).digits =
      natText (r / 10 ^ 6) ++ '.' :: padLeft 6 (natText (r % 10 ^ 6)) := by
    show natText ((Rounding.roundHalfEven (|d| * 10 ^ 6)).toNat / 10 ^ 6) ++
      '.' :: padLeft 6 (natText ((Rounding.roundHalfEven (|d| * 10 ^ 6)).toNat % 10 ^ 6)) = _
    rw [hr, Int.toNat_natCast]
  have hread : sqlUnsigned (fixedNumeral d).digits = some ((r : ℚ) / 10 ^ 6) := by
    rw [hdigits, sqlUnsigned_point (by decide) (Nat.mod_lt r (by decide)), Nat.mul_comm,
      Nat.div_add_mod]
  rw [sqlNumber_text (fixedNumeral d) hread]
  show some (if decide (d < 0) = true then _ else _) = some (sixDecimalsText d)
  unfold sixDecimalsText
  rw [hr, Int.cast_natCast]
  by_cases hneg : d < 0
  · rw [if_pos (decide_eq_true hneg), if_pos hneg]
  · rw [if_neg (by rw [decide_eq_true_iff]; exact hneg), if_neg hneg]

theorem sixDecimalsText_eq_iff {d : ℚ} : sixDecimalsText d = d ↔ ∃ k : ℤ, d * 10 ^ 6 = k := by
  unfold sixDecimalsText
  constructor
  · intro h
    split at h
    · refine ⟨-Rounding.roundHalfEven (|d| * 10 ^ 6), ?_⟩
      rw [← neg_div] at h
      rw [Int.cast_neg]
      exact ((div_eq_iff (by norm_num)).mp h).symm
    · exact ⟨Rounding.roundHalfEven (|d| * 10 ^ 6), ((div_eq_iff (by norm_num)).mp h).symm⟩
  · rintro ⟨k, hk⟩
    split
    · next hneg =>
      have habs : |d| * 10 ^ 6 = ((-k : ℤ) : ℚ) := by
        rw [abs_of_neg hneg, Int.cast_neg, ← hk]
        ring
      rw [habs, Rounding.roundHalfEven_intCast, Int.cast_neg, ← hk]
      ring
    · next hneg =>
      rw [abs_of_nonneg (not_lt.mp hneg), hk, Rounding.roundHalfEven_intCast, ← hk]
      ring

/-! ### Numbers -/

/-- A number as the library holds it: an integer, or a double. -/
def JsonNum.Held : JsonNum → Prop
  | .int _ => True
  | n => n.double = n.value

/-- The double next to an integer is whole. -/
theorem double_int_whole (i : ℤ) : ∃ m : ℤ, (JsonNum.int i).double = m := by
  show ∃ m : ℤ, Rounding.binary64 (i : ℚ) = m
  unfold Rounding.binary64
  split
  · exact ⟨0, rfl⟩
  · generalize Rounding.lastBit (i : ℚ) = e
    unfold Rounding.roundTo
    rcases Int.le_total 0 e with he | he
    · -- the unit is whole
      obtain ⟨n, rfl⟩ := Int.eq_ofNat_of_zero_le he
      refine ⟨Rounding.roundHalfEven (i / (2 : ℚ) ^ (n : ℤ)) * 2 ^ n, ?_⟩
      rw [zpow_natCast, Int.cast_mul, Int.cast_pow]
      norm_num
    · -- the integer is a multiple of the unit
      obtain ⟨n, hn⟩ := Int.eq_ofNat_of_zero_le (Int.neg_nonneg.mpr he)
      have hunit : (2 : ℚ) ^ e = ((2 : ℚ) ^ n)⁻¹ := by
        rw [show e = -(n : ℤ) by omega, zpow_neg, zpow_natCast]
      have hpow : (2 : ℚ) ^ n ≠ 0 := pow_ne_zero n (by norm_num)
      have hmult : (i : ℚ) / (2 : ℚ) ^ e = ((i * 2 ^ n : ℤ) : ℚ) := by
        rw [hunit, div_inv_eq_mul]
        push_cast
        rfl
      refine ⟨i, ?_⟩
      rw [hmult, Rounding.roundHalfEven_intCast, hunit, Int.cast_mul, Int.cast_pow, Int.cast_ofNat,
        mul_assoc, mul_inv_cancel₀ hpow, mul_one]

/-- What the printed number denotes. -/
theorem sqlNumber_numeral (n : JsonNum) : sqlNumber n.numeral.text =
    some (if n.double = ⌊n.double⌋ ∧ |n.double| < 10 ^ 15 then n.double
      else sixDecimalsText n.double) := by
  unfold JsonNum.numeral
  split
  · next h => rw [sqlNumber_intNumeral, ← h.1]
  · exact sqlNumber_fixedNumeral _

/-- **A printed number denotes the number itself** exactly when a double holds it with at most six
decimals. -/
theorem sqlNumber_numeral_eq_iff {n : JsonNum} (hheld : n.Held) :
    sqlNumber n.numeral.text = some n.value ↔ n.double = n.value ∧ ∃ k : ℤ, n.value * 10 ^ 6 = k := by
  rw [sqlNumber_numeral, Option.some_inj]
  have hmul : ∀ m : ℤ, ((m : ℚ)) * 10 ^ 6 = ((m * 10 ^ 6 : ℤ) : ℚ) := by
    intro m
    push_cast
    rfl
  constructor
  · intro h
    split at h
    · next hwhole =>
      refine ⟨h, ⌊n.double⌋ * 10 ^ 6, ?_⟩
      rw [← h, ← hmul, ← hwhole.1]
    · have hdouble : n.double = n.value := by
        cases n with
        | float neg num den => exact hheld
        | int i =>
          obtain ⟨m, hm⟩ := double_int_whole i
          have hsix : sixDecimalsText (JsonNum.int i).double = (JsonNum.int i).double :=
            sixDecimalsText_eq_iff.mpr ⟨m * 10 ^ 6, by rw [hm, hmul]⟩
          rw [← hsix, h]
      rw [hdouble] at h
      exact ⟨hdouble, sixDecimalsText_eq_iff.mp h⟩
  · rintro ⟨hdouble, hk⟩
    rw [hdouble]
    split
    · rfl
    · exact sixDecimalsText_eq_iff.mpr hk

/-! ### Numeric strings -/

/-- What a decimal number that ends the text is made of. -/
theorem sqlUnsigned_chars {s : Str} {q : ℚ} (h : sqlUnsigned s = some q) :
    ∀ c ∈ s, isDecimalChar c = true := by
  unfold sqlUnsigned at h
  split at h
  · next hscan => exact scanDigits_chars hscan
  · cases h

theorem sqlNumber_chars {s : Str} {q : ℚ} (h : sqlNumber s = some q) :
    ∀ c ∈ s, isDecimalChar c = true := by
  unfold sqlNumber at h
  split at h
  · next t =>
    obtain ⟨r, hr, -⟩ := Option.map_eq_some_iff.mp h
    exact List.forall_mem_cons.mpr ⟨rfl, sqlUnsigned_chars hr⟩
  · next t => exact List.forall_mem_cons.mpr ⟨rfl, sqlUnsigned_chars h⟩
  · exact sqlUnsigned_chars h

/-- **A string of decimal characters denotes the number it is written for.** -/
theorem sqlNumber_of_numeric {s : Str} {d : Dbl} (hscan : scanDouble s = some (d, []))
    (hs : ∀ c ∈ s, isDecimalChar c = true) : ∃ q, d = .fin q ∧ sqlNumber s = some q := by
  have hunsigned : ∀ {t : Str} {d : Dbl}, (∀ c ∈ t, isDecimalChar c = true) →
      scanUnsigned t = some (d, []) → ∃ q, d = .fin q ∧ sqlUnsigned t = some q := by
    intro t d ht hd
    rw [scanUnsigned_decimal ht] at hd
    obtain ⟨⟨q, rest⟩, hq, he⟩ := Option.map_eq_some_iff.mp hd
    obtain ⟨rfl, rfl⟩ := Prod.mk.inj he
    refine ⟨q, rfl, ?_⟩
    unfold sqlUnsigned
    rw [hq]
  unfold scanDouble at hscan
  have hspace : s.dropWhile isSpaceChar = s := by
    cases s with
    | nil => rfl
    | cons c cs =>
      have hc : ¬isSpaceChar c = true := by
        rw [(decimalChar_plain (hs c List.mem_cons_self)).1]
        exact Bool.false_ne_true
      rw [List.dropWhile_cons_of_neg hc]
  rw [hspace] at hscan
  unfold sqlNumber
  split at hscan
  · next cs =>
    obtain ⟨⟨d', rest⟩, hd, he⟩ := Option.map_eq_some_iff.mp hscan
    obtain ⟨rfl, rfl⟩ := Prod.mk.inj he
    obtain ⟨q, rfl, hq⟩ := hunsigned (fun c hc => hs c (List.mem_cons_of_mem _ hc)) hd
    refine ⟨-q, rfl, ?_⟩
    show (sqlUnsigned cs).map Neg.neg = _
    rw [hq]
    rfl
  · next cs =>
    obtain ⟨q, rfl, hq⟩ := hunsigned (fun c hc => hs c (List.mem_cons_of_mem _ hc)) hscan
    exact ⟨q, rfl, hq⟩
  · next hminus hplus =>
    obtain ⟨q, rfl, hq⟩ := hunsigned hs hscan
    refine ⟨q, rfl, ?_⟩
    split
    · next t => exact absurd rfl (hminus t)
    · next t => exact absurd rfl (hplus t)
    · exact hq

/-- A numeric string denotes the number it is read as exactly when its characters are decimal. -/
theorem sqlNumber_text_iff {s : Str} (hs : isNumeric s = true) :
    (∃ q, givenNumber (.str s) = some q ∧ sqlNumber s = some q) ↔
      ∀ c ∈ s, isDecimalChar c = true := by
  constructor
  · rintro ⟨q, -, hq⟩
    exact sqlNumber_chars hq
  · intro hchars
    unfold isNumeric at hs
    split at hs
    · next d rest hstod =>
      rw [of_decide_eq_true hs] at hstod
      obtain ⟨d', hscan, hexact⟩ := exists_scan_of_stodIn hstod
      obtain ⟨q, rfl, hq⟩ := sqlNumber_of_numeric hscan hchars
      refine ⟨q, ?_, hq⟩
      unfold givenNumber
      dsimp only [num?]
      rw [hexact]
    · cases hs

/-! ### The values whose text denotes them -/

/-- A double with at most six decimals, or decimal characters. -/
def LiteralExact (v : Json) : Prop :=
  (∀ n, num? v = some n → n.double = n.value ∧ ∃ k : ℤ, n.value * 10 ^ 6 = k) ∧
    ∀ s, v = .str s → isNumeric s = true → ∀ c ∈ s, isDecimalChar c = true

variable (ses : SqlSession)

theorem literal_faithful_num {v : Json} {n : JsonNum} (hn : num? v = some n)
    (hstr : ∀ s, v ≠ .str s) (hheld : n.Held) (hlit : literal .num v = .ok (.num n)) :
    LiteralFaithful ses v ↔ LiteralExact v := by
  have hgiven : givenNumber v = some n.value := by
    unfold givenNumber
    rw [hn]
  unfold LiteralFaithful LiteralExact
  rw [hlit, hgiven, hn]
  constructor
  · rintro ⟨q, hq, htext⟩
    rw [← hq] at htext
    refine ⟨fun m hm => ?_, fun s hs => absurd hs (hstr s)⟩
    cases hm
    exact (sqlNumber_numeral_eq_iff hheld).mp htext
  · rintro ⟨hexact, -⟩
    exact ⟨n.value, rfl, (sqlNumber_numeral_eq_iff hheld).mpr (hexact n rfl)⟩

theorem literal_faithful_str (s : Str) :
    LiteralFaithful ses (.str s) ↔ LiteralExact (.str s) := by
  have hexact : LiteralExact (.str s) ↔ (isNumeric s = true → ∀ c ∈ s, isDecimalChar c = true) := by
    refine ⟨fun h => h.2 s rfl, fun h => ⟨fun n hn => ?_, fun t ht => ?_⟩⟩
    · cases hn
    · cases ht
      exact h
  rw [hexact]
  unfold LiteralFaithful
  by_cases hs : isNumeric s = true
  · rw [show literal .num (.str s) = .ok (.numText s) from if_pos hs]
    exact (sqlNumber_text_iff hs).trans ⟨fun h _ => h, fun h => h hs⟩
  · rw [show literal .num (.str s) = .error (.query _) from if_neg hs]
    exact iff_of_true ⟨_, rfl⟩ fun h => absurd h hs

/-- **The text of a value denotes the number given** exactly when a number is a double with at most
six decimals, and a numeric string is made of decimal characters. -/
theorem literal_faithful_iff (v : Json) (hheld : ∀ n, num? v = some n → n.Held) :
    LiteralFaithful ses v ↔ LiteralExact v := by
  cases v with
  | int i => exact literal_faithful_num ses rfl (fun _ => Json.noConfusion) (hheld _ rfl) rfl
  | float neg num den =>
    exact literal_faithful_num ses rfl (fun _ => Json.noConfusion) (hheld _ rfl) rfl
  | str s => exact literal_faithful_str ses s
  | _ =>
    -- neither a number nor a string: rejected
    refine iff_of_true ⟨_, rfl⟩ ⟨fun n hn => ?_, fun _ hs => Json.noConfusion hs⟩
    cases hn

/-- One half. -/
theorem literal_faithful_half : LiteralFaithful ⟨id, id⟩ (.float false 1 2) := by
  have hhalf : (JsonNum.float false 1 2).double = (JsonNum.float false 1 2).value := by decide +kernel
  refine (literal_faithful_iff ⟨id, id⟩ (.float false 1 2) ?_).mpr ⟨?_, fun _ hs => Json.noConfusion hs⟩
  · rintro n hn
    cases hn
    exact hhalf
  · rintro n hn
    cases hn
    exact ⟨hhalf, 500000, by norm_num [JsonNum.value]⟩

/-- The double 2⁻²⁴ is printed as zero. -/
theorem small_number_lost : ¬LiteralFaithful ⟨id, id⟩ (.float false 1 16777216) := by
  rintro ⟨q, hq, htext⟩
  have hvalue : q = 1 / 16777216 := (Option.some.inj hq).symm
  have hzero : sqlNumber (JsonNum.float false 1 16777216).numeral.text = some 0 := by decide +kernel
  have hread : some q = some 0 := htext.symm.trans hzero
  rw [hvalue, Option.some_inj] at hread
  norm_num at hread

end StarBase.Query
