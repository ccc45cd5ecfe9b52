import StarBase.Extract.Digits

/-!
# Decimal numbers as text

The grammar of a decimal number, written down apart from the scanner, and what `strtod` makes of it.

* `Decimal.scanDouble_text` — **PROVED**: the text of a decimal is read to its end, as its value;
* `exists_decimal` — **PROVED**: a text of decimal characters that is read to its end is that of a
  decimal.
-/

namespace StarBase.Extract

/-! ### The grammar -/

/-- A sign, or none. -/
inductive Sign
  | none
  | plus
  | minus
  deriving DecidableEq, Repr

namespace Sign

def text : Sign → Str
  | .none => []
  | .plus => ['+']
  | .minus => ['-']

def apply {α : Type*} [Neg α] : Sign → α → α
  | .minus, a => -a
  | _, a => a

end Sign

/-- An exponent: its marker, a sign and digits. -/
structure Exponent where
  marker : Char
  isMarker : marker = 'e' ∨ marker = 'E'
  sign : Sign
  digits : Str
  isDigit : ∀ c ∈ digits, c.isDigit = true
  digits_ne_nil : digits ≠ []

def Exponent.text (x : Exponent) : Str := x.marker :: (x.sign.text ++ x.digits)

def Exponent.value (x : Exponent) : ℤ := x.sign.apply (digitsValue 10 x.digits : ℤ)

/-- Digits with at most one point among them. -/
structure Mantissa where
  whole : Str
  fraction : Option Str
  whole_isDigit : ∀ c ∈ whole, c.isDigit = true
  fraction_isDigit : ∀ c ∈ fraction.getD [], c.isDigit = true
  some_digit : whole ≠ [] ∨ fraction.getD [] ≠ []

def fractionText : Option Str → Str
  | none => []
  | some ds => '.' :: ds

def Mantissa.text (x : Mantissa) : Str := x.whole ++ fractionText x.fraction

def Mantissa.value (x : Mantissa) : ℚ :=
  (digitsValue 10 (x.whole ++ x.fraction.getD []) : ℚ) / 10 ^ (x.fraction.getD []).length

/-- A decimal number: a sign, digits, an exponent. -/
structure Decimal where
  sign : Sign
  mantissa : Mantissa
  exponent : Option Exponent

def exponentText (x : Option Exponent) : Str := (x.map Exponent.text).getD []

def exponentValue (x : Option Exponent) : ℤ := (x.map Exponent.value).getD 0

def Decimal.text (x : Decimal) : Str :=
  x.sign.text ++ (x.mantissa.text ++ exponentText x.exponent)

def Decimal.value (x : Decimal) : ℚ :=
  x.sign.apply (x.mantissa.value * 10 ^ exponentValue x.exponent)

/-! ### The characters of a number -/

/-- The characters of a decimal number. -/
def isDecimalChar (c : Char) : Bool :=
  c.isDigit || c = '.' || c = '+' || c = '-' || c = 'e' || c = 'E'

theorem isDecimalChar_digit {c : Char} (h : c.isDigit = true) : isDecimalChar c = true := by
  unfold isDecimalChar
  rw [h]
  rfl

theorem Sign.decimalChars (x : Sign) : ∀ c ∈ x.text, isDecimalChar c = true := by
  cases x with
  | none => exact List.forall_mem_nil _
  | plus => exact List.forall_mem_singleton.mpr rfl
  | minus => exact List.forall_mem_singleton.mpr rfl

theorem exponentText_isDecimalChar (x : Option Exponent) :
    ∀ c ∈ exponentText x, isDecimalChar c = true := by
  cases x with
  | none => exact List.forall_mem_nil _
  | some x =>
    refine List.forall_mem_cons.mpr ⟨?_, List.forall_mem_append.mpr ⟨x.sign.decimalChars, ?_⟩⟩
    · rcases x.isMarker with h | h <;> rw [h] <;> rfl
    · exact fun c hc => isDecimalChar_digit (x.isDigit c hc)

/-- The text of a mantissa is made of digits and points. -/
theorem Mantissa.digit_or_point (x : Mantissa) : ∀ c ∈ x.text, c.isDigit = true ∨ c = '.' := by
  refine List.forall_mem_append.mpr ⟨fun c hc => Or.inl (x.whole_isDigit c hc), ?_⟩
  have hfraction := x.fraction_isDigit
  cases hf : x.fraction with
  | none => exact List.forall_mem_nil _
  | some ds =>
    rw [hf] at hfraction
    exact List.forall_mem_cons.mpr ⟨Or.inr rfl, fun c hc => Or.inl (hfraction c hc)⟩

theorem Mantissa.decimalChars (x : Mantissa) : ∀ c ∈ x.text, isDecimalChar c = true := by
  intro c hc
  rcases x.digit_or_point c hc with h | rfl
  · exact isDecimalChar_digit h
  · rfl

theorem Decimal.decimalChars (x : Decimal) : ∀ c ∈ x.text, isDecimalChar c = true :=
  List.forall_mem_append.mpr ⟨x.sign.decimalChars, List.forall_mem_append.mpr
    ⟨x.mantissa.decimalChars, exponentText_isDecimalChar x.exponent⟩⟩

theorem Mantissa.text_ne_nil (x : Mantissa) : x.text ≠ [] := by
  unfold Mantissa.text
  rcases x.some_digit with h | h
  · exact List.append_ne_nil_of_left_ne_nil h _
  · refine List.append_ne_nil_of_right_ne_nil _ ?_
    cases hf : x.fraction with
    | none =>
      rw [hf] at h
      exact absurd rfl h
    | some ds => exact List.cons_ne_nil _ _

/-! ### Reading an exponent -/

theorem toLower_eq_e {c : Char} (h : c.toLower = 'e') : c = 'e' ∨ c = 'E' := by
  rcases toLower_cases c with hc | ⟨-, -, hval⟩
  · exact Or.inl (hc ▸ h)
  · refine Or.inr (Char.ext ?_)
    rw [h] at hval
    have hsum : c.val + 32 = 'E'.val + 32 := hval.symm
    exact (UInt32.add_left_inj 32).mp hsum

/-- The sign of a text, if it has one, is taken from its front. -/
def Sign.Leads (x : Sign) (t : Str) : Prop := x = .none → ∀ c ∈ t.head?, c ≠ '-' ∧ c ≠ '+'

/-- A text begins with a sign, or with something else. -/
theorem exists_sign (s : Str) : ∃ (x : Sign) (t : Str), s = x.text ++ t ∧ x.Leads t := by
  cases s with
  | nil => exact ⟨.none, [], rfl, fun _ => nofun⟩
  | cons c cs =>
    by_cases hminus : c = '-'
    · exact ⟨.minus, cs, by rw [hminus]; rfl, nofun⟩
    by_cases hplus : c = '+'
    · exact ⟨.plus, cs, by rw [hplus]; rfl, nofun⟩
    · refine ⟨.none, c :: cs, rfl, fun _ d hd => ?_⟩
      cases hd
      exact ⟨hminus, hplus⟩

/-- A digit or a point stands behind the sign. -/
theorem Sign.leads_of_digitOrPoint (x : Sign) {t : Str} (h : ∀ c ∈ t.head?, c.isDigit = true ∨ c = '.') :
    x.Leads t := by
  intro _ c hc
  obtain ⟨-, hminus, hplus, -⟩ := digitOrPoint (h c hc)
  exact ⟨hminus, hplus⟩

theorem scanExponent_signed {m : Char} (hm : m.toLower = 'e') {x : Sign} {ds : Str} (hx : x.Leads ds) :
    scanExponent 'e' (m :: (x.text ++ ds)) =
      if ds.takeWhile Char.isDigit = [] then (0, m :: (x.text ++ ds))
      else (x.apply (digitsValue 10 (ds.takeWhile Char.isDigit) : ℤ), ds.dropWhile Char.isDigit) := by
  unfold scanExponent
  cases x with
  | minus => simp [hm, Sign.text, Sign.apply]
  | plus => simp [hm, Sign.text, Sign.apply]
  | none =>
    cases ds with
    | nil => simp [hm, Sign.text]
    | cons c cs =>
      obtain ⟨hminus, hplus⟩ := hx rfl c rfl
      simp [hm, hminus, hplus, Sign.text, Sign.apply]

theorem scanExponent_text (x : Option Exponent) :
    scanExponent 'e' (exponentText x) = (exponentValue x, []) := by
  cases x with
  | none => rfl
  | some x =>
    have hwhole : x.digits.takeWhile Char.isDigit = x.digits := List.takeWhile_eq_self_iff.mpr x.isDigit
    have hmarker : x.marker.toLower = 'e' := by
      rcases x.isMarker with h | h <;> rw [h] <;> rfl
    show scanExponent 'e' (x.marker :: (x.sign.text ++ x.digits)) = (x.value, [])
    have hleads : x.sign.Leads x.digits :=
      x.sign.leads_of_digitOrPoint fun c hc => Or.inl (x.isDigit c (List.mem_of_mem_head? hc))
    rw [scanExponent_signed hmarker hleads, hwhole, if_neg x.digits_ne_nil,
      List.dropWhile_eq_nil_iff.mpr x.isDigit]
    rfl

/-- An exponent that ends the text, or none. -/
theorem exists_exponent {s : Str} {e : ℤ} (h : scanExponent 'e' s = (e, [])) :
    ∃ x : Option Exponent, s = exponentText x ∧ e = exponentValue x := by
  cases s with
  | nil =>
    cases h
    exact ⟨none, rfl, rfl⟩
  | cons m cs =>
    by_cases hm : m.toLower = 'e'
    · obtain ⟨x, ds, rfl, hx⟩ := exists_sign cs
      rw [scanExponent_signed hm hx] at h
      split at h
      · cases h
      · next hne =>
        obtain ⟨he, hend⟩ := Prod.mk.inj h
        have hall : ds.takeWhile Char.isDigit = ds :=
          List.takeWhile_eq_self_iff.mpr (List.dropWhile_eq_nil_iff.mp hend)
        rw [hall] at he hne
        refine ⟨some ⟨m, toLower_eq_e hm, x, ds, List.dropWhile_eq_nil_iff.mp hend, hne⟩, rfl, he.symm⟩
    · have hnone : scanExponent 'e' (m :: cs) = (0, m :: cs) := by
        unfold scanExponent
        exact if_neg hm
      rw [hnone] at h
      cases h

/-! ### Reading a decimal -/

/-- The text goes on with what belongs to no mantissa. -/
def Mantissa.Ends (x : Mantissa) (t : Str) : Prop :=
  ∀ c ∈ t.head?, c.isDigit = false ∧ (x.fraction = none → c ≠ '.')

theorem Mantissa.ends_nil (x : Mantissa) : x.Ends [] := nofun

theorem Mantissa.ends_exponent (x : Mantissa) (e : Option Exponent) : x.Ends (exponentText e) := by
  cases e with
  | none => exact x.ends_nil
  | some e =>
    intro c hc
    cases hc
    rcases e.isMarker with h | h <;> rw [h] <;> exact ⟨rfl, fun _ => by decide⟩

theorem scanDigits_text (x : Mantissa) {t : Str} (h : x.Ends t) :
    scanDigits 10 10 Char.isDigit 'e' (x.text ++ t) =
      some (x.value * 10 ^ (scanExponent 'e' t).1, (scanExponent 'e' t).2) := by
  obtain ⟨whole, fraction, hwhole, hfraction, hsome⟩ := x
  cases fraction with
  | none =>
    have hne : whole ≠ [] := hsome.resolve_right fun hn => hn rfl
    obtain ⟨htake, hdrop⟩ := span_digits hwhole fun c hc => (h c hc).1
    show scanDigits 10 10 Char.isDigit 'e' ((whole ++ []) ++ t) = _
    unfold scanDigits
    rw [List.append_nil, htake, hdrop]
    cases t with
    | nil => simp [hne, Mantissa.value]
    | cons c cs => simp [hne, (h c rfl).2 rfl, Mantissa.value]
  | some ds =>
    obtain ⟨htake, hdrop⟩ := span_digits (t := '.' :: (ds ++ t)) hwhole (by rintro c ⟨⟩; rfl)
    obtain ⟨htake', hdrop'⟩ := span_digits (s := ds) (t := t) hfraction fun c hc => (h c hc).1
    show scanDigits 10 10 Char.isDigit 'e' ((whole ++ '.' :: ds) ++ t) = _
    unfold scanDigits
    rw [List.append_assoc, List.cons_append, htake, hdrop]
    have hne : ¬(whole = [] ∧ ds = []) := fun hn => hsome.elim (fun hw => hw hn.1) fun hf => hf hn.2
    simp [htake', hdrop', hne, Mantissa.value]

theorem scanDigits_mantissa (x : Mantissa) :
    scanDigits 10 10 Char.isDigit 'e' x.text = some (x.value, []) := by
  have h := scanDigits_text x x.ends_nil
  rw [List.append_nil] at h
  rw [h]
  exact congrArg some (Prod.ext (mul_one _) rfl)

/-- Digits alone are a whole number. -/
theorem scanDigits_whole {w : Str} (hw : ∀ c ∈ w, c.isDigit = true) (hne : w ≠ []) :
    scanDigits 10 10 Char.isDigit 'e' w = some ((digitsValue 10 w : ℚ), []) := by
  have h := scanDigits_mantissa ⟨w, none, hw, List.forall_mem_nil _, Or.inl hne⟩
  simpa [Mantissa.text, Mantissa.value, fractionText] using h

/-- Digits behind a point are a decimal fraction. -/
theorem scanDigits_point {w ds : Str} (hw : ∀ c ∈ w, c.isDigit = true) (hne : w ≠ [])
    (hds : ∀ c ∈ ds, c.isDigit = true) :
    scanDigits 10 10 Char.isDigit 'e' (w ++ '.' :: ds) =
      some ((digitsValue 10 (w ++ ds) : ℚ) / 10 ^ ds.length, []) :=
  scanDigits_mantissa ⟨w, some ds, hw, hds, Or.inl hne⟩

/-- What is read is a mantissa, and what stands behind it. -/
theorem exists_mantissa {s : Str} {qr : ℚ × Str}
    (h : scanDigits 10 10 Char.isDigit 'e' s = some qr) :
    ∃ (x : Mantissa) (t : Str), s = x.text ++ t ∧ x.Ends t := by
  obtain ⟨w, r, rfl, hw, hr⟩ := exists_run Char.isDigit s
  have hread : scanDigits 10 10 Char.isDigit 'e' (w ++ r) ≠ none := by
    rw [h]
    exact Option.some_ne_none qr
  rw [ne_eq, scanDigits_eq_none_iff, (span_digits hw hr).1] at hread
  by_cases hpoint : ∃ cs, r = '.' :: cs
  · obtain ⟨cs, rfl⟩ := hpoint
    obtain ⟨ds, t, rfl, hds, ht⟩ := exists_run Char.isDigit cs
    have hsome : w ≠ [] ∨ ds ≠ [] := by
      by_contra hnone
      push Not at hnone
      obtain ⟨rfl, rfl⟩ := hnone
      refine hread ⟨rfl, fun cs hcs => ?_⟩
      cases hcs
      rw [(span_digits hds ht).1]
    refine ⟨⟨w, some ds, hw, hds, hsome⟩, t, ?_, fun c hc => ⟨ht c hc, nofun⟩⟩
    show _ = (w ++ '.' :: ds) ++ t
    rw [List.append_assoc, List.cons_append]
  · have hne : w ≠ [] := by
      rintro rfl
      refine hread ⟨rfl, fun cs hcs => absurd ⟨cs, hcs⟩ hpoint⟩
    refine ⟨⟨w, none, hw, List.forall_mem_nil _, Or.inl hne⟩, r, ?_, fun c hc => ⟨hr c hc, ?_⟩⟩
    · show _ = (w ++ []) ++ r
      rw [List.append_nil]
    · rintro - rfl
      cases r with
      | nil => cases hc
      | cons d ds =>
        cases hc
        exact hpoint ⟨ds, rfl⟩

/-- A number that ends the text is a mantissa and an exponent. -/
theorem exists_unsigned {s : Str} {q : ℚ} (h : scanDigits 10 10 Char.isDigit 'e' s = some (q, [])) :
    ∃ (x : Mantissa) (e : Option Exponent), s = x.text ++ exponentText e ∧
      q = x.value * 10 ^ exponentValue e := by
  obtain ⟨x, t, rfl, ht⟩ := exists_mantissa h
  rw [scanDigits_text x ht] at h
  obtain ⟨hq, hrest⟩ := Prod.mk.inj (Option.some.inj h)
  obtain ⟨e, rfl, -⟩ := exists_exponent (Prod.ext rfl hrest)
  rw [scanExponent_text e] at hq
  exact ⟨x, e, rfl, hq.symm⟩

theorem scanDigits_chars {s : Str} {q : ℚ} (h : scanDigits 10 10 Char.isDigit 'e' s = some (q, [])) :
    ∀ c ∈ s, isDecimalChar c = true := by
  obtain ⟨x, e, rfl, -⟩ := exists_unsigned h
  exact List.forall_mem_append.mpr ⟨x.decimalChars, exponentText_isDecimalChar e⟩

/-- A decimal character begins none of the words `strtod` knows, and is no blank. -/
theorem decimalChar_plain {c : Char} (h : isDecimalChar c = true) :
    isSpaceChar c = false ∧ c.toLower ≠ 'i' ∧ c.toLower ≠ 'n' ∧ c.toLower ≠ 'x' := by
  have hcases : (c.isDigit = true ∨ c = '.') ∨ c = '+' ∨ c = '-' ∨ c = 'e' ∨ c = 'E' := by
    unfold isDecimalChar at h
    simpa only [Bool.or_eq_true, decide_eq_true_eq, or_assoc] using h
  rcases hcases with h | rfl | rfl | rfl | rfl
  · obtain ⟨hspace, -, -, hi, hn, hx⟩ := digitOrPoint h
    exact ⟨hspace, hi, hn, hx⟩
  all_goals decide

/-- `strtod` reads decimal characters as a decimal number. -/
theorem scanUnsigned_decimal {s : Str} (hs : ∀ c ∈ s, isDecimalChar c = true) :
    scanUnsigned s = (scanDigits 10 10 Char.isDigit 'e' s).map fun qr => (.fin qr.1, qr.2) := by
  cases s with
  | nil => rfl
  | cons c cs =>
    obtain ⟨-, hi, hn, -⟩ := decimalChar_plain (hs c List.mem_cons_self)
    exact scanUnsigned_plain hi hn fun d hd =>
      (decimalChar_plain (hs d (List.mem_cons_of_mem c (List.mem_of_mem_head? hd)))).2.2.2

/-- The sign of a floating-point value. -/
def Sign.applyDbl : Sign → Dbl → Dbl
  | .minus, d => d.neg
  | _, d => d

theorem Sign.applyDbl_fin (x : Sign) (q : ℚ) : x.applyDbl (.fin q) = .fin (x.apply q) := by
  cases x <;> rfl

/-- Behind the leading sign the number is unsigned. -/
theorem scanDouble_signed {x : Sign} {t : Str} (hx : x.Leads t)
    (ht : x = .none → ∀ c ∈ t.head?, isSpaceChar c = false) :
    scanDouble (x.text ++ t) = (scanUnsigned t).map fun (dr : Dbl × Str) => (x.applyDbl dr.1, dr.2) := by
  unfold scanDouble
  cases x with
  | minus => rfl
  | plus =>
    show scanUnsigned t = (scanUnsigned t).map id
    rw [Option.map_id, id_eq]
  | none =>
    show _ = (scanUnsigned t).map id
    rw [Option.map_id, id_eq]
    cases t with
    | nil => rfl
    | cons c cs =>
      obtain ⟨hminus, hplus⟩ := hx rfl c rfl
      simp [Sign.text, ht rfl c rfl, hminus, hplus]

/-- **The text of a decimal is read to its end, as its value.** -/
theorem Decimal.scanDouble_text (x : Decimal) : scanDouble x.text = some (.fin x.value, []) := by
  obtain ⟨sign, m, e⟩ := x
  have hchars : ∀ c ∈ m.text ++ exponentText e, isDecimalChar c = true :=
    List.forall_mem_append.mpr ⟨m.decimalChars, exponentText_isDecimalChar e⟩
  have hhead : ∀ c ∈ (m.text ++ exponentText e).head?, c.isDigit = true ∨ c = '.' := by
    intro c hc
    rw [List.head?_append_of_ne_nil _ m.text_ne_nil] at hc
    exact m.digit_or_point c (List.mem_of_mem_head? hc)
  have hspace : ∀ c ∈ (m.text ++ exponentText e).head?, isSpaceChar c = false :=
    fun c hc => (digitOrPoint (hhead c hc)).1
  show scanDouble (sign.text ++ (m.text ++ exponentText e)) = _
  rw [scanDouble_signed (sign.leads_of_digitOrPoint hhead) fun _ => hspace, scanUnsigned_decimal hchars,
    scanDigits_text m (m.ends_exponent e), scanExponent_text, Option.map_some, Option.map_some]
  dsimp only
  rw [sign.applyDbl_fin]
  rfl

/-- What follows the number is an end of the text. -/
theorem scanExponent_suffix (s : Str) : (scanExponent 'e' s).2 <:+ s := by
  cases s with
  | nil => exact List.suffix_rfl
  | cons m cs =>
    by_cases hm : m.toLower = 'e'
    · obtain ⟨x, ds, rfl, hx⟩ := exists_sign cs
      rw [scanExponent_signed hm hx]
      split
      · exact List.suffix_rfl
      · exact (List.dropWhile_suffix _).trans
          ((List.suffix_append x.text ds).trans (List.suffix_cons m _))
    · have hnone : scanExponent 'e' (m :: cs) = (0, m :: cs) := by
        unfold scanExponent
        exact if_neg hm
      rw [hnone]

/-- A text of decimal characters that begins with a number, and what follows it. -/
theorem scanDouble_decimalChars {s : Str} {dr : Dbl × Str} (h : scanDouble s = some dr)
    (hs : ∀ c ∈ s, isDecimalChar c = true) : dr.2 <:+ s := by
  obtain ⟨sign, t, rfl, ht⟩ := exists_sign s
  have htext : ∀ c ∈ t, isDecimalChar c = true := fun c hc => hs c (List.mem_append_right _ hc)
  rw [scanDouble_signed ht fun _ c hc => (decimalChar_plain (htext c (List.mem_of_mem_head? hc))).1,
    scanUnsigned_decimal htext] at h
  simp only [Option.map_map, Option.map_eq_some_iff, Function.comp_apply] at h
  obtain ⟨⟨q, r⟩, hscan, rfl⟩ := h
  obtain ⟨m, u, rfl, hu⟩ := exists_mantissa hscan
  rw [scanDigits_text m hu] at hscan
  obtain ⟨-, rfl⟩ := Prod.mk.inj (Option.some.inj hscan)
  exact (scanExponent_suffix u).trans ((List.suffix_append _ _).trans (List.suffix_append _ _))

/-- **A text of decimal characters that is read to its end is that of a decimal.** -/
theorem exists_decimal {s : Str} {d : Dbl} (h : scanDouble s = some (d, []))
    (hs : ∀ c ∈ s, isDecimalChar c = true) : ∃ x : Decimal, s = x.text ∧ d = .fin x.value := by
  obtain ⟨sign, t, rfl, ht⟩ := exists_sign s
  have htext : ∀ c ∈ t, isDecimalChar c = true := fun c hc => hs c (List.mem_append_right _ hc)
  rw [scanDouble_signed ht fun _ c hc => (decimalChar_plain (htext c (List.mem_of_mem_head? hc))).1,
    scanUnsigned_decimal htext] at h
  simp only [Option.map_map, Option.map_eq_some_iff, Function.comp_apply, Prod.mk.injEq] at h
  obtain ⟨⟨q, r⟩, hscan, rfl, rfl⟩ := h
  obtain ⟨m, e, rfl, rfl⟩ := exists_unsigned hscan
  exact ⟨⟨sign, m, e⟩, rfl, sign.applyDbl_fin _⟩

end StarBase.Extract
