import StarBase.Extract.DecimalText

/-!
# Coordinates as text

`parse_coord` takes a decimal number, or a sign and three fields.

* `Front`, `Triple` — the grammar of a sexagesimal coordinate;
* `ParsedByGrammar` — what a text of either grammar, and any other, is read as;
* `parseCoord_iff` — **PROVED**: the texts that are.

The lemmas are about any arithmetic; the grammar's values are exact, so the result is about
`parseCoordIn Dbl.fin`.  Which texts are read does not depend on the arithmetic.
-/

namespace StarBase.Extract

/-! ### The grammar -/

/-- What stands in front of the third field: a sign, blanks, two fields of digits and what separates
them. -/
structure Front where
  sign : Sign
  blanks : Str
  first : Str
  sep : Str
  second : Str
  sep' : Str
  isBlank : ∀ c ∈ blanks, isSpaceChar c = true
  first_isDigit : ∀ c ∈ first, c.isDigit = true
  first_ne_nil : first ≠ []
  isSep : ∀ c ∈ sep, isSexSep c = true
  sep_ne_nil : sep ≠ []
  second_isDigit : ∀ c ∈ second, c.isDigit = true
  second_ne_nil : second ≠ []
  isSep' : ∀ c ∈ sep', isSexSep c = true
  sep'_ne_nil : sep' ≠ []

def Front.text (f : Front) : Str :=
  f.sign.text ++ (f.blanks ++ (f.first ++ (f.sep ++ (f.second ++ f.sep'))))

/-- A sexagesimal coordinate. -/
structure Triple where
  front : Front
  third : Mantissa

def Triple.text (x : Triple) : Str := x.front.text ++ x.third.text

/-- The signed value of the three fields. -/
def Triple.value (x : Triple) : ℚ :=
  x.front.sign.apply ((digitsValue 10 x.front.first : ℚ) + (digitsValue 10 x.front.second : ℚ) / 60 +
    x.third.value / 3600)

/-- The three fields have a double each. -/
def Triple.InRange (x : Triple) : Prop :=
  inRange (digitsValue 10 x.front.first : ℚ) = true ∧ inRange (digitsValue 10 x.front.second : ℚ) = true ∧
    inRange x.third.value = true

/-- Hours for a right ascension, else degrees. -/
def unitDegrees (isRa : Bool) : ℚ := if isRa then 15 else 1

/-- In exact arithmetic a decimal is returned as it is, three fields as degrees, and nothing else is
accepted. -/
structure ParsedByGrammar (value : Str) (isRa : Bool) : Prop where
  decimal : ∀ x : Decimal, trim value = x.text →
    parseCoordIn .fin value isRa = .ok (some (.fin x.value))
  triple : ∀ x : Triple, trim value = x.text →
    parseCoordIn .fin value isRa = .ok (some (.fin (x.value * unitDegrees isRa)))
  other : (∀ x : Decimal, trim value ≠ x.text) → (∀ x : Triple, trim value ≠ x.text) →
    parseCoordIn .fin value isRa = .ok none

/-- The characters the last field is made of. -/
def isFieldChar (c : Char) : Bool := c.isDigit || c = '.'

/-- A text that is a number to `to_double` is written with the characters of a decimal, the numbers
of a decimal and of three fields have a double, and three fields end the text, the last of them with
at most one point. -/
structure Regular (s : Str) : Prop where
  clean : (toDouble s).isSome → ∀ c ∈ s, isDecimalChar c = true
  decimal_inRange : ∀ x : Decimal, s = x.text → inRange x.value = true
  ends : ∀ (f : Front) (last tail : Str), s = f.text ++ (last ++ tail) → last ≠ [] →
    (∀ c ∈ last, isFieldChar c = true) → (∀ c ∈ tail.head?, isFieldChar c = false) →
    tail = [] ∧ last.count '.' ≤ 1 ∧ ∃ c ∈ last, c.isDigit = true
  triple_inRange : ∀ x : Triple, s = x.text → x.InRange

/-! ### The front -/

theorem isSexSep_not_digit {c : Char} (h : isSexSep c = true) : c.isDigit = false := by
  by_contra hd
  have hd' : c.isDigit = true := by simpa using hd
  obtain ⟨hspace, -⟩ := digitOrPoint (Or.inl hd')
  unfold isSexSep at h
  rw [hspace, Bool.false_or, decide_eq_true_eq] at h
  rw [h] at hd'
  cases hd'

theorem isFieldChar_iff {c : Char} : isFieldChar c = true ↔ c.isDigit = true ∨ c = '.' := by
  unfold isFieldChar
  rw [Bool.or_eq_true, decide_eq_true_eq]

theorem isFieldChar_not_sep {c : Char} (h : isFieldChar c = true) : isSexSep c = false := by
  have hchar := isFieldChar_iff.mp h
  have hne : c ≠ ':' := by
    rintro rfl
    revert hchar
    decide
  unfold isSexSep
  rw [(digitOrPoint hchar).1, decide_eq_false hne]
  rfl

/-- The first two fields behind the sign, what follows each, and the rest. -/
def fieldRuns (t : Str) : Str × Str × Str × Str × Str :=
  let body := t.dropWhile isSpaceChar
  let afterA := body.dropWhile Char.isDigit
  let bBody := afterA.dropWhile isSexSep
  let afterB := bBody.dropWhile Char.isDigit
  (body.takeWhile Char.isDigit, afterA.takeWhile isSexSep, bBody.takeWhile Char.isDigit,
    afterB.takeWhile isSexSep, afterB.dropWhile isSexSep)

/-- The fields behind the sign. -/
def fieldsOf (neg : Bool) (t : Str) : Option (Bool × Str × Str × Str) :=
  let r := fieldRuns t
  let c := r.2.2.2.2.takeWhile isFieldChar
  if r.1 = [] ∨ r.2.1 = [] ∨ r.2.2.1 = [] ∨ r.2.2.2.1 = [] ∨ c = [] then none
  else some (neg, r.1, r.2.2.1, c)

/-- A leading minus sign, and what stands behind the sign. -/
def splitSign : Str → Bool × Str
  | '-' :: cs => (true, cs)
  | '+' :: cs => (false, cs)
  | cs => (false, cs)

theorem splitSign_text {x : Sign} {t : Str} (hx : x.Leads t) :
    splitSign (x.text ++ t) = (decide (x = .minus), t) := by
  cases x with
  | minus => rfl
  | plus => rfl
  | none =>
    cases t with
    | nil => rfl
    | cons c cs =>
      obtain ⟨hminus, hplus⟩ := hx rfl c rfl
      simp [splitSign, Sign.text, hminus, hplus]

theorem sexagesimal_signed {x : Sign} {t : Str} (hx : x.Leads t) :
    sexagesimal (x.text ++ t) = fieldsOf (decide (x = .minus)) t := by
  show fieldsOf (splitSign (x.text ++ t)).1 (splitSign (x.text ++ t)).2 = _
  rw [splitSign_text hx]

/-- What stands behind the sign of a front. -/
def Front.body (f : Front) : Str := f.blanks ++ (f.first ++ (f.sep ++ (f.second ++ f.sep')))

theorem head_of_forall {p : Char → Bool} {s t : Str} (h : ∀ c ∈ s, p c = true) (hne : s ≠ []) :
    ∀ c ∈ (s ++ t).head?, p c = true := by
  intro c hc
  rw [List.head?_append_of_ne_nil _ hne] at hc
  exact h c (List.mem_of_mem_head? hc)

theorem Front.leads (f : Front) (t : Str) : f.sign.Leads (f.body ++ t) := by
  intro _ c hc
  have hhead : isSpaceChar c = true ∨ c.isDigit = true := by
    unfold Front.body at hc
    by_cases hb : f.blanks = []
    · rw [hb, List.nil_append, List.append_assoc] at hc
      exact Or.inr (head_of_forall f.first_isDigit f.first_ne_nil c hc)
    · rw [List.append_assoc] at hc
      exact Or.inl (head_of_forall f.isBlank hb c hc)
  constructor
  · rintro rfl
    revert hhead
    decide
  · rintro rfl
    revert hhead
    decide

theorem digit_not_sep {c : Char} (h : c.isDigit = true) : isSexSep c = false :=
  isFieldChar_not_sep (isFieldChar_iff.mpr (Or.inl h))

theorem Front.text_append (f : Front) (t : Str) : f.text ++ t = f.sign.text ++ (f.body ++ t) :=
  List.append_assoc _ _ _

theorem fieldRuns_body (f : Front) {t : Str} (ht : ∀ c ∈ t.head?, isFieldChar c = true) :
    fieldRuns (f.body ++ t) = (f.first, f.sep, f.second, f.sep', t) := by
  have hblanks : (f.body ++ t).dropWhile isSpaceChar = f.first ++ (f.sep ++ (f.second ++ (f.sep' ++ t))) := by
    unfold Front.body
    simp only [List.append_assoc]
    exact dropWhile_append_stop f.isBlank fun c hc =>
      (digitOrPoint (Or.inl (head_of_forall f.first_isDigit f.first_ne_nil c hc))).1
  have hsep : ∀ c ∈ (f.sep ++ (f.second ++ (f.sep' ++ t))).head?, c.isDigit = false :=
    fun c hc => isSexSep_not_digit (head_of_forall f.isSep f.sep_ne_nil c hc)
  have hsecond : ∀ c ∈ (f.second ++ (f.sep' ++ t)).head?, isSexSep c = false :=
    fun c hc => digit_not_sep (head_of_forall f.second_isDigit f.second_ne_nil c hc)
  have hsep' : ∀ c ∈ (f.sep' ++ t).head?, c.isDigit = false :=
    fun c hc => isSexSep_not_digit (head_of_forall f.isSep' f.sep'_ne_nil c hc)
  have hlast : ∀ c ∈ t.head?, isSexSep c = false := fun c hc => isFieldChar_not_sep (ht c hc)
  unfold fieldRuns
  dsimp only
  rw [hblanks, takeWhile_append_stop f.first_isDigit hsep, dropWhile_append_stop f.first_isDigit hsep,
    takeWhile_append_stop f.isSep hsecond, dropWhile_append_stop f.isSep hsecond,
    takeWhile_append_stop f.second_isDigit hsep', dropWhile_append_stop f.second_isDigit hsep',
    takeWhile_append_stop f.isSep' hlast, dropWhile_append_stop f.isSep' hlast]

/-- The last field begins where the front ends. -/
theorem behind_front_inj {f g : Front} {t u : Str} (ht : ∀ c ∈ t.head?, isFieldChar c = true)
    (hu : ∀ c ∈ u.head?, isFieldChar c = true) (h : f.text ++ t = g.text ++ u) : t = u := by
  have hsplit := congrArg splitSign h
  rw [f.text_append, g.text_append, splitSign_text (f.leads t), splitSign_text (g.leads u)] at hsplit
  have hruns := congrArg fieldRuns (Prod.mk.inj hsplit).2
  rw [fieldRuns_body f ht, fieldRuns_body g hu] at hruns
  simp only [Prod.mk.injEq] at hruns
  exact hruns.2.2.2.2

/-- The fields of a front are found, and the last one begins behind it. -/
theorem sexagesimal_front (f : Front) {t : Str} (hne : t ≠ []) (ht : ∀ c ∈ t.head?, isFieldChar c = true) :
    sexagesimal (f.text ++ t) =
      some (decide (f.sign = .minus), f.first, f.second, t.takeWhile isFieldChar) := by
  have hfield : t.takeWhile isFieldChar ≠ [] := by
    obtain ⟨c, cs, rfl⟩ := List.exists_cons_of_ne_nil hne
    rw [List.takeWhile_cons_of_pos (ht c rfl)]
    exact List.cons_ne_nil _ _
  rw [f.text_append, sexagesimal_signed (f.leads t)]
  unfold fieldsOf
  rw [fieldRuns_body f ht]
  exact if_neg (by simp [f.first_ne_nil, f.sep_ne_nil, f.second_ne_nil, f.sep'_ne_nil, hfield])

/-- What is found to have three fields has a front, the last field, and what follows it. -/
theorem exists_front {s a b c : Str} {neg : Bool} (h : sexagesimal s = some (neg, a, b, c)) :
    ∃ (f : Front) (tail : Str), s = f.text ++ (c ++ tail) ∧ c ≠ [] ∧ (∀ x ∈ c, isFieldChar x = true) ∧
      ∀ x ∈ tail.head?, isFieldChar x = false := by
  obtain ⟨sign, t, rfl, ht⟩ := exists_sign s
  rw [sexagesimal_signed ht] at h
  unfold fieldsOf fieldRuns at h
  obtain ⟨blanks, r, rfl, hblanks, hr⟩ := exists_run isSpaceChar t
  obtain ⟨first, r, rfl, hfirst, hr₁⟩ := exists_run Char.isDigit r
  obtain ⟨sep, r, rfl, hsep, hr₂⟩ := exists_run isSexSep r
  obtain ⟨second, r, rfl, hsecond, hr₃⟩ := exists_run Char.isDigit r
  obtain ⟨sep', r, rfl, hsep', hr₄⟩ := exists_run isSexSep r
  obtain ⟨last, tail, rfl, hlast, hr₅⟩ := exists_run isFieldChar r
  dsimp only at h
  rw [dropWhile_append_stop hblanks hr, takeWhile_append_stop hfirst hr₁, dropWhile_append_stop hfirst hr₁,
    takeWhile_append_stop hsep hr₂, dropWhile_append_stop hsep hr₂, takeWhile_append_stop hsecond hr₃,
    dropWhile_append_stop hsecond hr₃, takeWhile_append_stop hsep' hr₄, dropWhile_append_stop hsep' hr₄,
    takeWhile_append_stop hlast hr₅] at h
  obtain ⟨hne, h⟩ := Option.ite_none_left_eq_some.mp h
  push Not at hne
  obtain ⟨hne₁, hne₂, hne₃, hne₄, hne₅⟩ := hne
  simp only [Option.some.injEq, Prod.mk.injEq] at h
  obtain ⟨-, rfl, rfl, rfl⟩ := h
  refine ⟨⟨sign, blanks, first, sep, second, sep', hblanks, hfirst, hne₁, hsep, hne₂, hsecond, hne₃, hsep',
    hne₄⟩, tail, ?_, hne₅, hlast, hr₅⟩
  simp only [Front.text, List.append_assoc]

/-! ### Numbers and fields -/

/-- A separator belongs to no number. -/
theorem sep_plain {c : Char} (h : isSexSep c = true) : c.toLower ≠ 'i' ∧ c.toLower ≠ 'n' ∧
    c.toLower ≠ 'x' ∧ c.toLower ≠ 'e' ∧ c ≠ '.' ∧ c ≠ '-' ∧ c ≠ '+' := by
  simp only [isSexSep, isSpaceChar, Bool.or_eq_true, decide_eq_true_eq] at h
  rcases h with (((((rfl | rfl) | rfl) | rfl) | rfl) | rfl) | rfl <;> decide

/-- A number ends in front of a separator. -/
theorem scanUnsigned_sep {w r : Str} (hw : ∀ c ∈ w, c.isDigit = true) (hne : w ≠ []) (hr : r ≠ [])
    (hsep : ∀ c ∈ r.head?, isSexSep c = true) : ∃ q, scanUnsigned (w ++ r) = some (.fin q, r) := by
  obtain ⟨c, cs, rfl⟩ := List.exists_cons_of_ne_nil hne
  obtain ⟨d, ds, rfl⟩ := List.exists_cons_of_ne_nil hr
  obtain ⟨-, -, hx, he, hpoint, -⟩ := sep_plain (hsep d rfl)
  obtain ⟨-, -, -, hi, hn, -⟩ := digitOrPoint (Or.inl (hw c List.mem_cons_self))
  have hsecond : ∀ e ∈ (cs ++ d :: ds).head?, e.toLower ≠ 'x' := by
    intro e hmem
    cases cs with
    | nil =>
      cases hmem
      exact hx
    | cons f fs =>
      cases hmem
      exact (digitOrPoint (Or.inl (hw e (by simp)))).2.2.2.2.2
  have hscan := scanDigits_text (t := d :: ds) ⟨c :: cs, none, hw, List.forall_mem_nil _, Or.inl hne⟩ (by
    rintro e ⟨⟩
    exact ⟨isSexSep_not_digit (hsep d rfl), fun _ => hpoint⟩)
  have hexp : scanExponent 'e' (d :: ds) = (0, d :: ds) := by
    unfold scanExponent
    exact if_neg he
  rw [hexp] at hscan
  have htext : (⟨c :: cs, none, hw, List.forall_mem_nil _, Or.inl hne⟩ : Mantissa).text = c :: cs :=
    List.append_nil _
  rw [htext] at hscan
  rw [List.cons_append] at hscan ⊢
  rw [scanUnsigned_plain hi hn hsecond, hscan]
  exact ⟨_, rfl⟩

/-- Nothing is read from blanks behind a sign. -/
theorem scanUnsigned_blank {c : Char} {cs : Str} (hc : isSpaceChar c = true)
    (hcs : ∀ d ∈ cs.head?, d.toLower ≠ 'x') : scanUnsigned (c :: cs) = none := by
  have hsep : isSexSep c = true := by
    unfold isSexSep
    rw [hc, Bool.true_or]
  obtain ⟨hi, hn, -, -, hpoint, -⟩ := sep_plain hsep
  have hdigit : ¬c.isDigit = true := by simp [isSexSep_not_digit hsep]
  rw [scanUnsigned_plain hi hn hcs, Option.map_eq_none_iff, scanDigits_eq_none_iff]
  exact ⟨List.takeWhile_cons_of_neg hdigit, fun ds hds => absurd (List.cons.inj hds).1 hpoint⟩

/-- Leading blanks are skipped. -/
theorem scanDouble_blanks {b : Str} (hb : ∀ c ∈ b, isSpaceChar c = true) (t : Str) :
    scanDouble (b ++ t) = scanDouble t := by
  unfold scanDouble
  rw [List.dropWhile_append_of_pos hb]

/-- `strtod` reads nothing from a text of three fields, or its first field. -/
theorem scanDouble_front (f : Front) (t : Str) : scanDouble (f.text ++ t) = none ∨
    ∃ d, scanDouble (f.text ++ t) = some (d, f.sep ++ (f.second ++ (f.sep' ++ t))) := by
  have hbody : f.body ++ t = f.blanks ++ (f.first ++ (f.sep ++ (f.second ++ (f.sep' ++ t)))) := by
    unfold Front.body
    simp only [List.append_assoc]
  have hsep : ∀ c ∈ (f.sep ++ (f.second ++ (f.sep' ++ t))).head?, isSexSep c = true :=
    head_of_forall f.isSep f.sep_ne_nil
  have hfirst : ∀ c ∈ (f.first ++ (f.sep ++ (f.second ++ (f.sep' ++ t)))).head?, c.isDigit = true :=
    head_of_forall f.first_isDigit f.first_ne_nil
  obtain ⟨q, hq⟩ := scanUnsigned_sep f.first_isDigit f.first_ne_nil
    (List.append_ne_nil_of_left_ne_nil f.sep_ne_nil _) hsep
  rw [f.text_append]
  by_cases hs : f.sign = .none
  · have hnumber := scanDouble_signed
      (Sign.none.leads_of_digitOrPoint fun c hc => Or.inl (hfirst c hc))
      fun _ c hc => (digitOrPoint (Or.inl (hfirst c hc))).1
    refine Or.inr ⟨.fin q, ?_⟩
    rw [hs, hbody]
    show scanDouble (f.blanks ++ _) = _
    rw [scanDouble_blanks f.isBlank]
    exact hnumber.trans (by rw [hq]; rfl)
  · rw [scanDouble_signed (f.leads t) fun h => absurd h hs, hbody]
    cases hb : f.blanks with
    | nil =>
      rw [List.nil_append, hq]
      exact Or.inr ⟨_, rfl⟩
    | cons c cs =>
      have hblank : ∀ d ∈ c :: cs, isSpaceChar d = true := hb ▸ f.isBlank
      refine Or.inl ?_
      rw [List.cons_append, scanUnsigned_blank (hblank c List.mem_cons_self), Option.map_none]
      intro d hd
      cases cs with
      | nil =>
        exact (digitOrPoint (Or.inl (hfirst d hd))).2.2.2.2.2
      | cons e es =>
        cases hd
        have hsep : isSexSep d = true := by
          unfold isSexSep
          rw [hblank d (by simp), Bool.true_or]
        exact (sep_plain hsep).2.2.1

section Arithmetic

variable (arith : ℚ → Dbl)

theorem toDouble_front (f : Front) (t : Str) : toDoubleIn arith (f.text ++ t) = none := by
  obtain ⟨d, ds, hsecond⟩ := List.exists_cons_of_ne_nil f.second_ne_nil
  have hrest : (f.sep ++ (f.second ++ (f.sep' ++ t))).all isSpaceChar = false := by
    refine List.all_eq_false.mpr ⟨d, by simp [hsecond], ?_⟩
    have hd : d.isDigit = true := f.second_isDigit d (hsecond ▸ List.mem_cons_self)
    simp [(digitOrPoint (Or.inl hd)).1]
  unfold toDoubleIn stodIn
  rcases scanDouble_front f t with h | ⟨d', h⟩
  · rw [h]
  · rw [h]
    cases d' with
    | fin q =>
      dsimp only
      split
      · next d'' rest hread =>
        split at hread
        · cases hread
          rw [hrest]
          rfl
        · cases hread
      · rfl
    | inf b =>
      dsimp only
      rw [hrest]
      rfl
    | nan =>
      dsimp only
      rw [hrest]
      rfl

/-- A decimal has no separator. -/
theorem sexagesimal_decimal (x : Decimal) : sexagesimal x.text = none := by
  cases h : sexagesimal x.text with
  | none => rfl
  | some r =>
    obtain ⟨neg, a, b, c⟩ := r
    obtain ⟨f, tail, htext, -⟩ := exists_front h
    obtain ⟨d, ds, hsep⟩ := List.exists_cons_of_ne_nil f.sep_ne_nil
    have hd : d ∈ x.text := by
      rw [htext]
      unfold Front.text
      simp [hsep]
    have hsepd : isSexSep d = true := f.isSep d (hsep ▸ List.mem_cons_self)
    have hchar := x.decimalChars d hd
    unfold isSexSep at hsepd
    rw [(decimalChar_plain hchar).1, Bool.false_or, decide_eq_true_eq] at hsepd
    rw [hsepd] at hchar
    exact absurd hchar (by decide)

theorem stod_mantissa (x : Mantissa) : stodIn arith x.text =
    if inRange x.value = true then .ok (arith x.value, []) else .error (.std "stod".toList) := by
  rw [stodIn_of_digits arith x.digit_or_point, scanDigits_mantissa]

theorem toDouble_decimal (x : Decimal) :
    toDoubleIn arith x.text = if inRange x.value = true then some (arith x.value) else none := by
  unfold toDoubleIn stodIn
  rw [x.scanDouble_text]
  dsimp only
  by_cases h : inRange x.value = true
  · rw [if_pos h, if_pos h]
    rfl
  · rw [if_neg h, if_neg h]

end Arithmetic

/-- A field of digits and points is a mantissa when a digit is among them and one point at most. -/
theorem exists_mantissa_of_field {s : Str} (hs : ∀ c ∈ s, isFieldChar c = true) (hp : s.count '.' ≤ 1)
    (hd : ∃ c ∈ s, c.isDigit = true) : ∃ x : Mantissa, s = x.text := by
  obtain ⟨w, r, rfl, hw, hr⟩ := exists_run Char.isDigit s
  obtain ⟨d, hd, hdigit⟩ := hd
  cases r with
  | nil =>
    rw [List.append_nil] at hd
    refine ⟨⟨w, none, hw, List.forall_mem_nil _, Or.inl (List.ne_nil_of_mem hd)⟩, rfl⟩
  | cons c cs =>
    have hpoint : c = '.' := by
      have hc := isFieldChar_iff.mp (hs c (by simp))
      rw [hr c rfl] at hc
      exact hc.resolve_left Bool.false_ne_true
    subst hpoint
    have hcs : ∀ x ∈ cs, x.isDigit = true := by
      intro x hx
      refine (isFieldChar_iff.mp (hs x (by simp [hx]))).resolve_right ?_
      rintro rfl
      have hcount := List.count_pos_iff.mpr hx
      rw [List.count_append, List.count_cons_self] at hp
      omega
    refine ⟨⟨w, some cs, hw, hcs, ?_⟩, rfl⟩
    rcases List.mem_append.mp hd with hd | hd
    · exact Or.inl (List.ne_nil_of_mem hd)
    · rcases List.mem_cons.mp hd with rfl | hd
      · cases hdigit
      · exact Or.inr (List.ne_nil_of_mem hd)

theorem Mantissa.count_point (x : Mantissa) : x.text.count '.' ≤ 1 := by
  have hzero : ∀ ds : Str, (∀ c ∈ ds, c.isDigit = true) → ds.count '.' = 0 := by
    intro ds hds
    refine List.count_eq_zero.mpr fun h => ?_
    cases hds '.' h
  have hfraction := x.fraction_isDigit
  unfold Mantissa.text
  rw [List.count_append, hzero _ x.whole_isDigit]
  cases hf : x.fraction with
  | none => exact Nat.zero_le 1
  | some ds =>
    rw [hf] at hfraction
    show 0 + ('.' :: ds).count '.' ≤ 1
    rw [List.count_cons_self, hzero ds hfraction]

theorem Mantissa.exists_digit (x : Mantissa) : ∃ c ∈ x.text, c.isDigit = true := by
  have hfraction := x.fraction_isDigit
  unfold Mantissa.text
  rcases x.some_digit with h | h
  · obtain ⟨c, cs, hc⟩ := List.exists_cons_of_ne_nil h
    exact ⟨c, by simp [hc], x.whole_isDigit c (hc ▸ List.mem_cons_self)⟩
  · cases hf : x.fraction with
    | none =>
      rw [hf] at h
      exact absurd rfl h
    | some ds =>
      rw [hf] at h hfraction
      obtain ⟨c, cs, hc⟩ := List.exists_cons_of_ne_nil h
      exact ⟨c, by simp [fractionText, show ds = c :: cs from hc], hfraction c (hc ▸ List.mem_cons_self)⟩

/-- What `to_double` reads is what `strtod` reads, with blanks behind it. -/
theorem exists_scan_of_toDouble {arith : ℚ → Dbl} {s : Str} {d : Dbl} (h : toDoubleIn arith s = some d) :
    ∃ d' rest, scanDouble s = some (d', rest) ∧ rest.all isSpaceChar = true := by
  unfold toDoubleIn at h
  split at h
  · next hread =>
    obtain ⟨d', hscan, -⟩ := exists_scan_of_stodIn hread
    exact ⟨d', _, hscan, (Option.ite_none_right_eq_some.mp h).1⟩
  · cases h

/-- What `to_double` accepts with the characters of a decimal is a decimal. -/
theorem exists_decimal_of_toDouble {arith : ℚ → Dbl} {s : Str} {d : Dbl} (h : toDoubleIn arith s = some d)
    (hs : ∀ c ∈ s, isDecimalChar c = true) : ∃ x : Decimal, s = x.text := by
  obtain ⟨d', rest, hscan, hall⟩ := exists_scan_of_toDouble h
  have hempty : rest = [] := by
    refine List.eq_nil_iff_forall_not_mem.mpr fun c hc => ?_
    have hchar := hs c ((scanDouble_decimalChars hscan hs).subset hc)
    have hspace := List.all_eq_true.mp hall c hc
    rw [(decimalChar_plain hchar).1] at hspace
    cases hspace
  subst hempty
  obtain ⟨x, htext, -⟩ := exists_decimal hscan hs
  exact ⟨x, htext⟩

/-! ### The parser -/

section Parser

variable {arith : ℚ → Dbl} {value : Str} (isRa : Bool)

theorem parseCoord_number {d : Dbl} (h : toDoubleIn arith (trim value) = some d) :
    parseCoordIn arith value isRa = .ok (some d) := by
  have hne : trim value ≠ [] := by
    intro he
    rw [he] at h
    cases h
  unfold parseCoordIn
  dsimp only
  rw [if_neg hne, h]

theorem parseCoord_none (h : toDoubleIn arith (trim value) = none)
    (hs : sexagesimal (trim value) = none) : parseCoordIn arith value isRa = .ok none := by
  unfold parseCoordIn
  dsimp only
  rw [h, hs]
  exact ite_self _

theorem parseCoord_fields {neg : Bool} {a b c : Str} (h : toDoubleIn arith (trim value) = none)
    (hs : sexagesimal (trim value) = some (neg, a, b, c)) : parseCoordIn arith value isRa = (do
      let da ← stodIn arith a
      let db ← stodIn arith b
      let dc ← stodIn arith c
      .ok (some (sexValue arith neg isRa da.1 db.1 dc.1))) := by
  have hne : trim value ≠ [] := by
    intro he
    rw [he] at hs
    cases hs
  unfold parseCoordIn
  dsimp only
  rw [if_neg hne, h, hs]

theorem stod_digits (arith : ℚ → Dbl) {w : Str} (hw : ∀ c ∈ w, c.isDigit = true) (hne : w ≠ []) :
    stodIn arith w = if inRange (digitsValue 10 w : ℚ) = true then .ok (arith (digitsValue 10 w : ℚ), [])
      else .error (.std "stod".toList) := by
  rw [stodIn_of_digits arith fun c hc => Or.inl (hw c hc), scanDigits_whole hw hne]

theorem Mantissa.head_field (x : Mantissa) : ∀ c ∈ x.text.head?, isFieldChar c = true :=
  fun c hc => isFieldChar_iff.mpr (x.digit_or_point c (List.mem_of_mem_head? hc))

theorem Triple.sexagesimal_text (x : Triple) : sexagesimal x.text =
    some (decide (x.front.sign = .minus), x.front.first, x.front.second, x.third.text) := by
  have hall : x.third.text.takeWhile isFieldChar = x.third.text :=
    List.takeWhile_eq_self_iff.mpr fun c hc => isFieldChar_iff.mpr (x.third.digit_or_point c hc)
  have h := sexagesimal_front x.front x.third.text_ne_nil x.third.head_field
  rw [hall] at h
  exact h

theorem Triple.sexValue_eq (x : Triple) (isRa : Bool) :
    sexValue .fin (decide (x.front.sign = .minus)) isRa (.fin (digitsValue 10 x.front.first : ℚ))
      (.fin (digitsValue 10 x.front.second : ℚ)) (.fin x.third.value) =
      .fin (x.value * unitDegrees isRa) := by
  unfold sexValue Triple.value unitDegrees
  cases x.front.sign <;> cases isRa <;> simp [Sign.apply, Dbl.add, Dbl.scale] <;> ring

/-- Three fields are put together when each has a double, and else the read throws. -/
theorem parseCoord_triple {x : Triple} (h : trim value = x.text) :
    (x.InRange → parseCoordIn arith value isRa =
        .ok (some (sexValue arith (decide (x.front.sign = .minus)) isRa
          (arith (digitsValue 10 x.front.first : ℚ)) (arith (digitsValue 10 x.front.second : ℚ))
          (arith x.third.value)))) ∧
      (¬x.InRange → parseCoordIn arith value isRa = .error (.std "stod".toList)) := by
  have hnumber : toDoubleIn arith (trim value) = none := by
    rw [h]
    exact toDouble_front arith x.front x.third.text
  have hparse := parseCoord_fields isRa hnumber (h ▸ x.sexagesimal_text)
  rw [stod_digits arith x.front.first_isDigit x.front.first_ne_nil,
    stod_digits arith x.front.second_isDigit x.front.second_ne_nil, stod_mantissa] at hparse
  rw [hparse]
  unfold Triple.InRange
  constructor
  · rintro ⟨h₁, h₂, h₃⟩
    rw [if_pos h₁, if_pos h₂, if_pos h₃]
    rfl
  · intro hout
    by_cases h₁ : inRange (digitsValue 10 x.front.first : ℚ) = true
    · by_cases h₂ : inRange (digitsValue 10 x.front.second : ℚ) = true
      · rw [if_pos h₁, if_pos h₂, if_neg fun h₃ => hout ⟨h₁, h₂, h₃⟩]
        rfl
      · rw [if_pos h₁, if_neg h₂]
        rfl
    · rw [if_neg h₁]
      rfl

end Parser

section Cases

variable {value : Str} {isRa : Bool}

/-- A text that `to_double` accepts. -/
theorem parsed_number {d : Dbl} (h : toDoubleIn .fin (trim value) = some d) :
    ParsedByGrammar value isRa ↔ Regular (trim value) := by
  have hparse := parseCoord_number isRa h
  have hfront : ∀ (f : Front) (t : Str), trim value ≠ f.text ++ t := by
    intro f t he
    rw [he, toDouble_front .fin] at h
    cases h
  constructor
  · intro hp
    obtain ⟨x, hx⟩ : ∃ x : Decimal, trim value = x.text := by
      by_contra hnone
      push Not at hnone
      have hother := hp.other hnone fun x => hfront x.front x.third.text
      rw [hparse] at hother
      cases hother
    refine ⟨fun _ => hx ▸ x.decimalChars, fun y hy => ?_, fun f last tail he => absurd he (hfront f _),
      fun y hy => absurd hy (hfront y.front y.third.text)⟩
    rw [hy, toDouble_decimal] at h
    exact (Option.ite_none_right_eq_some.mp h).1
  · intro hr
    obtain ⟨x, hx⟩ := exists_decimal_of_toDouble h (hr.clean (by rw [toDouble_isSome .fin, h]; rfl))
    refine ⟨fun y hy => ?_, fun y hy => absurd hy (hfront y.front y.third.text),
      fun hnone => absurd hx (hnone x)⟩
    rw [hy, toDouble_decimal] at h
    rw [hparse, ← (Option.ite_none_right_eq_some.mp h).2]

/-- A text that is neither a number nor has three fields. -/
theorem parsed_other (h : toDoubleIn .fin (trim value) = none) (hs : sexagesimal (trim value) = none) :
    ParsedByGrammar value isRa ↔ Regular (trim value) := by
  have hparse := parseCoord_none isRa h hs
  have htriple : ∀ x : Triple, trim value ≠ x.text := by
    intro x he
    rw [he, x.sexagesimal_text] at hs
    cases hs
  constructor
  · intro hp
    refine ⟨fun hsome => absurd hsome (by rw [toDouble_isSome .fin, h]; exact Bool.false_ne_true), fun x hx => ?_,
      fun f last tail he hne hlast _ => ?_, fun x hx => absurd hx (htriple x)⟩
    · have hdecimal := hp.decimal x hx
      rw [hparse] at hdecimal
      cases hdecimal
    · rw [he, sexagesimal_front f (List.append_ne_nil_of_left_ne_nil hne _) (head_of_forall hlast hne)] at hs
      cases hs
  · intro hr
    refine ⟨fun x hx => ?_, fun x hx => absurd hx (htriple x), fun _ _ => hparse⟩
    have hread := toDouble_decimal .fin x
    rw [← hx, h, if_pos (hr.decimal_inRange x hx)] at hread
    cases hread

/-- A text with three fields. -/
theorem parsed_fields {neg : Bool} {a b c : Str} (hs : sexagesimal (trim value) = some (neg, a, b, c)) :
    ParsedByGrammar value isRa ↔ Regular (trim value) := by
  obtain ⟨f, tail, htext, hne, hlast, htail⟩ := exists_front hs
  have h : toDoubleIn .fin (trim value) = none := by
    rw [htext]
    exact toDouble_front .fin f _
  have hdecimal : ∀ x : Decimal, trim value ≠ x.text := by
    intro x he
    rw [he, sexagesimal_decimal] at hs
    cases hs
  have hok : parseCoordIn .fin value isRa ≠ .ok none := by
    rw [parseCoord_fields isRa h hs]
    cases stodIn .fin a with
    | error e => exact nofun
    | ok da => cases stodIn .fin b with
      | error e => exact nofun
      | ok db => cases stodIn .fin c with
        | error e => exact nofun
        | ok dc => exact nofun
  constructor
  · intro hp
    obtain ⟨x, hx⟩ : ∃ x : Triple, trim value = x.text := by
      by_contra hnone
      push Not at hnone
      exact hok (hp.other hdecimal hnone)
    refine ⟨fun hsome => absurd hsome (by rw [toDouble_isSome .fin, h]; exact Bool.false_ne_true),
      fun y hy => absurd hy (hdecimal y), fun g last tail he hne hlast htail => ?_, fun y hy => ?_⟩
    · have hfield : last ++ tail = x.third.text :=
        behind_front_inj (head_of_forall hlast hne) x.third.head_field (he.symm.trans hx)
      have hnil : tail = [] := by
        cases tail with
        | nil => rfl
        | cons d ds =>
          have hd : d ∈ x.third.text := by
            rw [← hfield]
            simp
          have hfalse := htail d rfl
          rw [isFieldChar_iff.mpr (x.third.digit_or_point d hd)] at hfalse
          cases hfalse
      rw [hnil, List.append_nil] at hfield
      rw [hfield]
      exact ⟨hnil, x.third.count_point, x.third.exists_digit⟩
    · by_contra hout
      have hread := hp.triple y hy
      rw [(parseCoord_triple isRa hy).2 hout] at hread
      cases hread
  · intro hr
    obtain ⟨rfl, hp, hd⟩ := hr.ends f c tail htext hne hlast htail
    obtain ⟨m, rfl⟩ := exists_mantissa_of_field hlast hp hd
    rw [List.append_nil] at htext
    exact ⟨fun x hx => absurd hx (hdecimal x),
      fun x hx => ((parseCoord_triple isRa hx).1 (hr.triple_inRange x hx)).trans
        (congrArg (fun d => Except.ok (some d)) (x.sexValue_eq isRa)),
      fun _ hnone => absurd htext (hnone ⟨f, m⟩)⟩

end Cases

/-- **A coordinate is parsed by its grammar exactly when its text is regular.** -/
theorem parseCoord_iff (value : Str) (isRa : Bool) :
    ParsedByGrammar value isRa ↔ Regular (trim value) := by
  cases h : toDoubleIn .fin (trim value) with
  | some d => exact parsed_number h
  | none =>
    cases hs : sexagesimal (trim value) with
    | none => exact parsed_other h hs
    | some r =>
      obtain ⟨neg, a, b, c⟩ := r
      exact parsed_fields hs

/-- A third field with two points is cut at the second one. -/
theorem parseCoord_second_point : ¬ParsedByGrammar "12:34:1.2.3".toList true := by
  intro hp
  have hfields : sexagesimal (trim "12:34:1.2.3".toList) =
      some (false, "12".toList, "34".toList, "1.2.3".toList) := by decide
  have hother := hp.other
    (fun x hx => by
      rw [hx, sexagesimal_decimal] at hfields
      cases hfields)
    (fun x hx => by
      rw [hx, x.sexagesimal_text] at hfields
      have hlast : x.third.text = "1.2.3".toList :=
        (Prod.mk.inj (Prod.mk.inj (Prod.mk.inj (Option.some.inj hfields)).2).2).2
      have hcount := x.third.count_point
      rw [hlast] at hcount
      exact absurd hcount (by decide))
  exact absurd hother (by decide +kernel)

end StarBase.Extract
