import Mathlib.Data.List.DropRight
import StarBase.Fits

/-!
# String values of cards

A FITS string value is written between quotes, with its own quotes doubled and blanks behind it.  The
FITS reader looks for the closing quote, the XISF reader takes both quotes off and strips both ends.

* `encode` — the written value;
* `cleanValue`, `stripFitsValue` — the two decoders;
* `KeepsEnds` — what a value may begin and end with;
* `decoders_agree_iff` — **PROVED**: both readers give back the values of an exposure, and it gets one
  fingerprint, exactly if every value keeps its ends.
-/

namespace StarBase.Fits

/-! ### The decoders -/

/-- What `rstrip` takes off the end. -/
def isPadding (c : Char) : Bool := c = ' ' || c = '\t' || c = '\r' || c = '\n'

def rstrip (s : Str) : Str := s.rdropWhile isPadding

/-- The text after an opening quote, up to the closing one; a doubled quote is a quote. -/
def untilQuote : Str → Str
  | [] => []
  | '\'' :: '\'' :: cs => '\'' :: untilQuote cs
  | '\'' :: _ => []
  | c :: cs => c :: untilQuote cs

/-- `clean_value` of the FITS reader. -/
def cleanValue : Str → Str
  | '\'' :: cs => rstrip (untilQuote cs)
  | raw => rstrip raw

/-- Collapse doubled quotes. -/
def collapseQuotes : Str → Str
  | [] => []
  | '\'' :: '\'' :: cs => '\'' :: collapseQuotes cs
  | c :: cs => c :: collapseQuotes cs

def isBlankOrTab (c : Char) : Bool := c = ' ' || c = '\t'

/-- `strip_fits_value` of the XISF reader. -/
def stripFitsValue (raw : Str) : Str :=
  let s :=
    if 2 ≤ raw.length ∧ raw.head? = some '\'' ∧ raw.getLast? = some '\'' then
      collapseQuotes (raw.drop 1).dropLast
    else raw
  (s.rdropWhile isBlankOrTab).dropWhile isBlankOrTab

/-! ### The written value -/

def doubleQuotes (v : Str) : Str := v.flatMap fun c => if c = '\'' then ['\'', '\''] else [c]

/-- A value as FITS writes it, with `pad` blanks before the closing quote. -/
def encode (v : Str) (pad : ℕ) : Str := '\'' :: (doubleQuotes v ++ List.replicate pad ' ' ++ ['\''])

theorem untilQuote_cons {c : Char} (hc : c ≠ '\'') (s : Str) :
    untilQuote (c :: s) = c :: untilQuote s := by
  simp [untilQuote, hc]

theorem collapseQuotes_cons {c : Char} (hc : c ≠ '\'') (s : Str) :
    collapseQuotes (c :: s) = c :: collapseQuotes s := by
  simp [collapseQuotes, hc]

theorem untilQuote_double (v s : Str) : untilQuote (doubleQuotes v ++ s) = v ++ untilQuote s := by
  induction v with
  | nil => rfl
  | cons c v ih =>
    by_cases hc : c = '\''
    · subst hc
      exact congrArg ('\'' :: ·) ih
    · have hone : doubleQuotes (c :: v) = c :: doubleQuotes v := by
        unfold doubleQuotes
        rw [List.flatMap_cons, if_neg hc]
        rfl
      rw [hone, List.cons_append, untilQuote_cons hc, ih]
      rfl

theorem collapseQuotes_double (v s : Str) :
    collapseQuotes (doubleQuotes v ++ s) = v ++ collapseQuotes s := by
  induction v with
  | nil => rfl
  | cons c v ih =>
    by_cases hc : c = '\''
    · subst hc
      exact congrArg ('\'' :: ·) ih
    · have hone : doubleQuotes (c :: v) = c :: doubleQuotes v := by
        unfold doubleQuotes
        rw [List.flatMap_cons, if_neg hc]
        rfl
      rw [hone, List.cons_append, collapseQuotes_cons hc, ih]
      rfl

theorem untilQuote_blanks (n : ℕ) :
    untilQuote (List.replicate n ' ' ++ ['\'']) = List.replicate n ' ' := by
  induction n with
  | zero => rfl
  | succ n ih =>
    rw [List.replicate_succ, List.cons_append, untilQuote_cons (by decide), ih]

theorem collapseQuotes_blanks (n : ℕ) :
    collapseQuotes (List.replicate n ' ') = List.replicate n ' ' := by
  induction n with
  | zero => rfl
  | succ n ih => rw [List.replicate_succ, collapseQuotes_cons (by decide), ih]

theorem rdropWhile_blanks {p : Char → Bool} (hp : p ' ' = true) (s : Str) (n : ℕ) :
    (s ++ List.replicate n ' ').rdropWhile p = s.rdropWhile p := by
  induction n with
  | zero => rw [List.replicate_zero, List.append_nil]
  | succ n ih =>
    rw [List.replicate_succ', ← List.append_assoc, List.rdropWhile_concat_pos _ _ _ hp, ih]

theorem cleanValue_encode (v : Str) (n : ℕ) : cleanValue (encode v n) = rstrip v := by
  show rstrip (untilQuote (doubleQuotes v ++ List.replicate n ' ' ++ ['\''])) = _
  rw [List.append_assoc, untilQuote_double, untilQuote_blanks]
  exact rdropWhile_blanks rfl v n

theorem stripFitsValue_encode (v : Str) (n : ℕ) :
    stripFitsValue (encode v n) = (v.rdropWhile isBlankOrTab).dropWhile isBlankOrTab := by
  have hquoted : 2 ≤ (encode v n).length ∧ (encode v n).head? = some '\'' ∧
      (encode v n).getLast? = some '\'' := by
    refine ⟨by simp [encode]; omega, rfl, ?_⟩
    show ('\'' :: (doubleQuotes v ++ List.replicate n ' ' ++ ['\''])).getLast? = _
    rw [← List.cons_append]
    exact List.getLast?_concat
  have hinner : ((encode v n).drop 1).dropLast = doubleQuotes v ++ List.replicate n ' ' :=
    List.dropLast_concat
  unfold stripFitsValue
  rw [if_pos hquoted, hinner, collapseQuotes_double, collapseQuotes_blanks]
  dsimp only
  rw [rdropWhile_blanks rfl]

/-! ### Values that survive -/

/-- A value begins with no blank and no tab, and ends with no tab, carriage return or line feed. -/
structure KeepsEnds (v : Str) : Prop where
  first : ∀ c ∈ v.head?, isBlankOrTab c = false
  last : ∀ c ∈ v.getLast?, c ≠ '\t' ∧ c ≠ '\r' ∧ c ≠ '\n'

theorem rdropWhile_eq_self {p : Char → Bool} {v : Str} :
    v.rdropWhile p = v ↔ ∀ c ∈ v.getLast?, p c = false := by
  rw [List.rdropWhile_eq_self_iff]
  constructor
  · intro h c hc
    obtain ⟨hne, rfl⟩ := List.mem_getLast?_eq_getLast hc
    simpa using h hne
  · intro h hne
    simpa using h _ (List.getLast?_eq_some_getLast hne)

theorem dropWhile_eq_self {p : Char → Bool} {v : Str} :
    v.dropWhile p = v ↔ ∀ c ∈ v.head?, p c = false := by
  rw [List.dropWhile_eq_self_iff]
  cases v with
  | nil => simp
  | cons c v => simp

/-- Both ends are stripped of nothing. -/
theorem strip_eq_self {p : Char → Bool} {v : Str} :
    (v.rdropWhile p).dropWhile p = v ↔ v.rdropWhile p = v ∧ v.dropWhile p = v := by
  constructor
  · intro h
    have hlen : v.length ≤ (v.rdropWhile p).length := by
      rw [← congrArg List.length h]
      exact List.length_dropWhile_le _ _
    have hr : v.rdropWhile p = v := (List.rdropWhile_prefix p v).eq_of_length_le hlen
    rw [hr] at h
    exact ⟨hr, h⟩
  · rintro ⟨hr, hl⟩
    rw [hr, hl]

/-- A value without trailing blanks comes back from both decoders exactly if it keeps its ends. -/
theorem decoded_iff {v : Str} (hv : ∀ c ∈ v.getLast?, c ≠ ' ') (n : ℕ) :
    cleanValue (encode v n) = v ∧ stripFitsValue (encode v n) = v ↔ KeepsEnds v := by
  rw [cleanValue_encode, stripFitsValue_encode, strip_eq_self, dropWhile_eq_self,
    rdropWhile_eq_self]
  unfold rstrip
  rw [rdropWhile_eq_self]
  constructor
  · rintro ⟨hpad, -, hfirst⟩
    refine ⟨hfirst, fun c hc => ?_⟩
    have := hpad c hc
    simp only [isPadding, Bool.or_eq_false_iff, decide_eq_false_iff_not] at this
    exact ⟨this.1.1.2, this.1.2, this.2⟩
  · intro h
    refine ⟨fun c hc => ?_, fun c hc => ?_, h.first⟩
    · simp [isPadding, hv c hc, h.last c hc]
    · simp [isBlankOrTab, hv c hc, h.last c hc]

/-! ### An exposure in two formats -/

/-- A card with a string value, written with `pad` blanks. -/
structure StringCard where
  keyword : Str
  value : Str
  pad : ℕ
  comment : Str

/-- The card as the FITS reader hands it on. -/
def StringCard.fits (c : StringCard) : Card := ⟨c.keyword, cleanValue (encode c.value c.pad), c.comment⟩

/-- The card as the XISF reader hands it on. -/
def StringCard.xisf (c : StringCard) : Card :=
  ⟨c.keyword, stripFitsValue (encode c.value c.pad), c.comment⟩

/-- The cards of an exposure come back with their values from both readers, and the fingerprint of an
HDU does not depend on which one read them. -/
def ReadAlike [Host] (cards : List StringCard) : Prop :=
  (∀ c ∈ cards, c.fits.value = c.value ∧ c.xisf.value = c.value) ∧
    ∀ h : Hdu, fingerprint { h with cards := h.cards ++ cards.map StringCard.fits } =
      fingerprint { h with cards := h.cards ++ cards.map StringCard.xisf }

/-- **The two decoders agree on values that keep their ends, and on no other.** -/
theorem decoders_agree_iff [Host] (cards : List StringCard)
    (hblank : ∀ c ∈ cards, ∀ x ∈ c.value.getLast?, x ≠ ' ') :
    ReadAlike cards ↔ ∀ c ∈ cards, KeepsEnds c.value := by
  have hvalues : (∀ c ∈ cards, c.fits.value = c.value ∧ c.xisf.value = c.value) ↔
      ∀ c ∈ cards, KeepsEnds c.value :=
    forall₂_congr fun c hc => decoded_iff (hblank c hc) c.pad
  unfold ReadAlike
  rw [hvalues, and_iff_left_iff_imp]
  intro hkeep h
  have hcards : cards.map StringCard.fits = cards.map StringCard.xisf := by
    refine List.map_congr_left fun c hc => ?_
    obtain ⟨hf, hx⟩ := hvalues.mpr hkeep c hc
    unfold StringCard.fits StringCard.xisf
    exact congrArg (Card.mk c.keyword · c.comment) (hf.trans hx.symm)
  rw [hcards]

section Values

attribute [local instance] plainHost

/-- A text that has a first and a last character keeps its ends if these two are kept. -/
theorem KeepsEnds.of_eq {v : Str} {a b : Char} (ha : v.head? = some a) (hb : v.getLast? = some b)
    (hfirst : isBlankOrTab a = false) (hlast : b ≠ '\t' ∧ b ≠ '\r' ∧ b ≠ '\n') : KeepsEnds v where
  first c hc := by
    rw [ha] at hc
    cases hc
    exact hfirst
  last c hc := by
    rw [hb] at hc
    cases hc
    exact hlast

/-- `O'Neil's star` with three blanks behind it. -/
theorem decoders_agree_quotes : ReadAlike [⟨"OBJECT".toList, "O'Neil's star".toList, 3, []⟩] := by
  have hfirst : "O'Neil's star".toList.head? = some 'O' := by decide
  have hlast : "O'Neil's star".toList.getLast? = some 'r' := by decide
  refine (decoders_agree_iff _ ?_).mpr ?_
  · intro c hc
    rw [List.mem_singleton.mp hc, hlast]
    simp
  · intro c hc
    rw [List.mem_singleton.mp hc]
    exact .of_eq hfirst hlast (by decide) (by decide)

/-- The camera ` ASI2600` with a leading blank. -/
def indentedCard : StringCard := ⟨"INSTRUME".toList, " ASI2600".toList, 0, []⟩

/-- The XISF reader loses the blank, and the fingerprints differ. -/
theorem leading_blank_lost : (∀ x ∈ indentedCard.value.getLast?, x ≠ ' ') ∧
    indentedCard.fits.value = indentedCard.value ∧ ¬ ReadAlike [indentedCard] ∧
    fingerprint ⟨0, true, 16, 2, 1, 1, [indentedCard.fits]⟩ ≠
      fingerprint ⟨0, true, 16, 2, 1, 1, [indentedCard.xisf]⟩ := by
  have hlast : indentedCard.value.getLast? = some '0' := by decide
  have hlost : indentedCard.xisf.value ≠ indentedCard.value := by decide
  refine ⟨?_, by decide, ?_, by decide⟩
  · rw [hlast]
    simp
  · intro h
    exact hlost (h.1 _ List.mem_cons_self).2

end Values

end StarBase.Fits
