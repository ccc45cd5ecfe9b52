import Mathlib.Data.List.TakeWhile
import Mathlib.Tactic.FieldSimp
import Mathlib.Tactic.Ring
import StarBase.Extract.Coordinate
import StarBase.Index.SharedNames
import StarBase.Index.StoreSpec

/-!
# Headers that can be indexed

What the cards of a file have to say for its store to succeed: every raw value resolves, every
column takes what it resolves to, and the cards themselves fit their table.

* `decimalFits_fin` — **PROVED**: a `DECIMAL` column takes the numbers below an explicit bound;
* `CoordFits`, `FieldsFit` — the conditions, on the texts of the cards;
* `resolve_accepted_iff` — **PROVED**: they hold exactly when `resolve` returns and every column
  takes its value;
* `EquipReady` — the ids a worker may return refer to rows; `storeHdu_ready` carries it through a
  transaction;
* `indexed_iff` — **PROVED**: a file is stored exactly when they hold for each of its image HDUs.
-/

namespace StarBase

open Relational Extract Rounding

/-! ### Numbers -/

/-- The numbers whose text of six decimals a `DECIMAL(p,s)` column takes are those below. -/
def decimalBound (p s : ℕ) : ℚ :=
  if s = 6 then (10 ^ p - 1 / 2) / 10 ^ 6 else ((10 ^ p - 1 / 2) * 10 ^ (6 - s) - 1 / 2) / 10 ^ 6

/-- The scales of the columns: the bound in millionths is even. -/
def EvenScale (p s : ℕ) : Prop := s ≤ 4 ∨ s = 6 ∧ 0 < p

theorem decimalFits_fin {p s : ℕ} (hs : EvenScale p s) (q : ℚ) :
    decimalFits p s (some (.fin q)) = true ↔ |q| < decimalBound p s := by
  -- `m` is the number in millionths, which the second rounding starts from
  set m : Int := roundHalfEven (q * 1000000) with hm
  have hmill : ∀ n : Int, 2 ∣ n → (|m| < n ↔ |q| < (n - 1 / 2) / 10 ^ 6) := by
    intro n hn
    rw [hm, abs_roundHalfEven_lt_iff hn, abs_mul, abs_of_pos (by norm_num : (0 : ℚ) < 1000000),
      lt_div_iff₀ (by norm_num)]
    norm_num
  have hround : decimalFits p s (some (.fin q)) = true ↔
      |(m : ℚ)| / 10 ^ 6 * 10 ^ s < 10 ^ p - 1 / 2 := by
    have hcast : ((10 ^ p : Int) : ℚ) = 10 ^ p := by norm_num
    have habs : |sixDecimals q * 10 ^ s| = |(m : ℚ)| / 10 ^ 6 * 10 ^ s := by
      unfold sixDecimals
      rw [abs_mul, abs_div, abs_of_pos (by positivity : (0 : ℚ) < 10 ^ s),
        abs_of_pos (by norm_num : (0 : ℚ) < 1000000), ← hm]
      norm_num
    rw [← habs, ← hcast, ← abs_roundHalfAway_lt]
    simp [decimalFits]
  rw [hround]
  unfold decimalBound
  rcases hs with hlt | ⟨rfl, hp⟩
  · -- fewer decimals: the bound on `m` is the integer `10 ^ p * (4 * k) - 2 * k`
    rw [if_neg (by omega)]
    obtain ⟨k, hk⟩ : ∃ k : Int, (10 : ℚ) ^ (6 - s) = 4 * k := by
      refine ⟨25 * 10 ^ (4 - s), ?_⟩
      rw [show 6 - s = (4 - s) + 2 by omega, pow_add]
      push_cast
      ring
    have hsplit : (10 : ℚ) ^ 6 = 10 ^ s * 10 ^ (6 - s) := by
      rw [← pow_add]
      congr 1
      omega
    have hint : |(m : ℚ)| / 10 ^ 6 * 10 ^ s < 10 ^ p - 1 / 2 ↔
        |m| < (10 ^ p * (4 * k) - 2 * k : Int) := by
      rw [← Int.cast_lt (R := ℚ), hsplit]
      push_cast
      rw [← hk]
      have hpos : (0 : ℚ) < 10 ^ (6 - s) := by positivity
      have hpos' : (0 : ℚ) < 10 ^ s := by positivity
      have hval : |(m : ℚ)| / (10 ^ s * 10 ^ (6 - s)) * 10 ^ s = |(m : ℚ)| / 10 ^ (6 - s) := by
        field_simp
      rw [hval, div_lt_iff₀ hpos]
      have hk' : 2 * (k : ℚ) = 10 ^ (6 - s) / 2 := by linarith
      rw [hk']
      constructor <;> intro h <;> linarith
    have heven : (2 : Int) ∣ 10 ^ p * (4 * k) - 2 * k := ⟨10 ^ p * (2 * k) - k, by ring⟩
    rw [hint, hmill _ heven]
    push_cast
    rw [hk]
    constructor <;> intro h <;> convert h using 2 <;> ring
  · rw [if_pos rfl, div_mul_cancel₀ _ (by positivity)]
    have hint : |(m : ℚ)| < 10 ^ p - 1 / 2 ↔ |m| < (10 ^ p : Int) := by
      rw [← Int.cast_abs]
      constructor
      · intro h
        have h' : ((|m| : Int) : ℚ) < ((10 ^ p : Int) : ℚ) := by
          push_cast at h ⊢
          linarith
        exact_mod_cast h'
      · intro h
        have h' : ((|m| + 1 : Int) : ℚ) ≤ ((10 ^ p : Int) : ℚ) := Int.cast_le.mpr h
        push_cast at h' ⊢
        linarith
    have heven : (2 : Int) ∣ 10 ^ p := dvd_pow (by decide) hp.ne'
    rw [hint, hmill _ heven]
    push_cast
    rfl

/-- A value is a number a `DECIMAL(p,s)` column takes. -/
def Below (p s : ℕ) (d : Dbl) : Prop := ∃ q, d = .fin q ∧ |q| < decimalBound p s

theorem decimalFits_iff {p s : ℕ} (hs : EvenScale p s) {v : Option Dbl} :
    decimalFits p s v = true ↔ ∀ d, v = some d → Below p s d := by
  cases v with
  | none => simp [decimalFits]
  | some d =>
    cases d with
    | fin q => simp [decimalFits_fin hs, Below]
    | inf b => simp [decimalFits, Below]
    | nan => simp [decimalFits, Below]

/-! ### Coordinates -/

/-- A string of digits and points begins with a number in the range of a `double`. -/
def Reads (s : Str) (q : ℚ) : Prop :=
  ∃ rest, scanDigits 10 10 Char.isDigit 'e' s = some (q, rest) ∧ inRange q = true

theorem stod_ok_iff {s : Str} (hs : ∀ c ∈ s, c.isDigit ∨ c = '.') {d : Dbl} :
    (∃ rest, stod s = .ok (d, rest)) ↔ ∃ q, d = .round q ∧ Reads s q := by
  unfold stod
  rw [stodIn_of_digits .round hs]
  cases hscan : scanDigits 10 10 Char.isDigit 'e' s with
  | none => simp [Reads, hscan]
  | some qr =>
    obtain ⟨q, rest⟩ := qr
    dsimp only
    constructor
    · rintro ⟨rest', h⟩
      split at h
      · next hq =>
        cases h
        exact ⟨q, rfl, rest, hscan, hq⟩
      · cases h
    · rintro ⟨q', rfl, rest', h, hq⟩
      rw [hscan] at h
      cases h
      exact ⟨rest, by rw [if_pos hq]⟩

theorem sexagesimal_digits {s : Str} {neg : Bool} {a b c : Str}
    (h : sexagesimal s = some (neg, a, b, c)) :
    (∀ x ∈ a, x.isDigit ∨ x = '.') ∧ (∀ x ∈ b, x.isDigit ∨ x = '.') ∧
      ∀ x ∈ c, x.isDigit ∨ x = '.' := by
  unfold sexagesimal at h
  obtain ⟨-, h⟩ := Option.ite_none_left_eq_some.mp h
  simp only [Option.some.injEq, Prod.mk.injEq] at h
  obtain ⟨-, rfl, rfl, rfl⟩ := h
  refine ⟨fun x hx => Or.inl (List.mem_takeWhile_imp hx),
    fun x hx => Or.inl (List.mem_takeWhile_imp hx), fun x hx => ?_⟩
  simpa using List.mem_takeWhile_imp hx

/-- The degrees of three sexagesimal fields, computed in doubles. -/
def sexDegrees (neg isRa : Bool) (a b c : ℚ) : Dbl :=
  sexValue .round neg isRa (.round a) (.round b) (.round c)

/-- A coordinate as written is a number of degrees in range, or three sexagesimal fields that
read as numbers and make one, or no coordinate at all. -/
def CoordFits (isRa : Bool) (raw : Str) : Prop :=
  match toDouble (trim raw) with
  | some d => Below 9 6 d
  | none => ∀ neg a b c, sexagesimal (trim raw) = some (neg, a, b, c) →
      ∃ qa qb qc, Reads a qa ∧ Reads b qb ∧ Reads c qc ∧ Below 9 6 (sexDegrees neg isRa qa qb qc)

/-- The three unguarded calls of `stod` return exactly if the fields read as numbers. -/
theorem parseCoord_of_sexagesimal {raw : Str} {isRa neg : Bool} {a b c : Str}
    (hd : toDouble (trim raw) = none)
    (hs : sexagesimal (trim raw) = some (neg, a, b, c)) (v : Option Dbl) :
    parseCoord raw isRa = .ok v ↔ ∃ qa qb qc, Reads a qa ∧ Reads b qb ∧ Reads c qc ∧
      v = some (sexDegrees neg isRa qa qb qc) := by
  obtain ⟨ha, hb, hc⟩ := sexagesimal_digits hs
  have hparse : parseCoord raw isRa = (do
      let da ← stod a
      let db ← stod b
      let dc ← stod c
      .ok (some (sexValue .round neg isRa da.1 db.1 dc.1))) := parseCoord_fields isRa hd hs
  rw [hparse]
  constructor
  · intro h
    cases hsa : stod a with
    | error e =>
      rw [hsa] at h
      cases h
    | ok da =>
      cases hsb : stod b with
      | error e =>
        rw [hsa, hsb] at h
        cases h
      | ok db =>
        cases hsc : stod c with
        | error e =>
          rw [hsa, hsb, hsc] at h
          cases h
        | ok dc =>
          rw [hsa, hsb, hsc] at h
          obtain ⟨qa, hqa, hra⟩ := (stod_ok_iff ha).mp ⟨da.2, hsa⟩
          obtain ⟨qb, hqb, hrb⟩ := (stod_ok_iff hb).mp ⟨db.2, hsb⟩
          obtain ⟨qc, hqc, hrc⟩ := (stod_ok_iff hc).mp ⟨dc.2, hsc⟩
          refine ⟨qa, qb, qc, hra, hrb, hrc, ?_⟩
          have hv : some (sexValue .round neg isRa da.1 db.1 dc.1) = v := Except.ok.inj h
          rw [← hv, hqa, hqb, hqc]
          rfl
  · rintro ⟨qa, qb, qc, hra, hrb, hrc, rfl⟩
    obtain ⟨ra, hsa⟩ := (stod_ok_iff ha).mpr ⟨qa, rfl, hra⟩
    obtain ⟨rb, hsb⟩ := (stod_ok_iff hb).mpr ⟨qb, rfl, hrb⟩
    obtain ⟨rc, hsc⟩ := (stod_ok_iff hc).mpr ⟨qc, rfl, hrc⟩
    rw [hsa, hsb, hsc]
    rfl

theorem parseCoord_fits_iff {raw : Str} {isRa : Bool} :
    (∃ v, parseCoord raw isRa = .ok v ∧ decimalFits 9 6 v = true) ↔ CoordFits isRa raw := by
  simp only [decimalFits_iff (show EvenScale 9 6 from Or.inr ⟨rfl, by decide⟩)]
  unfold CoordFits
  cases hd : toDouble (trim raw) with
  | some d =>
    have hparse : parseCoord raw isRa = .ok (some d) := parseCoord_number isRa hd
    rw [hparse]
    constructor
    · rintro ⟨v, hv, h⟩
      cases hv
      exact h d rfl
    · intro h
      refine ⟨_, rfl, fun d' hd' => ?_⟩
      cases hd'
      exact h
  | none =>
    dsimp only
    cases hs : sexagesimal (trim raw) with
    | none =>
      have hparse : parseCoord raw isRa = .ok none := parseCoord_none isRa hd hs
      rw [hparse]
      exact ⟨fun _ neg a b c h => by simp at h, fun _ => ⟨none, rfl, by simp⟩⟩
    | some f =>
      obtain ⟨neg, a, b, c⟩ := f
      simp only [parseCoord_of_sexagesimal hd hs]
      constructor
      · rintro ⟨v, ⟨qa, qb, qc, hra, hrb, hrc, rfl⟩, h⟩ neg' a' b' c' heq
        cases heq
        exact ⟨qa, qb, qc, hra, hrb, hrc, h _ rfl⟩
      · intro h
        obtain ⟨qa, qb, qc, hra, hrb, hrc, hlt⟩ := h neg a b c rfl
        refine ⟨_, ⟨qa, qb, qc, hra, hrb, hrc, rfl⟩, fun d hd' => ?_⟩
        cases hd'
        exact hlt

/-! ### The fields of a frame -/

section Fields

variable [Host]

/-- The fields that become a `DECIMAL(p,s)` column. -/
def decimalFields : List (Str × ℕ × ℕ) :=
  [ ("exposure_s".toList, 10, 3), ("focal_len_mm".toList, 7, 1), ("ccd_temp_c".toList, 5, 2),
    ("set_temp_c".toList, 5, 2), ("airmass".toList, 6, 3), ("sqm".toList, 6, 3) ]

/-- The fields that become a `TINYINT` column. -/
def tinyFields : List Str := ["binx".toList, "biny".toList]

/-- The fields that are stored as they are written, with the length of the column. -/
def textFields : List (Str × ℕ) :=
  [("instrument".toList, 128), ("telescope".toList, 128), ("sqm_sensor".toList, 32)]

/-- The fields that become an `ENUM` column, with its values. -/
def wordFields : List (Str × List Str) :=
  [ ("pier_side".toList, ["east".toList, "west".toList]),
    ("row_order".toList, ["top-down".toList, "bottom-up".toList]) ]

/-- What an object's name has to be: the column takes it and, unless it is a placeholder, its
canonical form. -/
def ObjectFits (name : Str) : Prop :=
  Host.fits 128 name = true ∧
    ((Names.canonicalize name).placeholder = false →
      Host.fits 64 (Names.canonicalize name).canonical = true)

/-- What an observation date has to be: a `DATETIME`, whose night, if it has one, is a `DATE`. -/
def DateFits (site : SiteContext) (date : Str) : Prop :=
  Host.isDatetime date = true ∧
    ∀ night, nightOf date site.utcOffsetHours = some night → Host.isDate night = true

/-- What the cards of an image HDU have to say for its frame to be stored. -/
structure FieldsFit (m : HeaderMapping) (site : SiteContext) (h : Hdu) : Prop where
  object : ∀ raw, resolveRaw h m "object".toList = some raw →
    normalizeValue m "object".toList raw ≠ [] → ObjectFits (normalizeValue m "object".toList raw)
  ra : ∀ raw, resolveRaw h m "ra".toList = some raw → CoordFits true raw
  dec : ∀ raw, resolveRaw h m "dec".toList = some raw → CoordFits false raw
  date : ∀ raw, resolveRaw h m "date_obs".toList = some raw →
    DateFits site (normalizeDateObs raw)
  sqmTime : ∀ raw, resolveRaw h m "sqm_time".toList = some raw → normalizeDateObs raw ≠ [] →
    Host.isDatetime (normalizeDateObs raw) = true
  filter : ∀ raw, resolveRaw h m "filter".toList = some raw →
    normalizeValue m "filter".toList raw ≠ [] →
      Host.fits 32 (normalizeValue m "filter".toList raw) = true
  decimals : ∀ c ∈ decimalFields, ∀ raw, resolveRaw h m c.1 = some raw →
    ∀ d, toDouble raw = some d → Below c.2.1 c.2.2 d
  tinies : ∀ field ∈ tinyFields, ∀ raw, resolveRaw h m field = some raw →
    ∀ n, toIntRound raw = some n → -128 ≤ n ∧ n ≤ 127
  texts : ∀ c ∈ textFields, ∀ raw, resolveRaw h m c.1 = some raw → Host.fits c.2 raw = true
  words : ∀ c ∈ wordFields, ∀ raw, resolveRaw h m c.1 = some raw →
    ∃ w ∈ c.2, Host.collate w = Host.collate (normalizeValue m c.1 raw)

variable {m : HeaderMapping} {site : SiteContext} {h : Hdu}

theorem textFits_iff {n : ℕ} {v : Option Str} :
    textFits n v = true ↔ ∀ s, v = some s → Host.fits n s = true := by
  cases v <;> simp [textFits]

omit [Host] in
theorem tinyFits_iff {v : Option Int} :
    tinyFits v = true ↔ ∀ n, v = some n → -128 ≤ n ∧ n ≤ 127 := by
  cases v <;> simp [tinyFits]

theorem enumFits_iff {values : List Str} {v : Option Str} :
    enumFits values v = true ↔
      ∀ s, v = some s → ∃ w ∈ values, Host.collate w = Host.collate s := by
  cases v <;> simp [enumFits]

omit [Host] in
theorem all_iff {α : Type*} {p : α → Bool} {v : Option α} :
    v.all p = true ↔ ∀ x, v = some x → p x = true := by
  cases v <;> simp

omit [Host] in
/-- A coordinate column is filled exactly when the text of its field fits. -/
theorem resolveCoord_fits_iff {field : Str} {isRa : Bool} :
    (∃ v, resolveCoord h m field isRa = .ok v ∧ decimalFits 9 6 v = true) ↔
      ∀ raw, resolveRaw h m field = some raw → CoordFits isRa raw := by
  unfold resolveCoord
  cases resolveRaw h m field with
  | none => exact ⟨fun _ raw hr => by simp at hr, fun _ => ⟨none, rfl, rfl⟩⟩
  | some raw => simp [parseCoord_fits_iff]

omit [Host] in
theorem doubleField_fits_iff {field : Str} {p s : ℕ} (hs : EvenScale p s) :
    decimalFits p s (doubleField h m field) = true ↔
      ∀ raw, resolveRaw h m field = some raw → ∀ d, toDouble raw = some d → Below p s d := by
  rw [decimalFits_iff hs]
  unfold doubleField
  cases resolveRaw h m field <;> simp

omit [Host] in
theorem intField_fits_iff {field : Str} :
    tinyFits (intField h m field) = true ↔
      ∀ raw, resolveRaw h m field = some raw → ∀ n, toIntRound raw = some n →
        -128 ≤ n ∧ n ≤ 127 := by
  rw [tinyFits_iff]
  unfold intField
  cases resolveRaw h m field <;> simp

theorem wordField_fits_iff {field : Str} {values : List Str} :
    enumFits values ((resolveRaw h m field).map (normalizeValue m field)) = true ↔
      ∀ raw, resolveRaw h m field = some raw →
        ∃ w ∈ values, Host.collate w = Host.collate (normalizeValue m field raw) := by
  rw [enumFits_iff]
  cases resolveRaw h m field <;> simp

theorem object_fits_iff :
    (textFits 128 (resolveObject h m).1 = true ∧ textFits 64 (resolveObject h m).2 = true) ↔
      ∀ raw, resolveRaw h m "object".toList = some raw →
        normalizeValue m "object".toList raw ≠ [] →
          ObjectFits (normalizeValue m "object".toList raw) := by
  unfold resolveObject
  generalize "object".toList = field
  cases resolveRaw h m field with
  | none => simp [textFits]
  | some raw =>
    dsimp only
    by_cases hn : normalizeValue m field raw = []
    · rw [if_pos hn]
      simp [textFits, hn]
    · rw [if_neg hn]
      cases hp : (Names.canonicalize (normalizeValue m field raw)).placeholder <;>
        simp [textFits, ObjectFits, hn, hp]

theorem filter_fits_iff (hclear : Host.fits 32 "CLEAR".toList = true) {t : ImageType} :
    textFits 32 (Extract.resolveFilter h m t).1 = true ↔
      ∀ raw, resolveRaw h m "filter".toList = some raw →
        normalizeValue m "filter".toList raw ≠ [] →
          Host.fits 32 (normalizeValue m "filter".toList raw) = true := by
  have hdefault : textFits 32 (if t = .light ∨ t = .flat then (some "CLEAR".toList, true)
      else ((none : Option Str), false)).1 = true := by
    split
    · exact hclear
    · rfl
  unfold Extract.resolveFilter
  generalize "filter".toList = field
  cases resolveRaw h m field with
  | none => exact ⟨fun _ raw hr => by simp at hr, fun _ => hdefault⟩
  | some raw =>
    dsimp only
    by_cases hn : normalizeValue m field raw = []
    · rw [if_pos hn]
      exact ⟨fun _ raw' hr hne => absurd hn (by cases hr; exact hne), fun _ => hdefault⟩
    · rw [if_neg hn]
      simp [textFits, hn]

theorem date_fits_iff {date : Option Str} :
    (date.all Host.isDatetime = true ∧
      (date.bind fun d => nightOf d site.utcOffsetHours).all Host.isDate = true) ↔
      ∀ d, date = some d → DateFits site d := by
  cases date <;> simp [DateFits, all_iff]

theorem sqmTime_fits_iff {raw : Option Str} :
    (raw.bind fun r => if normalizeDateObs r = [] then none else some (normalizeDateObs r)).all
        Host.isDatetime = true ↔
      ∀ r, raw = some r → normalizeDateObs r ≠ [] →
        Host.isDatetime (normalizeDateObs r) = true := by
  cases raw with
  | none => simp
  | some r => by_cases hr : normalizeDateObs r = [] <;> simp [hr]

omit [Host] in
theorem decimals_fit_iff :
    (∀ c ∈ decimalFields, ∀ raw, resolveRaw h m c.1 = some raw →
        ∀ d, toDouble raw = some d → Below c.2.1 c.2.2 d) ↔
      decimalFits 10 3 (doubleField h m "exposure_s".toList) = true ∧
        decimalFits 7 1 (doubleField h m "focal_len_mm".toList) = true ∧
        decimalFits 5 2 (doubleField h m "ccd_temp_c".toList) = true ∧
        decimalFits 5 2 (doubleField h m "set_temp_c".toList) = true ∧
        decimalFits 6 3 (doubleField h m "airmass".toList) = true ∧
        decimalFits 6 3 (doubleField h m "sqm".toList) = true := by
  have heven : ∀ p s, s ≤ 4 → EvenScale p s := fun _ _ h => Or.inl h
  simp only [decimalFields, List.forall_mem_cons, List.not_mem_nil, false_imp_iff, implies_true, and_true,
    doubleField_fits_iff (heven _ 3 (by decide)), doubleField_fits_iff (heven _ 1 (by decide)),
    doubleField_fits_iff (heven _ 2 (by decide))]

omit [Host] in
theorem tinies_fit_iff :
    (∀ field ∈ tinyFields, ∀ raw, resolveRaw h m field = some raw →
        ∀ n, toIntRound raw = some n → -128 ≤ n ∧ n ≤ 127) ↔
      tinyFits (intField h m "binx".toList) = true ∧
        tinyFits (intField h m "biny".toList) = true := by
  simp only [tinyFields, List.forall_mem_cons, List.not_mem_nil, false_imp_iff, implies_true, and_true, intField_fits_iff]

theorem texts_fit_iff :
    (∀ c ∈ textFields, ∀ raw, resolveRaw h m c.1 = some raw → Host.fits c.2 raw = true) ↔
      textFits 128 (resolveRaw h m "instrument".toList) = true ∧
        textFits 128 (resolveRaw h m "telescope".toList) = true ∧
        textFits 32 (resolveRaw h m "sqm_sensor".toList) = true := by
  simp only [textFields, List.forall_mem_cons, List.not_mem_nil, false_imp_iff, implies_true, and_true, textFits_iff]

theorem words_fit_iff :
    (∀ c ∈ wordFields, ∀ raw, resolveRaw h m c.1 = some raw →
        ∃ w ∈ c.2, Host.collate w = Host.collate (normalizeValue m c.1 raw)) ↔
      enumFits ["east".toList, "west".toList]
          ((resolveRaw h m "pier_side".toList).map (normalizeValue m "pier_side".toList)) = true ∧
        enumFits ["top-down".toList, "bottom-up".toList]
          ((resolveRaw h m "row_order".toList).map (normalizeValue m "row_order".toList)) = true := by
  simp only [wordFields, List.forall_mem_cons, List.not_mem_nil, false_imp_iff, implies_true, and_true, wordField_fits_iff]

/-- **Resolved and accepted, exactly.**  An image HDU resolves to columns the server takes if and
only if the texts of its cards fit. -/
theorem resolve_accepted_iff (hclear : Host.fits 32 "CLEAR".toList = true) :
    (∃ f, resolve h m site = .ok f ∧ columnsAccepted f = true) ↔ FieldsFit m site h := by
  have hra : (∃ v, resolveCoord h m "ra".toList true = .ok v ∧ decimalFits 9 6 v = true) ↔ _ :=
    resolveCoord_fits_iff
  have hdec : (∃ v, resolveCoord h m "dec".toList false = .ok v ∧ decimalFits 9 6 v = true) ↔ _ :=
    resolveCoord_fits_iff
  cases hr : resolveCoord h m "ra".toList true with
  | error e =>
    -- the right ascension throws
    rw [hr] at hra
    refine ⟨fun ⟨f, hf, _⟩ => ?_, fun hfit => ?_⟩
    · unfold resolve at hf
      rw [hr] at hf
      cases hf
    · obtain ⟨v, hv, -⟩ := hra.mpr hfit.ra
      cases hv
  | ok ra =>
    cases hd : resolveCoord h m "dec".toList false with
    | error e =>
      rw [hd] at hdec
      refine ⟨fun ⟨f, hf, _⟩ => ?_, fun hfit => ?_⟩
      · unfold resolve at hf
        rw [hr, hd] at hf
        cases hf
      · obtain ⟨v, hv, -⟩ := hdec.mpr hfit.dec
        cases hv
    | ok dec =>
      rw [hr] at hra
      rw [hd] at hdec
      have hra' : decimalFits 9 6 ra = true ↔ _ := Iff.trans (by simp) hra
      have hdec' : decimalFits 9 6 dec = true ↔ _ := Iff.trans (by simp) hdec
      unfold resolve
      rw [hr, hd]
      have hdate : ((resolveRaw h m "date_obs".toList).map normalizeDateObs).all
            Host.isDatetime = true ∧ (((resolveRaw h m "date_obs".toList).map normalizeDateObs).bind
              fun d => nightOf d site.utcOffsetHours).all Host.isDate = true ↔
          ∀ raw, resolveRaw h m "date_obs".toList = some raw →
            DateFits site (normalizeDateObs raw) := by
        rw [date_fits_iff]
        simp
      constructor
      · rintro ⟨f, hf, hacc⟩
        cases hf
        simp only [columnsAccepted, Bool.and_eq_true] at hacc
        obtain ⟨⟨⟨⟨⟨⟨⟨⟨⟨⟨⟨⟨⟨⟨⟨⟨⟨⟨⟨⟨hobj, hcan⟩, hra₁⟩, hdec₁⟩, hday⟩, hnight⟩, hexp⟩, hfilt⟩, hins⟩,
          htel⟩, hfoc⟩, hbx⟩, hby⟩, hccd⟩, hset⟩, hair⟩, hsqm⟩, hsen⟩, htime⟩, hpier⟩, hrow⟩ := hacc
        exact
          { object := object_fits_iff.mp ⟨hobj, hcan⟩
            ra := hra'.mp hra₁
            dec := hdec'.mp hdec₁
            date := hdate.mp ⟨hday, hnight⟩
            sqmTime := sqmTime_fits_iff.mp htime
            filter := (filter_fits_iff hclear).mp hfilt
            decimals := decimals_fit_iff.mpr ⟨hexp, hfoc, hccd, hset, hair, hsqm⟩
            tinies := tinies_fit_iff.mpr ⟨hbx, hby⟩
            texts := texts_fit_iff.mpr ⟨hins, htel, hsen⟩
            words := words_fit_iff.mpr ⟨hpier, hrow⟩ }
      · intro hfit
        refine ⟨_, rfl, ?_⟩
        obtain ⟨hobj, hcan⟩ := object_fits_iff.mpr hfit.object
        obtain ⟨hday, hnight⟩ := hdate.mpr hfit.date
        obtain ⟨hexp, hfoc, hccd, hset, hair, hsqm⟩ := decimals_fit_iff.mp hfit.decimals
        obtain ⟨hbx, hby⟩ := tinies_fit_iff.mp hfit.tinies
        obtain ⟨hins, htel, hsen⟩ := texts_fit_iff.mp hfit.texts
        obtain ⟨hpier, hrow⟩ := words_fit_iff.mp hfit.words
        have hfilt := (filter_fits_iff (t := resolveImageType h m) hclear).mpr hfit.filter
        have htime := sqmTime_fits_iff.mpr hfit.sqmTime
        simp only [columnsAccepted, Bool.and_eq_true]
        exact ⟨⟨⟨⟨⟨⟨⟨⟨⟨⟨⟨⟨⟨⟨⟨⟨⟨⟨⟨⟨hobj, hcan⟩, hra'.mpr hfit.ra⟩, hdec'.mpr hfit.dec⟩, hday⟩, hnight⟩,
          hexp⟩, hfilt⟩, hins⟩, htel⟩, hfoc⟩, hbx⟩, hby⟩, hccd⟩, hset⟩, hair⟩, hsqm⟩, hsen⟩, htime⟩,
          hpier⟩, hrow⟩

end Fields

/-! ### Ids that refer to rows -/

section Ready

variable [Host]

/-- The ids a lookup of names may return are those of rows. -/
structure NamesReady (aliases names : List (Str × ℕ)) (cache : List (Str × Option ℕ))
    (T : Table nameKeying) : Prop where
  aliases : ∀ a ∈ aliases, a.2 ∈ T.ids
  names : ∀ a ∈ names, a.2 ∈ T.ids
  cache : ∀ c ∈ cache, ∀ i, c.2 = some i → i ∈ T.ids

/-- The ids a worker may give a frame are those of rows. -/
structure EquipReady (reg : EquipmentRegistry) (s : StoreState) : Prop where
  cameras : NamesReady reg.cameraAliases reg.camerasByModel s.caches.camera s.db.cameras
  filters : NamesReady reg.filterAliases reg.filtersByName s.caches.filter s.db.filters
  rigs : ∀ r ∈ reg.rigs, ∃ x ∈ s.db.operator.rigs, x.id = r.id
  rigSites : ∀ r ∈ reg.rigs, ∀ i, r.siteId = some i → ∃ x ∈ s.db.operator.sites, x.id = i
  site : ∀ i, reg.defaultSiteId = some i → ∃ x ∈ s.db.operator.sites, x.id = i

variable {aliases names : List (Str × ℕ)} {cache : List (Str × Option ℕ)} {T U : Table nameKeying}

theorem mem_ids_byLowerName {T : Table nameKeying} {a : Str × ℕ} (h : a ∈ byLowerName T) :
    a.2 ∈ T.ids := by
  obtain ⟨r, hr, rfl⟩ := List.mem_map.mp (List.mem_reverse.mp h)
  exact Table.id_mem_ids hr

/-- A worker that starts over a snapshot of a database whose foreign keys hold is ready. -/
theorem equipReady_load {db : IndexDb} (hdb : AliasesRefer db)
    (hrigs : ∀ r ∈ db.operator.rigs, ∀ i, r.siteId = some i →
      ∃ x ∈ db.operator.sites, x.id = i) : EquipReady (EquipmentRegistry.load db) ⟨db, {}⟩ where
  cameras := ⟨hdb.cameras, fun _ ha => mem_ids_byLowerName ha, by simp⟩
  filters := ⟨hdb.filters, fun _ ha => mem_ids_byLowerName ha, by simp⟩
  rigs r hr := ⟨r, (List.mem_filter.mp hr).1, rfl⟩
  rigSites r hr := hrigs r (List.mem_filter.mp hr).1
  site i hi := by
    obtain ⟨x, hx, rfl⟩ := Option.map_eq_some_iff.mp hi
    exact ⟨x, (List.mem_insertionSort _).mp (List.mem_of_mem_head? hx), rfl⟩

/-- Remembering an answer that refers to a row of a table that has grown. -/
theorem NamesReady.remember (h : NamesReady aliases names cache T)
    (hgrow : ∀ i ∈ T.ids, i ∈ U.ids) {key : Str} {found : Option ℕ}
    (hfound : ∀ i, found = some i → i ∈ U.ids) :
    NamesReady aliases names ((key, found) :: cache) U where
  aliases a ha := hgrow _ (h.aliases a ha)
  names a ha := hgrow _ (h.names a ha)
  cache c hc i hi := by
    rcases List.mem_cons.mp hc with rfl | hc
    · exact hfound i hi
    · exact hgrow i (h.cache c hc i hi)

theorem NamesReady.of_lookup (h : NamesReady aliases names cache T) {key : Str} {found : Option ℕ}
    (hl : cache.lookup key = some found) : ∀ i, found = some i → i ∈ T.ids := by
  intro i hi
  obtain ⟨l₁, l₂, hc, -⟩ := List.lookup_eq_some_iff.mp hl
  exact h.cache (key, found) (by rw [hc]; simp) i hi

theorem NamesReady.of_names (h : NamesReady aliases names cache T) {key : Str} {i : ℕ}
    (hl : names.lookup key = some i) : i ∈ T.ids := by
  obtain ⟨l₁, l₂, hc, -⟩ := List.lookup_eq_some_iff.mp hl
  exact h.names (key, i) (by rw [hc]; simp)

theorem intern_mem_ids {width : ℕ} {name : Str} {i : ℕ} (h : (intern width name T).1 = some i) :
    i ∈ (intern width name T).2.ids := by
  obtain ⟨r, hr, rfl⟩ := Option.map_eq_some_iff.mp h
  exact Table.id_mem_ids (Table.get_mem hr)

theorem lookupCamera_mem_ids {reg : EquipmentRegistry} {raw : Str}
    (h : NamesReady reg.cameraAliases reg.camerasByModel cache T) {i : ℕ}
    (hi : (lookupCamera reg raw T).1 = some i) : i ∈ (lookupCamera reg raw T).2.ids := by
  unfold lookupCamera at hi ⊢
  split at hi
  · next a ha =>
    obtain rfl : a.2 = i := Option.some.inj hi
    exact h.aliases a (List.mem_of_find?_eq_some ha)
  · dsimp only at hi ⊢
    split at hi
    · cases hi
    · next hm =>
      rw [if_neg hm]
      split at hi
      · next hl =>
        obtain rfl := Option.some.inj hi
        exact h.of_names hl
      · exact intern_mem_ids hi

theorem lookupFilter_mem_ids {reg : EquipmentRegistry} {raw : Str}
    (h : NamesReady reg.filterAliases reg.filtersByName cache T) {i : ℕ}
    (hi : (lookupFilter reg raw T).1 = some i) : i ∈ (lookupFilter reg raw T).2.ids := by
  unfold lookupFilter at hi ⊢
  split at hi
  · next a ha =>
    obtain rfl : a.2 = i := Option.some.inj hi
    exact h.aliases a (List.mem_of_find?_eq_some ha)
  · split at hi
    · next hl =>
      obtain rfl := Option.some.inj hi
      exact h.of_names hl
    · exact intern_mem_ids hi

variable {reg : EquipmentRegistry} {s : StoreState}

theorem resolveCamera_ready (h : EquipReady reg s) (raw : Str) :
    EquipReady reg (resolveCamera reg raw s).2 ∧
      ∀ i, (resolveCamera reg raw s).1 = some i → i ∈ (resolveCamera reg raw s).2.db.cameras.ids := by
  unfold resolveCamera
  split
  · next found hl => exact ⟨h, h.cameras.of_lookup hl⟩
  · have hfound : ∀ i, (lookupCamera reg raw s.db.cameras).1 = some i →
        i ∈ (lookupCamera reg raw s.db.cameras).2.ids := fun i hi => lookupCamera_mem_ids h.cameras hi
    exact ⟨⟨h.cameras.remember (fun i hi => mem_ids_lookupCamera hi) hfound, h.filters, h.rigs,
      h.rigSites, h.site⟩, hfound⟩

theorem resolveFilter_ready (h : EquipReady reg s) (raw : Str) :
    EquipReady reg (resolveFilter reg raw s).2 ∧
      ∀ i, (resolveFilter reg raw s).1 = some i → i ∈ (resolveFilter reg raw s).2.db.filters.ids := by
  unfold resolveFilter
  split
  · exact ⟨h, by simp⟩
  split
  · next found hl => exact ⟨h, h.filters.of_lookup hl⟩
  · have hfound : ∀ i, (lookupFilter reg raw s.db.filters).1 = some i →
        i ∈ (lookupFilter reg raw s.db.filters).2.ids := fun i hi => lookupFilter_mem_ids h.filters hi
    exact ⟨⟨h.cameras, h.filters.remember (fun i hi => mem_ids_lookupFilter hi) hfound, h.rigs,
      h.rigSites, h.site⟩, hfound⟩

omit [Host] in
theorem mem_rigs_of_matchRig {camera : Option ℕ} {focal : Option Dbl} {rig : RigRow}
    (h : matchRig reg camera focal = some rig) : rig ∈ reg.rigs := by
  unfold matchRig at h
  split at h
  · exact List.mem_of_find?_eq_some h
  · cases h

/-- The ids of one resolved frame pass the foreign keys of `frames`. -/
theorem resolveEquipment_ready (h : EquipReady reg s) (f : ResolvedFrame) :
    EquipReady reg (resolveEquipment reg f s).2 ∧
      equipmentExists (resolveEquipment reg f s).2.db (resolveEquipment reg f s).1 = true := by
  have hcam : EquipReady reg (lookupIf (resolveCamera reg) f.instrumeRaw s).2 ∧
      ∀ i, (lookupIf (resolveCamera reg) f.instrumeRaw s).1 = some i →
        i ∈ (lookupIf (resolveCamera reg) f.instrumeRaw s).2.db.cameras.ids := by
    unfold lookupIf
    cases f.instrumeRaw with
    | none => exact ⟨h, by simp⟩
    | some raw => exact resolveCamera_ready h raw
  set c := lookupIf (resolveCamera reg) f.instrumeRaw s with hc
  have hfilt : EquipReady reg (lookupIf (resolveFilter reg) f.filterRaw c.2).2 ∧
      ∀ i, (lookupIf (resolveFilter reg) f.filterRaw c.2).1 = some i →
        i ∈ (lookupIf (resolveFilter reg) f.filterRaw c.2).2.db.filters.ids := by
    unfold lookupIf
    cases f.filterRaw with
    | none => exact ⟨hcam.1, by simp⟩
    | some raw => exact resolveFilter_ready hcam.1 raw
  have hgrow := lookupIf_grows (resolveFilter_grows reg) f.filterRaw c.2
  refine ⟨hfilt.1, ?_⟩
  have hcamera : c.1.all (fun i =>
      (lookupIf (resolveFilter reg) f.filterRaw c.2).2.db.cameras.ids.contains i) = true :=
    all_iff.mpr fun i hi => List.contains_iff_mem.mpr (hgrow.cameras i (hcam.2 i hi))
  have hfilter : (lookupIf (resolveFilter reg) f.filterRaw c.2).1.all (fun i =>
      (lookupIf (resolveFilter reg) f.filterRaw c.2).2.db.filters.ids.contains i) = true :=
    all_iff.mpr fun i hi => List.contains_iff_mem.mpr (hfilt.2 i hi)
  have hrig : ((matchRig reg c.1 f.focalLenMm).map RigRow.id).all (fun i =>
      (lookupIf (resolveFilter reg) f.filterRaw c.2).2.db.operator.rigs.any fun r => r.id = i)
        = true := by
    refine all_iff.mpr fun i hi => ?_
    obtain ⟨rig, hm, rfl⟩ := Option.map_eq_some_iff.mp hi
    obtain ⟨x, hx, hid⟩ := hfilt.1.rigs rig (mem_rigs_of_matchRig hm)
    exact List.any_eq_true.mpr ⟨x, hx, by simp [hid]⟩
  have hsite : (((matchRig reg c.1 f.focalLenMm).bind RigRow.siteId).orElse
      fun _ => reg.defaultSiteId).all (fun i =>
        (lookupIf (resolveFilter reg) f.filterRaw c.2).2.db.operator.sites.any fun r => r.id = i)
          = true := by
    refine all_iff.mpr fun i hi => ?_
    have hrow : ∃ x ∈ (lookupIf (resolveFilter reg) f.filterRaw c.2).2.db.operator.sites,
        x.id = i := by
      cases hb : (matchRig reg c.1 f.focalLenMm).bind RigRow.siteId with
      | some j =>
        rw [hb] at hi
        obtain ⟨rig, hm, hs⟩ := Option.bind_eq_some_iff.mp hb
        exact hfilt.1.rigSites rig (mem_rigs_of_matchRig hm) i (hs.trans hi)
      | none =>
        rw [hb] at hi
        exact hfilt.1.site i hi
    obtain ⟨x, hx, hid⟩ := hrow
    exact List.any_eq_true.mpr ⟨x, hx, by simp [hid]⟩
  simp only [equipmentExists, Bool.and_eq_true]
  exact ⟨⟨⟨hcamera, hfilter⟩, hrig⟩, hsite⟩

/-! ### The transaction -/

variable {ctx : StoreContext} {fid : ℕ} {hdu : Hdu}

/-- With ids that refer to rows, one HDU is stored exactly when it resolves, its columns are
accepted and its cards are; the ids still refer to rows afterwards. -/
theorem storeHdu_ok_iff (hs : EquipReady ctx.registry s) (hfid : fid ∈ s.db.files.ids) :
    (∃ t, storeHdu ctx fid hdu s = (.ok (), t)) ↔
      (∃ f, resolve hdu ctx.mapping ctx.site = .ok f ∧ columnsAccepted f = true) ∧
        cardsAccepted hdu.cards = true := by
  cases hres : resolve hdu ctx.mapping ctx.site with
  | error e => simp [storeHdu, hres]
  | ok f =>
    obtain ⟨-, hex⟩ := resolveEquipment_ready hs f
    have hgrown := resolveEquipment_grows ctx.registry f s
    have hmem : fid ∈ (resolveEquipment ctx.registry f s).2.db.files.ids := by
      rw [hgrown.files]
      exact hfid
    have hf : (∃ g, Except.ok (ε := Thrown) f = .ok g ∧ columnsAccepted g = true) ↔
        columnsAccepted f = true := by simp
    rw [hf]
    cases hcols : columnsAccepted f with
    | false => simp [storeHdu, hres, IndexDb.putFrame, hcols]
    | true =>
      have hput : (resolveEquipment ctx.registry f s).2.db.putFrame fid hdu f
          (resolveEquipment ctx.registry f s).1 =
            .ok ((resolveEquipment ctx.registry f s).2.db.upsertFrame fid hdu.index hmem
              (newFrame fid hdu f (resolveEquipment ctx.registry f s).1)
              (storedFrame hdu f (resolveEquipment ctx.registry f s).1)) := by
        simp [IndexDb.putFrame, hcols, hmem, hex]
      obtain ⟨row, hrow⟩ : ∃ row, ((resolveEquipment ctx.registry f s).2.db.upsertFrame fid
          hdu.index hmem (newFrame fid hdu f (resolveEquipment ctx.registry f s).1)
          (storedFrame hdu f (resolveEquipment ctx.registry f s).1)).frames.get (fid, hdu.index)
            = some row := ⟨_, Table.get_upsert_self⟩
      unfold storeHdu
      rw [hres]
      dsimp only
      rw [hput]
      dsimp only
      rw [hrow]
      cases hcards : cardsAccepted hdu.cards <;> simp [IndexDb.putCards, hcards]

theorem storeHdu_ready (hs : EquipReady ctx.registry s) {t : StoreState}
    (h : storeHdu ctx fid hdu s = (.ok (), t)) : EquipReady ctx.registry t := by
  unfold storeHdu at h
  split at h
  · cases h
  next f hres =>
  dsimp only at h
  obtain ⟨hready, -⟩ := resolveEquipment_ready hs f
  split at h
  · cases h
  next db hp =>
  obtain ⟨-, -, -, -, -, hop, hcam, hfilt⟩ := putFrame_ok hp
  split at h
  · cases h
  next frame hg =>
  split at h
  · cases h
  next db' hc =>
  obtain ⟨-, rfl⟩ := putCards_ok hc
  cases h
  have hop' : db.operator = (resolveEquipment ctx.registry f s).2.db.operator := hop.operator
  refine ⟨?_, ?_, ?_, ?_, ?_⟩
  · show NamesReady _ _ _ db.cameras
    rw [hcam]
    exact hready.cameras
  · show NamesReady _ _ _ db.filters
    rw [hfilt]
    exact hready.filters
  · show ∀ r ∈ _, ∃ x ∈ db.operator.rigs, _
    rw [hop']
    exact hready.rigs
  · show ∀ r ∈ _, ∀ i, _ → ∃ x ∈ db.operator.sites, _
    rw [hop']
    exact hready.rigSites
  · show ∀ i, _ → ∃ x ∈ db.operator.sites, _
    rw [hop']
    exact hready.site

/-- The image HDUs of a file are stored exactly when each of them is accepted. -/
theorem storeHdus_ok_iff {hdus : List Hdu} (hs : EquipReady ctx.registry s)
    (hfid : fid ∈ s.db.files.ids) :
    (∃ t, storeHdus ctx fid hdus s = (.ok (), t)) ↔
      ∀ h ∈ hdus, (∃ f, resolve h ctx.mapping ctx.site = .ok f ∧ columnsAccepted f = true) ∧
        cardsAccepted h.cards = true := by
  induction hdus generalizing s with
  | nil => exact ⟨fun _ h hh => absurd hh (List.not_mem_nil), fun _ => ⟨s, rfl⟩⟩
  | cons h hs' ih =>
    rw [List.forall_mem_cons, ← storeHdu_ok_iff hs hfid]
    cases hone : storeHdu ctx fid h s with
    | mk res u =>
      cases res with
      | error e => simp [storeHdus, hone]
      | ok x =>
        have hstep : storeHdus ctx fid (h :: hs') s = storeHdus ctx fid hs' u := by
          simp [storeHdus, hone]
        have hu : fid ∈ u.db.files.ids := by
          rw [(storeHdu_ok hone).2.1]
          exact hfid
        rw [hstep, ih (storeHdu_ready hs hone) hu]
        simp

/-- A file whose own columns are accepted is stored exactly when its image HDUs are. -/
theorem storeFile_ok_iff {now : Micros} {info : FileInfo} {header : RawHeader}
    (hs : EquipReady ctx.registry s) (hinfo : info.accepted = true) :
    (storeFile ctx now info header s).1 = .ok () ↔
      ∀ h ∈ header.imageHdus,
        (∃ f, resolve h ctx.mapping ctx.site = .ok f ∧ columnsAccepted f = true) ∧
          cardsAccepted h.cards = true := by
  obtain ⟨u, hu⟩ : ∃ u : StoreState, u = { s with
      db := s.db.upsertFile info.key (info.newRow now) (info.storedRow now) } := ⟨_, rfl⟩
  have hready : EquipReady ctx.registry u := by
    rw [hu]
    exact ⟨hs.cameras, hs.filters, hs.rigs, hs.rigSites, hs.site⟩
  obtain ⟨row, hrow⟩ : ∃ row, u.db.files.get info.key = some row := by
    rw [hu]
    exact ⟨_, Table.get_upsert_self⟩
  have hbody : storeBody ctx now info header s =
      storeHdus ctx row.id header.imageHdus u := by
    unfold storeBody
    rw [if_neg (by simp [hinfo])]
    have hrow' : (s.db.upsertFile info.key (info.newRow now) (info.storedRow now)).files.get
        info.key = some row := by
      rw [hu] at hrow
      exact hrow
    dsimp only
    rw [← hu, hrow']
  have hmem : row.id ∈ u.db.files.ids := Table.id_mem_ids (Table.get_mem hrow)
  rw [← storeHdus_ok_iff hready hmem]
  unfold storeFile
  rw [hbody]
  cases storeHdus ctx row.id header.imageHdus u with
  | mk res t => cases res <;> simp

/-- A readable header is in the index: every image HDU resolves to columns the server takes, and
the file is stored with status `ok`. -/
structure Indexed (ctx : StoreContext) (now : Micros) (info : FileInfo) (header : RawHeader)
    (s : StoreState) : Prop where
  resolved : ∀ h ∈ header.imageHdus,
    ∃ f, resolve h ctx.mapping ctx.site = .ok f ∧ columnsAccepted f = true
  stored : (storeFile ctx now info header s).1 = .ok ()
  status : ∃ r, (storeFile ctx now info header s).2.db.files.get info.key = some r ∧
    r.status = .ok

/-- **Indexable headers, exactly.**  By a worker whose ids refer to rows, a file whose own columns
the server takes is indexed if and only if the cards of each of its image HDUs fit. -/
theorem indexed_iff {now : Micros} {info : FileInfo} {header : RawHeader}
    (hclear : Host.fits 32 "CLEAR".toList = true) (hs : EquipReady ctx.registry s)
    (hinfo : info.accepted = true) :
    Indexed ctx now info header s ↔
      ∀ h ∈ header.imageHdus, FieldsFit ctx.mapping ctx.site h ∧ cardsAccepted h.cards = true := by
  simp only [← resolve_accepted_iff hclear]
  constructor
  · intro h
    exact (storeFile_ok_iff hs hinfo).mp h.stored
  · intro h
    have hstored : (storeFile ctx now info header s).1 = .ok () :=
      (storeFile_ok_iff hs hinfo).mpr h
    refine ⟨fun hdu hh => (h hdu hh).1, hstored, ?_⟩
    obtain ⟨hfiles, -⟩ := storeFile_ok (Prod.ext hstored rfl)
    rw [hfiles, Table.get_upsert_self]
    refine ⟨_, rfl, ?_⟩
    cases s.db.files.get info.key <;> rfl

end Ready

/-! ### One coordinate card -/

section Cards

attribute [local instance] plainHost

/-- A worker that has just loaded the registry of a database without equipment. -/
def freshContext : StoreContext :=
  ⟨HeaderMapping.defaults, {}, EquipmentRegistry.load (IndexDb.blank {})⟩

def raInfo : FileInfo :=
  ⟨1, "m101.fits".toList, "m101.fits".toList, "fits".toList, .fits, .lights, some 2880, none, none,
    true⟩

def raHdu (ra : Str) : Hdu := ⟨0, true, 16, 2, 10, 10, [⟨"RA".toList, ra, []⟩]⟩

def raHeader (ra : Str) : RawHeader := ⟨[raHdu ra], List.nodup_singleton _⟩

/-- A header with a right ascension of `05 30 56.25` is indexed. -/
theorem sexagesimal_indexed :
    Indexed freshContext 0 raInfo (raHeader "05 30 56.25".toList) ⟨IndexDb.blank {}, {}⟩ := by
  refine (indexed_iff rfl (equipReady_load ⟨by simp [IndexDb.blank], by simp [IndexDb.blank]⟩
    (by simp [IndexDb.blank])) rfl).mpr fun h hh => ⟨(resolve_accepted_iff rfl).mp ?_, ?_⟩
  all_goals
    have hh' : h = raHdu "05 30 56.25".toList := List.mem_singleton.mp hh
    subst hh'
  · refine ⟨{ raDeg := some (.fin (5295 / 64)), naxis1 := some 10, naxis2 := some 10 }, ?_, ?_⟩
    · decide +kernel
    · decide +kernel
  · decide

/-- With a right ascension of `1 2 .` the third `stod` throws, and the file is an error. -/
theorem point_not_indexed :
    ¬ Indexed freshContext 0 raInfo (raHeader "1 2 .".toList) ⟨IndexDb.blank {}, {}⟩ := by
  intro h
  obtain ⟨f, hf, -⟩ := h.resolved (raHdu "1 2 .".toList) (by decide)
  have herr : (resolve (raHdu "1 2 .".toList) HeaderMapping.defaults {}).isOk = false := by
    decide +kernel
  rw [show resolve (raHdu "1 2 .".toList) HeaderMapping.defaults {} = .ok f from hf] at herr
  cases herr

end Cards

end StarBase
