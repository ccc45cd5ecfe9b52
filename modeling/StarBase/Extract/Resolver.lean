import StarBase.Extract.Number
import StarBase.Fits
import StarBase.Names.Canon

/-!
# From header cards to frame columns

The resolver turns the cards of an image HDU into the columns the database promotes, driven by the
header mapping: which keywords to try for a field, and how to normalize a value.

`int` arithmetic wraps and conversions to `int` behave as on x86-64.  `timegm` and `gmtime_r` are the
proleptic Gregorian calendar; their failures on years that a `tm` cannot hold are left out.
-/

namespace StarBase.Extract

open Rounding

/-! ### The mapping -/

inductive MatchMode
  | exact
  | contains
  | regex
  deriving DecidableEq, Repr

structure ValueRule where
  raw : Str
  normalized : Str
  mode : MatchMode
  deriving DecidableEq, Repr

/-- Candidate keywords and normalization rules of each field, both in priority order. -/
structure HeaderMapping where
  keywords : List (Str × List Str)
  values : List (Str × List ValueRule)

inductive ImageType
  | unknown
  | light
  | dark
  | flat
  | bias
  | darkflat
  | master
  deriving DecidableEq, Repr

structure ResolvedFrame where
  imageType : ImageType := .unknown
  object : Option Str := none
  objectCanonical : Option Str := none
  raDeg : Option Dbl := none
  decDeg : Option Dbl := none
  dateObsUtc : Option Str := none
  sessionNight : Option Str := none
  exposureS : Option Dbl := none
  instrumeRaw : Option Str := none
  telescopeRaw : Option Str := none
  focalLenMm : Option Dbl := none
  filterRaw : Option Str := none
  filterDefaulted : Bool := false
  gain : Option Int := none
  offsetAdu : Option Int := none
  binx : Option Int := none
  biny : Option Int := none
  naxis1 : Option Int := none
  naxis2 : Option Int := none
  ccdTempC : Option Dbl := none
  setTempC : Option Dbl := none
  airmass : Option Dbl := none
  sqmMagArcsec2 : Option Dbl := none
  sqmSensor : Option Str := none
  sqmTimeUtc : Option Str := none
  sqmDtS : Option Int := none
  pierSide : Option Str := none
  rowOrder : Option Str := none
  hasDate : Bool := false
  deriving DecidableEq

structure SiteContext where
  utcOffsetHours : ℚ := 0

/-! ### Helpers -/

def isTrimChar (c : Char) : Bool := c = ' ' || c = '\t' || c = '\r' || c = '\n'

def trim (s : Str) : Str := stripBoth isTrimChar s

/-- The first present, non-blank value among the field's candidate keywords. -/
def resolveRaw (h : Hdu) (m : HeaderMapping) (field : Str) : Option Str :=
  match m.keywords.lookup field with
  | none => none
  | some kws => kws.findSome? fun kw =>
    match h.get kw with
    | none => none
    | some v => if trim v = [] then none else some (trim v)

def ruleMatches [Host] (raw : Str) (rule : ValueRule) : Bool :=
  match rule.mode with
  | .exact => lower raw = lower rule.raw
  | .contains => hasSubstring (lower rule.raw) (lower raw)
  | .regex => (Host.regexSearch rule.raw raw).getD false

/-- The value of the first rule that matches, or the raw value. -/
def normalizeValue [Host] (m : HeaderMapping) (field raw : Str) : Str :=
  match m.values.lookup field with
  | none => raw
  | some rs => ((rs.find? (ruleMatches raw)).map ValueRule.normalized).getD raw

def isSexSep (c : Char) : Bool := isSpaceChar c || c = ':'

/-- Sign and three fields of a sexagesimal coordinate. -/
def sexagesimal (s : Str) : Option (Bool × Str × Str × Str) :=
  let signed := match s with
    | '-' :: cs => (true, cs)
    | '+' :: cs => (false, cs)
    | cs => (false, cs)
  let body := signed.2.dropWhile isSpaceChar
  let a := body.takeWhile Char.isDigit
  let afterA := body.dropWhile Char.isDigit
  let bBody := afterA.dropWhile isSexSep
  let b := bBody.takeWhile Char.isDigit
  let afterB := bBody.dropWhile Char.isDigit
  let c := (afterB.dropWhile isSexSep).takeWhile fun ch => ch.isDigit || ch = '.'
  if a = [] ∨ (afterA.takeWhile isSexSep) = [] ∨ b = [] ∨ (afterB.takeWhile isSexSep) = [] ∨ c = []
  then none
  else some (signed.1, a, b, c)

/-- The degrees of three fields, each operation in the arithmetic. -/
def sexValue (arith : ℚ → Dbl) (neg isRa : Bool) (a b c : Dbl) : Dbl :=
  let sum := Dbl.add arith (Dbl.add arith a (b.scale arith (1 / 60))) (c.scale arith (1 / 3600))
  let deg := sum.scale arith (if neg then -1 else 1)
  if isRa then deg.scale arith 15 else deg

/-- A decimal is degrees as it is; a sexagesimal right ascension is in hours.  The three `stod`
calls on the fields are not guarded. -/
def parseCoordIn (arith : ℚ → Dbl) (value : Str) (isRa : Bool) : Except Thrown (Option Dbl) :=
  let s := trim value
  if s = [] then .ok none
  else match toDoubleIn arith s with
    | some d => .ok (some d)
    | none =>
      match sexagesimal s with
      | none => .ok none
      | some (neg, a, b, c) => do
        let da ← stodIn arith a
        let db ← stodIn arith b
        let dc ← stodIn arith c
        .ok (some (sexValue arith neg isRa da.1 db.1 dc.1))

/-- `parse_coord`. -/
def parseCoord : Str → Bool → Except Thrown (Option Dbl) := parseCoordIn .round

/-! ### The observing night -/

/-- What `strtol` reads, with its exact value: blanks, a sign, digits. -/
def scanInteger (s : Str) : Option (Int × Str) :=
  let signed := match s.dropWhile isSpaceChar with
    | '-' :: cs => (true, cs)
    | '+' :: cs => (false, cs)
    | cs => (false, cs)
  let digits := signed.2.takeWhile Char.isDigit
  if digits = [] then none
  else
    let n : Int := digitsValue 10 digits
    some (if signed.1 then -n else n, signed.2.dropWhile Char.isDigit)

/-- What an `int` keeps of a number that is read: the low 32 bits of the nearest `long`. -/
def storedInt (n : Int) : Int := toInt32 (max (-(2 ^ 63)) (min n (2 ^ 63 - 1)))

/-- `%d`. -/
def scanInt (s : Str) : Option (Int × Str) :=
  (scanInteger s).map fun nr => (storedInt nr.1, nr.2)

/-- A literal character of the format; a blank matches any run of blanks. -/
def scanLit (c : Char) (s : Str) : Option Str :=
  if c = ' ' then some (s.dropWhile isSpaceChar)
  else match s with
    | d :: ds => if d = c then some ds else none
    | [] => none

structure CivilTime where
  year : Int
  month : Int
  day : Int
  hour : Int
  minute : Int
  second : Int
  deriving DecidableEq, Repr

/-- `static_cast<int>` of a double; what no `int` holds gives the least one. -/
def truncate : Dbl → Int
  | .fin q =>
    let n := if q < 0 then -⌊-q⌋ else ⌊q⌋
    if -(2 ^ 31) ≤ n ∧ n < 2 ^ 31 then n else -(2 ^ 31)
  | _ => -(2 ^ 31)

/-- `:%lf`, cut to whole seconds; the seconds are read as a double, and stay zero if there are none. -/
def scanSeconds (s : Str) : Int :=
  match (scanLit ':' s).bind scanDouble with
  | some (.fin q, _) => truncate (.round q)
  | some (d, _) => truncate d
  | none => 0

/-- `sscanf` with `%d-%d-%d<sep>%d:%d:%lf`, at least five fields read. -/
def scanDateTime (sep : Char) (s : Str) : Option CivilTime := do
  let (y, s) ← scanInt s
  let (mo, s) ← scanInt (← scanLit '-' s)
  let (d, s) ← scanInt (← scanLit '-' s)
  let (h, s) ← scanInt (← scanLit sep s)
  let (mi, s) ← scanInt (← scanLit ':' s)
  some ⟨y, mo, d, h, mi, scanSeconds s⟩

/-- Days from 1970-01-01 to a civil date; the year starts in March for the count. -/
def daysFromCivil (y m d : Int) : Int :=
  let y' := if m ≤ 2 then y - 1 else y
  let era := y' / 400
  let yoe := y' - era * 400
  let doy := (153 * (if m > 2 then m - 3 else m + 9) + 2) / 5 + d - 1
  let doe := yoe * 365 + yoe / 4 - yoe / 100 + doy
  era * 146097 + doe - 719468

/-- The civil date a day number falls on. -/
def civilFromDays (z : Int) : Int × Int × Int :=
  let z' := z + 719468
  let era := z' / 146097
  let doe := z' - era * 146097
  let yoe := (doe - doe / 1460 + doe / 36524 - doe / 146096) / 365
  let doy := doe - (365 * yoe + yoe / 4 - yoe / 100)
  let mp := (5 * doy + 2) / 153
  let d := doy - (153 * mp + 2) / 5 + 1
  let m := if mp < 10 then mp + 3 else mp - 9
  (if m ≤ 2 then yoe + era * 400 + 1 else yoe + era * 400, m, d)

/-- `timegm` of the fields of a `tm`, which carries months beyond the year's end.  A `tm` holds the
years since 1900 and the months since January, each in an `int`. -/
def timegm (t : CivilTime) : Int :=
  let year := toInt32 (t.year - 1900) + 1900
  let mon := toInt32 (t.month - 1)
  (daysFromCivil (year + mon / 12) (mon % 12 + 1) 1 + (t.day - 1)) * 86400 + t.hour * 3600 +
    t.minute * 60 + t.second

def padLeft (n : ℕ) (s : Str) : Str := List.replicate (n - s.length) '0' ++ s

/-- `%0nd`. -/
def padInt (n : ℕ) (i : Int) : Str :=
  if i < 0 then '-' :: padLeft (n - 1) (natText i.natAbs) else padLeft n (natText i.natAbs)

/-- The civil date, in local time, of the noon a moment's night began after; its year is printed as
an `int`. -/
def nightOf (dateObsUtc : Str) (utcOffsetHours : ℚ) : Option Str :=
  match (scanDateTime 'T' dateObsUtc).orElse fun _ => scanDateTime ' ' dateObsUtc with
  | none => none
  | some t =>
    let utc := timegm t
    if utc = -1 then none
    else
      let shifted := utc + roundHalfAway (binary64 (utcOffsetHours * 3600)) - 12 * 3600
      let (y, m, d) := civilFromDays (shifted / 86400)
      some (padInt 4 (toInt32 y) ++ '-' :: padInt 2 m ++ '-' :: padInt 2 d)

/-- Trim, drop a trailing `Z`, keep at most six fractional digits. -/
def normalizeDateObs (raw : Str) : Str :=
  let s := trim raw
  let s := if s.getLast? = some 'Z' ∨ s.getLast? = some 'z' then s.dropLast else s
  let dot := s.takeWhile (· ≠ '.')
  if dot.length < s.length ∧ 6 < s.length - dot.length - 1 then s.take (dot.length + 7) else s

def classify (normalized : Str) : ImageType :=
  if normalized = "light".toList then .light
  else if normalized = "dark".toList then .dark
  else if normalized = "flat".toList then .flat
  else if normalized = "bias".toList then .bias
  else if normalized = "darkflat".toList then .darkflat
  else if normalized = "master".toList then .master
  else .unknown

/-! ### `resolve` -/

section Resolve

variable [Host] (h : Hdu) (m : HeaderMapping) (site : SiteContext)

def resolveImageType : ImageType :=
  match resolveRaw h m "image_type".toList with
  | some raw => classify (normalizeValue m "image_type".toList raw)
  | none => .unknown

/-- The object as written and its canonical form; a name that normalizes to nothing is none. -/
def resolveObject : Option Str × Option Str :=
  match resolveRaw h m "object".toList with
  | none => (none, none)
  | some raw =>
    let norm := normalizeValue m "object".toList raw
    if norm = [] then (none, none)
    else
      let c := Names.canonicalize norm
      (some norm, if c.placeholder then none else some c.canonical)

def resolveCoord (field : Str) (isRa : Bool) : Except Thrown (Option Dbl) :=
  match resolveRaw h m field with
  | some raw => parseCoord raw isRa
  | none => .ok none

/-- The filter, and whether `CLEAR` was put in for a light or flat without one. -/
def resolveFilter (t : ImageType) : Option Str × Bool :=
  let written := match resolveRaw h m "filter".toList with
    | some raw =>
      let norm := normalizeValue m "filter".toList raw
      if norm = [] then none else some norm
    | none => none
  match written with
  | some f => (some f, false)
  | none => if t = .light ∨ t = .flat then (some "CLEAR".toList, true) else (none, false)

def doubleField (field : Str) : Option Dbl := (resolveRaw h m field).bind toDouble

def intField (field : Str) : Option Int := (resolveRaw h m field).bind toIntRound

/-- The columns of one image HDU. -/
def resolve : Except Thrown ResolvedFrame := do
  let imageType := resolveImageType h m
  let date := (resolveRaw h m "date_obs".toList).map normalizeDateObs
  let object := resolveObject h m
  let ra ← resolveCoord h m "ra".toList true
  let dec ← resolveCoord h m "dec".toList false
  let filter := resolveFilter h m imageType
  .ok
    { imageType := imageType
      object := object.1
      objectCanonical := object.2
      raDeg := ra
      decDeg := dec
      dateObsUtc := date
      sessionNight := date.bind fun d => nightOf d site.utcOffsetHours
      exposureS := doubleField h m "exposure_s".toList
      instrumeRaw := resolveRaw h m "instrument".toList
      telescopeRaw := resolveRaw h m "telescope".toList
      focalLenMm := doubleField h m "focal_len_mm".toList
      filterRaw := filter.1
      filterDefaulted := filter.2
      gain := intField h m "gain".toList
      offsetAdu := intField h m "offset_adu".toList
      binx := intField h m "binx".toList
      biny := intField h m "biny".toList
      naxis1 := if 0 < h.naxis1 then some (toInt32 h.naxis1) else none
      naxis2 := if 0 < h.naxis2 then some (toInt32 h.naxis2) else none
      ccdTempC := doubleField h m "ccd_temp_c".toList
      setTempC := doubleField h m "set_temp_c".toList
      airmass := doubleField h m "airmass".toList
      sqmMagArcsec2 := doubleField h m "sqm".toList
      sqmSensor := resolveRaw h m "sqm_sensor".toList
      sqmTimeUtc := (resolveRaw h m "sqm_time".toList).bind fun raw =>
        if normalizeDateObs raw = [] then none else some (normalizeDateObs raw)
      sqmDtS := intField h m "sqm_dt_s".toList
      pierSide := (resolveRaw h m "pier_side".toList).map (normalizeValue m "pier_side".toList)
      rowOrder := (resolveRaw h m "row_order".toList).map (normalizeValue m "row_order".toList)
      hasDate := date.isSome }

end Resolve

/-! ### The built-in mapping -/

/-- The mapping used when the database holds none. -/
def HeaderMapping.defaults : HeaderMapping where
  keywords :=
    [ ("date_obs".toList, ["DATE-OBS".toList, "DATE_OBS".toList]),
      ("exposure_s".toList, ["EXPTIME".toList, "EXPOSURE".toList]),
      ("gain".toList, ["GAIN".toList, "GAINRAW".toList, "GAINADU".toList]),
      ("offset_adu".toList, ["OFFSET".toList, "BLKLEVEL".toList]),
      ("binx".toList, ["XBINNING".toList, "CCDXBIN".toList]),
      ("biny".toList, ["YBINNING".toList, "CCDYBIN".toList]),
      ("set_temp_c".toList, ["SET-TEMP".toList]),
      ("ccd_temp_c".toList, ["CCD-TEMP".toList]),
      ("focal_len_mm".toList, ["FOCALLEN".toList]),
      ("instrument".toList, ["INSTRUME".toList, "CAMERA".toList]),
      ("telescope".toList, ["TELESCOP".toList]),
      ("image_type".toList, ["IMAGETYP".toList, "FRAME".toList, "PICTTYPE".toList]),
      ("object".toList, ["OBJECT".toList]),
      ("ra".toList, ["RA".toList, "OBJCTRA".toList]),
      ("dec".toList, ["DEC".toList, "OBJCTDEC".toList]),
      ("filter".toList, ["FILTER".toList]),
      ("airmass".toList, ["AIRMASS".toList]),
      ("sqm".toList, ["SQM".toList]),
      ("sqm_sensor".toList, ["SQMSRC".toList]),
      ("sqm_time".toList, ["SQMTIME".toList]),
      ("sqm_dt_s".toList, ["SQMDT".toList]),
      ("pier_side".toList, ["PIERSIDE".toList]),
      ("row_order".toList, ["ROWORDER".toList]) ]
  values :=
    [ ("image_type".toList,
        [ ⟨"flatdark".toList, "darkflat".toList, .contains⟩,
          ⟨"dark flat".toList, "darkflat".toList, .contains⟩,
          ⟨"darkflat".toList, "darkflat".toList, .contains⟩,
          ⟨"Master Dark".toList, "master".toList, .exact⟩,
          ⟨"master".toList, "master".toList, .contains⟩,
          ⟨"integration".toList, "master".toList, .contains⟩,
          ⟨"stack".toList, "master".toList, .contains⟩,
          ⟨"LIGHT".toList, "light".toList, .exact⟩,
          ⟨"Light".toList, "light".toList, .exact⟩,
          ⟨"Light Frame".toList, "light".toList, .exact⟩,
          ⟨"DARK".toList, "dark".toList, .exact⟩,
          ⟨"Dark".toList, "dark".toList, .exact⟩,
          ⟨"Dark Frame".toList, "dark".toList, .exact⟩,
          ⟨"FLAT".toList, "flat".toList, .exact⟩,
          ⟨"Flat".toList, "flat".toList, .exact⟩,
          ⟨"Flat Field".toList, "flat".toList, .exact⟩,
          ⟨"Bias".toList, "bias".toList, .exact⟩,
          ⟨"Bias Frame".toList, "bias".toList, .exact⟩,
          ⟨"BIAS".toList, "bias".toList, .exact⟩,
          ⟨"zero".toList, "bias".toList, .contains⟩ ]),
      ("filter".toList,
        [ ⟨"!Shutter!".toList, [], .exact⟩,
          ⟨"DARK".toList, [], .exact⟩,
          ⟨"None".toList, [], .exact⟩ ]),
      ("object".toList, [⟨"FlatWizard".toList, [], .exact⟩]),
      ("pier_side".toList,
        [⟨"East".toList, "east".toList, .exact⟩, ⟨"West".toList, "west".toList, .exact⟩]),
      ("row_order".toList,
        [ ⟨"TOP-DOWN".toList, "top-down".toList, .exact⟩,
          ⟨"BOTTOM-UP".toList, "bottom-up".toList, .exact⟩ ]) ]

/-! ### What the resolver reads -/

section Congr

variable [Host] {m m' : HeaderMapping}

omit [Host] in
theorem resolveRaw_congr (h : Hdu) {f : Str} (hf : m.keywords.lookup f = m'.keywords.lookup f) :
    resolveRaw h m f = resolveRaw h m' f := by
  unfold resolveRaw
  rw [hf]

/-- A field without rules has the empty list of rules. -/
theorem normalizeValue_eq (m : HeaderMapping) (f raw : Str) : normalizeValue m f raw =
    (((((m.values.lookup f).getD []).find? (ruleMatches raw)).map ValueRule.normalized).getD raw) := by
  unfold normalizeValue
  cases m.values.lookup f <;> rfl

/-- The resolver asks a mapping for the fields that the built-in one has, and for no others. -/
theorem resolve_congr (h : Hdu) (site : SiteContext)
    (hk : ∀ e ∈ HeaderMapping.defaults.keywords, m.keywords.lookup e.1 = m'.keywords.lookup e.1)
    (hv : ∀ e ∈ HeaderMapping.defaults.values, ∀ raw,
      normalizeValue m e.1 raw = normalizeValue m' e.1 raw) :
    resolve h m site = resolve h m' site := by
  have hraw : ∀ f ∈ HeaderMapping.defaults.keywords.map Prod.fst,
      resolveRaw h m f = resolveRaw h m' f := by
    intro f hf
    obtain ⟨e, he, rfl⟩ := List.mem_map.mp hf
    exact resolveRaw_congr h (hk e he)
  have hnorm : ∀ f ∈ HeaderMapping.defaults.values.map Prod.fst,
      normalizeValue m f = normalizeValue m' f := by
    intro f hf
    obtain ⟨e, he, rfl⟩ := List.mem_map.mp hf
    funext raw
    exact hv e he raw
  have hdouble : ∀ f ∈ HeaderMapping.defaults.keywords.map Prod.fst,
      doubleField h m f = doubleField h m' f := by
    intro f hf
    unfold doubleField
    rw [hraw f hf]
  have hint : ∀ f ∈ HeaderMapping.defaults.keywords.map Prod.fst,
      intField h m f = intField h m' f := by
    intro f hf
    unfold intField
    rw [hraw f hf]
  have htype : resolveImageType h m = resolveImageType h m' := by
    unfold resolveImageType
    rw [hraw _ (by decide), hnorm _ (by decide)]
  have hobject : resolveObject h m = resolveObject h m' := by
    unfold resolveObject
    rw [hraw _ (by decide), hnorm _ (by decide)]
  have hfilter : ∀ t, resolveFilter h m t = resolveFilter h m' t := by
    intro t
    unfold resolveFilter
    rw [hraw _ (by decide), hnorm _ (by decide)]
  have hcoord : ∀ f ∈ HeaderMapping.defaults.keywords.map Prod.fst, ∀ isRa,
      resolveCoord h m f isRa = resolveCoord h m' f isRa := by
    intro f hf isRa
    unfold resolveCoord
    rw [hraw f hf]
  unfold resolve
  dsimp only
  rw [htype, hobject, hfilter, hcoord "ra".toList (by decide), hcoord "dec".toList (by decide),
    hraw "date_obs".toList (by decide), hdouble "exposure_s".toList (by decide),
    hraw "instrument".toList (by decide), hraw "telescope".toList (by decide),
    hdouble "focal_len_mm".toList (by decide), hint "gain".toList (by decide),
    hint "offset_adu".toList (by decide), hint "binx".toList (by decide),
    hint "biny".toList (by decide), hdouble "ccd_temp_c".toList (by decide),
    hdouble "set_temp_c".toList (by decide), hdouble "airmass".toList (by decide),
    hdouble "sqm".toList (by decide), hraw "sqm_sensor".toList (by decide),
    hraw "sqm_time".toList (by decide), hint "sqm_dt_s".toList (by decide),
    hraw "pier_side".toList (by decide), hnorm "pier_side".toList (by decide),
    hraw "row_order".toList (by decide), hnorm "row_order".toList (by decide)]

end Congr

example : nightOf "2026-07-25T03:00:00".toList 0 = some "2026-07-24".toList := by decide +kernel

end StarBase.Extract
