import StarBase.Api.Equipment

/-!
# Calibration rules

What the calibration matcher counts for a light: the frames of a rule's target type that satisfy
the rule's fields and its age limit, or the flats of the flat set that resolves for the light.

* `LightKey`, `lightKeyFor` — the light's side of a match;
* `trimNum` — the number a value becomes on its way into the query text;
* `FieldSpec`, `fieldHolds` — one field of a rule, as a condition on a light's and a frame's value;
* `resolveFlatSet` — the flat set a light should use;
* `matchRule`, `matchCalibration` — the frames counted for a light.

Frames are counted here; which of them come first is told apart, and so is the text of the statements.
-/

namespace StarBase.Match

open Relational Extract Api Rounding

/-! ### The light -/

structure LightKey where
  cameraId : Option Int := none
  rigId : Option Int := none
  filterId : Option Int := none
  gain : Option Int := none
  offsetAdu : Option Int := none
  binx : Option Int := none
  biny : Option Int := none
  setTempC : Option ℚ := none
  exposureS : Option ℚ := none
  rotatorDeg : Option ℚ := none
  readoutMode : Option Str := none
  dateObsUtc : Option Str := none
  sessionNight : Option Str := none
  deriving DecidableEq

/-- A value of a matched column. -/
inductive Value
  | num (q : ℚ)
  | text (s : Str)
  deriving DecidableEq

/-- `f.rotator_deg`, `f.readout_mode` and `f.master_of`: no statement writes these columns. -/
def rotatorDeg (_ : FrameRow) : Option ℚ := none

def readoutMode (_ : FrameRow) : Option Str := none

/-- What a `DECIMAL(p,s)` column holds of a resolved value. -/
def decimalColumn (s : ℕ) : Option Dbl → Option ℚ
  | some (.fin q) => some (storedDecimal s q)
  | _ => none

/-- A light's fields from its frame; nothing for a frame that is no light. -/
def lightKeyFor (frames : List FrameRow) (frameId : ℕ) : Option LightKey :=
  match frames.find? fun f => f.id = frameId with
  | none => none
  | some f =>
    if f.cols.imageType = .light then some
      { cameraId := f.equip.cameraId.map Int.ofNat
        rigId := f.equip.rigId.map Int.ofNat
        filterId := f.equip.filterId.map Int.ofNat
        gain := f.cols.gain
        offsetAdu := f.cols.offsetAdu
        binx := f.cols.binx
        biny := f.cols.biny
        setTempC := decimalColumn 2 f.cols.setTempC
        exposureS := decimalColumn 3 f.cols.exposureS
        rotatorDeg := rotatorDeg f
        readoutMode := readoutMode f
        dateObsUtc := f.cols.dateObsUtc
        sessionNight := f.cols.sessionNight }
    else none

/-- The light's value of a field. -/
def lightValue (L : LightKey) (field : Str) : Option Value :=
  let int := fun (o : Option Int) => o.map fun i => Value.num i
  if field = "camera_id".toList then int L.cameraId
  else if field = "rig_id".toList then int L.rigId
  else if field = "filter_id".toList then int L.filterId
  else if field = "gain".toList then int L.gain
  else if field = "offset_adu".toList then int L.offsetAdu
  else if field = "binx".toList then int L.binx
  else if field = "biny".toList then int L.biny
  else if field = "set_temp_c".toList then L.setTempC.map .num
  else if field = "exposure_s".toList then L.exposureS.map .num
  else if field = "rotator_deg".toList then L.rotatorDeg.map .num
  else if field = "readout_mode".toList then L.readoutMode.map .text
  else none

/-- The column of a frame with that name. -/
def column (f : FrameRow) (field : Str) : Option Value :=
  let int := fun (o : Option Int) => o.map fun i => Value.num i
  let id := fun (o : Option ℕ) => o.map fun i => Value.num i
  if field = "camera_id".toList then id f.equip.cameraId
  else if field = "rig_id".toList then id f.equip.rigId
  else if field = "filter_id".toList then id f.equip.filterId
  else if field = "gain".toList then int f.cols.gain
  else if field = "offset_adu".toList then int f.cols.offsetAdu
  else if field = "binx".toList then int f.cols.binx
  else if field = "biny".toList then int f.cols.biny
  else if field = "set_temp_c".toList then (decimalColumn 2 f.cols.setTempC).map .num
  else if field = "exposure_s".toList then (decimalColumn 3 f.cols.exposureS).map .num
  else if field = "rotator_deg".toList then (rotatorDeg f).map .num
  else if field = "readout_mode".toList then (readoutMode f).map .text
  else none

/-! ### Numbers in the query text -/

/-- The number that the text of a double denotes: a whole one is printed as a `long long`, any other
with six significant digits. -/
def trimNum (q : ℚ) : ℚ :=
  let d := binary64 q
  if d = ⌊d⌋ then if -(2 ^ 63) ≤ d ∧ d < 2 ^ 63 then d else -(2 ^ 63)
  else roundDigits 10 6 d

/-! ### The fields of a rule -/

inductive SpecKind
  | exact
  | exactNullOk
  | tol (tol : ℚ)
  deriving DecidableEq

/-- `parse_spec`. -/
def parseSpec (v : Json) : Except Thrown SpecKind :=
  match v with
  | .obj _ =>
    match v.at? "tol".toList with
    | some t => (getReal t).map .tol
    | none => do
      let nullOk ← v.valueBool "null_ok".toList false
      .ok (if nullOk then .exactNullOk else .exact)
  | _ => .ok .exact

def matchFields : List Str :=
  ["camera_id".toList, "rig_id".toList, "filter_id".toList, "gain".toList, "offset_adu".toList,
    "binx".toList, "biny".toList, "set_temp_c".toList, "exposure_s".toList, "rotator_deg".toList,
    "readout_mode".toList]

/-- The members the loop over the parsed document visits; only an object has keys. -/
def members : Json → Except Thrown (List (Str × Json))
  | .obj fields => .ok fields
  | .null => .ok []
  | .arr [] => .ok []
  | _ => .error (.json ("[json.exception.invalid_iterator.207] cannot use key() for non-object " ++
      "iterators").toList)

/-- The fields of a rule that are known, with their specs. -/
def ruleSpecs (spec : Json) : Except Thrown (List (Str × SpecKind)) := do
  let fields ← members spec
  (fields.filter fun m => matchFields.contains m.1).mapM fun m =>
    (parseSpec m.2).map fun s => (m.1, s)

/-- A text counts in arithmetic with the number it begins with. -/
def Value.number : Value → ℚ
  | .num q => q
  | .text s => match scanDouble s with
    | some (.fin q, _) => q
    | _ => 0

/-- The numeric member of a light's value, zero for a text. -/
def Value.dval : Value → ℚ
  | .num q => q
  | .text _ => 0

section Where

variable [Host]

/-- `col = v`, the light's number given as `print` renders it. -/
def sqlEq (print : ℚ → ℚ) (col v : Value) : Bool :=
  match col, v with
  | .num a, .num b => a = print b
  | .text a, .text b => Host.collate a = Host.collate b
  | _, _ => false

/-- Whether the clause of one field is true.  A comparison with `NULL` is not. -/
def fieldHolds (print : ℚ → ℚ) (s : SpecKind) (light col : Option Value) : Bool :=
  match light, col, s with
  | none, col, .exact => col.isNone
  | none, _, _ => true
  | some v, some c, .tol t => decide (|c.number - print v.dval| ≤ print t)
  | some v, some c, _ => sqlEq print c v
  | some _, none, .exactNullOk => true
  | some _, none, _ => false

/-! ### The rules -/

/-- `ENUM('dark','flat','bias','darkflat')`. -/
inductive CalType
  | dark
  | flat
  | bias
  | darkflat
  deriving DecidableEq, Repr

def CalType.text : CalType → Str
  | .dark => "dark".toList
  | .flat => "flat".toList
  | .bias => "bias".toList
  | .darkflat => "darkflat".toList

def CalType.imageType : CalType → ImageType
  | .dark => .dark
  | .flat => .flat
  | .bias => .bias
  | .darkflat => .darkflat

def masterOf (_ : FrameRow) : Option CalType := none

structure CalibrationRule where
  name : Str
  targetType : CalType
  /-- `match_json` as parsed, or the parser's message. -/
  matchJson : Except Str Json
  maxAgeDays : Option Int
  minFrames : Option Int

/-- Raw calibration of the type, and masters of it. -/
def isTarget (t : CalType) (f : FrameRow) : Bool :=
  f.cols.imageType = t.imageType || (f.cols.imageType = .master && masterOf f = some t)

/-- Whole days between two dates, as `TIMESTAMPDIFF` counts them. -/
def dayDistance (instant : Str → Option Micros) (a b : Str) : Option Int :=
  match instant a, instant b with
  | some x, some y => some (|y - x| / 86400000000)
  | _, _ => none

/-- The age limit; it applies when the light has a date. -/
def withinAge (instant : Str → Option Micros) (rule : CalibrationRule) (L : LightKey)
    (f : FrameRow) : Bool :=
  match rule.maxAgeDays, L.dateObsUtc, f.cols.dateObsUtc with
  | some days, some d, some x => (dayDistance instant x d).any fun n => decide (n ≤ days)
  | _, _, _ => true

/-- The whole condition of a rule's count. -/
def ruleWhere (instant : Str → Option Micros) (rule : CalibrationRule)
    (specs : List (Str × SpecKind)) (L : LightKey) (f : FrameRow) : Bool :=
  isTarget rule.targetType f &&
    specs.all (fun s => fieldHolds trimNum s.2 (lightValue L s.1) (column f s.1)) &&
    withinAge instant rule L f

/-! ### Flat sets -/

structure FlatSetPick where
  id : ℕ
  reason : Str
  deriving DecidableEq

/-- A set fits a light's filter when it is for all filters or for that one. -/
def fitsFilter (L : LightKey) (s : FlatSet) : Bool :=
  match s.filterId with
  | none => true
  | some i => L.filterId = some (i : Int)

/-- `a <= b` of two dates. -/
def onOrBefore (instant : Str → Option Micros) (a b : Str) : Bool :=
  match instant a, instant b with
  | some x, some y => decide (x ≤ y)
  | _, _ => false

/-- `ORDER BY [(filter_id IS NOT NULL) DESC,] captured_night DESC, id DESC`: whether `a` comes
before `b`. -/
def newer (instant : Str → Option Micros) (filtered : Bool) (a b : FlatSet) : Bool :=
  let night := fun (s : FlatSet) => s.capturedNight.bind instant
  if filtered && a.filterId.isSome ≠ b.filterId.isSome then a.filterId.isSome
  else match night a, night b with
    | some x, some y => if x = y then decide (b.id < a.id) else decide (y < x)
    | some _, none => true
    | none, some _ => false
    | none, none => decide (b.id < a.id)

/-- The first row in that order. -/
def newest (instant : Str → Option Micros) (filtered : Bool) (sets : List FlatSet) :
    Option FlatSet :=
  sets.foldl (fun best s => match best with
    | none => some s
    | some b => if newer instant filtered s b then some s else some b) none

/-- Whether a set's explicit window covers a night. -/
def windowCovers (instant : Str → Option Micros) (night : Str) (s : FlatSet) : Bool :=
  match s.validFrom, s.validTo with
  | some a, some b => onOrBefore instant a night && onOrBefore instant night b
  | some a, none => onOrBefore instant a night
  | none, _ => false

/-- A pick with its reason around the set's label. -/
def pickOf (before after : Str) (s : FlatSet) : FlatSetPick :=
  ⟨s.id, before ++ s.label ++ after⟩

/-- The flat set a light should use: a pin of its rig and night; for a rig with a site the set whose
window covers the night, the newest on or before it, or the rig's active set; for a rig without one
the set of the same night. -/
def resolveFlatSet (instant : Str → Option Micros) (db : EquipDb) (L : LightKey) :
    Option FlatSetPick := do
  let rigId ← L.rigId
  let isRig := fun (i : ℕ) => decide ((i : Int) = rigId)
  let fits := db.flatSets.rows.filter (fitsFilter L)
  let ofRig := fits.filter fun s => isRig s.rigId
  let filtered := L.filterId.isSome
  let pinned := L.sessionNight.bind fun night =>
    (db.pins.findSome? fun p => match p.scope with
      | .rigNight r n => if isRig r && n = night then fits.find? (fun s => s.id = p.flatSetId)
        else none
      | .savedQuery _ => none).map
    (pickOf "pinned flat set '".toList ("' for ".toList ++ night))
  match pinned with
  | some p => some p
  | none => do
    let rig ← db.rigs.rows.find? fun r => isRig r.id
    if rig.siteId.isSome then
      let windowed := L.sessionNight.bind fun night =>
        (newest instant filtered (ofRig.filter (windowCovers instant night))).map
          (pickOf "flat set '".toList ("' (window covers ".toList ++ night ++ ")".toList))
      let onBefore := L.sessionNight.bind fun night =>
        (newest instant filtered (ofRig.filter fun s =>
          s.capturedNight.all fun n => onOrBefore instant n night)).map
          (pickOf "flat set '".toList ("' (newest on/before ".toList ++ night ++
            ", fixed rig)".toList))
      let active := rig.activeFlatSetId.bind fun i => (fits.find? fun s => s.id = i).map
        (pickOf "active flat set '".toList "' (fixed rig)".toList)
      windowed.or (onBefore.or active)
    else
      L.sessionNight.bind fun night =>
        (newest instant filtered (ofRig.filter fun s => s.capturedNight.any fun n =>
          onOrBefore instant n night && onOrBefore instant night n)).map
          (pickOf "flat set '".toList ("' from the same session (".toList ++ night ++ ")".toList))

/-- The flats of a set for the light's filter. -/
def inFlatSet (L : LightKey) (pick : FlatSetPick) (f : FrameRow) : Bool :=
  f.flatSetId = some pick.id && (L.filterId.isNone || f.equip.filterId.isNone ||
    f.equip.filterId.map Int.ofNat = L.filterId)

/-! ### `match_calibration` -/

/-- The result of one rule, with the frames it counts. -/
structure MatchResult where
  targetType : CalType
  ruleName : Str
  counted : List FrameRow
  warning : Str

def MatchResult.total (r : MatchResult) : ℕ := r.counted.length

/-- The warning beside a count. -/
def countWarning (rule : CalibrationRule) (n : ℕ) : Str :=
  if n = 0 then "no matching ".toList ++ rule.targetType.text ++ " frames found".toList
  else match rule.minFrames with
    | some m =>
      if (n : Int) < m then "only ".toList ++ natText n ++ " ".toList ++ rule.targetType.text ++
        " frames (rule suggests at least ".toList ++ (toString m).toList ++ ")".toList
      else []
    | none => []

/-- The frames one rule counts for a light.  A document that does not parse is a warning; one of
another shape throws. -/
def matchRule (instant : Str → Option Micros) (db : EquipDb) (L : LightKey)
    (rule : CalibrationRule) : Except Thrown MatchResult :=
  match rule.matchJson with
  | .error _ => .ok ⟨rule.targetType, rule.name, [], "rule has invalid match_json".toList⟩
  | .ok spec =>
    match if rule.targetType = .flat then resolveFlatSet instant db L else none with
    | some pick =>
      let counted := db.frames.rows.filter (inFlatSet L pick)
      .ok ⟨rule.targetType, rule.name ++ " (flat set)".toList, counted,
        if counted = [] then "flat set resolved, but it has no flats for this filter".toList else []⟩
    | none => do
      let specs ← ruleSpecs spec
      let counted := db.frames.rows.filter (ruleWhere instant rule specs L)
      .ok ⟨rule.targetType, rule.name, counted, countWarning rule counted.length⟩

/-- One result for each enabled rule, in the order of their priorities. -/
def matchCalibration (instant : Str → Option Micros) (db : EquipDb) (rules : List CalibrationRule)
    (L : LightKey) : Except Thrown (List MatchResult) :=
  rules.mapM (matchRule instant db L)

end Where

example : trimNum (1234567 / 1000) = 123457 / 100 := by decide +kernel

end StarBase.Match
