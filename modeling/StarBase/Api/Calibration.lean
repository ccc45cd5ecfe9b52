import StarBase.Api.Reading

/-!
# The calibration of a frame, statement by statement

`GET /frames/:id/calibration` reads the light, the enabled rules, and for each rule the frames it
matches.

* `trimNumText` — a number as the matcher prints it into a text;
* `lightKeyFor`, `lightValue` — the light's side of a match;
* `resolveFlatSet` — the flat set that takes the place of a rule's ranking;
* `fieldClause`, `ruleWhere`, `ruleOrder` — the condition and the order of a rule;
* `matchRule`, `matchCalibration` — one answer for each rule;
* `matchCalibration_readOnly` — **PROVED**: all of it only reads.

Which frames match is the subject of the modules on the matcher; here it is which statements are
sent.
-/

namespace StarBase.Api

open Statements Query Extract Rounding

/-! ### Numbers in the text -/

/-- The digits after the point, without the zeros at the end. -/
def fractionDigits (s : Str) : Str :=
  match (s.reverse.dropWhile (· = '0')).reverse with
  | [] => []
  | ds => '.' :: ds

/-- `operator<<` of a positive double: six significant digits, with an exponent below `10 ^ -4` and
from `10 ^ 6` on. -/
def sixDigits (q : ℚ) : Str :=
  let r := roundDigits 10 6 q
  let e := Int.log 10 r
  let digits := natText (r / 10 ^ (e - 5)).floor.toNat
  if e < -4 ∨ 6 ≤ e then
    digits.take 1 ++ fractionDigits (digits.drop 1) ++ (if e < 0 then "e-" else "e+").toList ++
      padLeft 2 (natText e.natAbs)
  else if e < 0 then
    '0' :: fractionDigits (List.replicate (e.natAbs - 1) '0' ++ digits)
  else digits.take (e.toNat + 1) ++ fractionDigits (digits.drop (e.toNat + 1))

/-- `trim_num`: a whole double as a `long long`. -/
def trimNumText : Dbl → Str
  | .fin q =>
    if q = ⌊q⌋ then (intNumeral (if -(2 ^ 63) ≤ q ∧ q < 2 ^ 63 then ⌊q⌋ else -(2 ^ 63))).text
    else if q < 0 then '-' :: sixDigits (-q)
    else sixDigits q
  | .inf _ => (intNumeral (-(2 ^ 63))).text
  | .nan => "nan".toList

example : trimNumText (.fin (12345678 / 10)) = "1.23457e+06".toList ∧
    trimNumText (.fin (5 / 2)) = "2.5".toList ∧
    trimNumText (.fin (-1 / 32768)) = "-3.05176e-05".toList := by decide +kernel

/-! ### The light -/

/-- A value of the light. -/
inductive FieldVal
  | num (d : Dbl)
  | text (s : Str)

structure LightKey where
  cameraId : Option Int
  rigId : Option Int
  filterId : Option Int
  gain : Option Int
  offsetAdu : Option Int
  binx : Option Int
  biny : Option Int
  setTempC : Option Dbl
  exposureS : Option Dbl
  rotatorDeg : Option Dbl
  readoutMode : Option Str
  dateObsUtc : Option Str
  sessionNight : Option Str

/-- `as_int`. -/
def asInt (r : Row) (i : ℕ) : Except Thrown (Option Int) :=
  match Row.col r i with
  | none => .ok none
  | some s => (parseInt s).map some

/-- `as_dbl`. -/
def asDbl (r : Row) (i : ℕ) : Except Thrown (Option Dbl) :=
  match Row.col r i with
  | none => .ok none
  | some s => (stod s).map fun d => some d.1

/-- The light in a row of the first statement. -/
def lightOfRow (r : Row) : Except Thrown LightKey := do
  pure
    { cameraId := ← asInt r 1
      rigId := ← asInt r 2
      filterId := ← asInt r 3
      gain := ← asInt r 4
      offsetAdu := ← asInt r 5
      binx := ← asInt r 6
      biny := ← asInt r 7
      setTempC := ← asDbl r 8
      exposureS := ← asDbl r 9
      rotatorDeg := ← asDbl r 10
      readoutMode := Row.col r 11
      dateObsUtc := Row.col r 12
      sessionNight := Row.col r 13 }

/-- `light_value`. -/
def lightValue (field : Str) (L : LightKey) : Option FieldVal :=
  let int := fun (o : Option Int) => o.map fun i => FieldVal.num (.fin i)
  if field = "camera_id".toList then int L.cameraId
  else if field = "rig_id".toList then int L.rigId
  else if field = "filter_id".toList then int L.filterId
  else if field = "gain".toList then int L.gain
  else if field = "offset_adu".toList then int L.offsetAdu
  else if field = "binx".toList then int L.binx
  else if field = "biny".toList then int L.biny
  else if field = "set_temp_c".toList then L.setTempC.map .num
  else if field = "exposure_s".toList then L.exposureS.map .num
  else if field = "rotator_deg".toList then L.rotatorDeg.map .num
  else if field = "readout_mode".toList then L.readoutMode.map .text
  else none

/-! ### Texts of a rule -/

/-- A value of the light in a text, in a reason, and as a number: zero for a string. -/
def FieldVal.part : FieldVal → Part
  | .num d => .number (trimNumText d)
  | .text s => .quoted s

def FieldVal.disp : FieldVal → Str
  | .num d => trimNumText d
  | .text s => s

def FieldVal.dval : FieldVal → Dbl
  | .num d => d
  | .text _ => .fin 0

/-- The clause of one field.  Where the light has no value, only an exact field asks for `NULL`. -/
def fieldClause (field : Str) : Match.SpecKind → Option FieldVal → List Part
  | .exact, none => [.fixed " AND f.", .columns [field], .fixed " IS NULL"]
  | _, none => []
  | .exact, some v => [.fixed " AND f.", .columns [field], .fixed " = ", v.part]
  | .exactNullOk, some v =>
    [.fixed " AND (f.", .columns [field], .fixed " = ", v.part, .fixed " OR f.", .columns [field],
      .fixed " IS NULL)"]
  | .tol t, some v =>
    [.fixed " AND ABS(f.", .columns [field], .fixed " - ", .number (trimNumText v.dval),
      .fixed ") <= ", .number (trimNumText (.round t))]

/-- What a field adds to the reason. -/
def fieldReason (field : Str) : Match.SpecKind → Option FieldVal → List Str
  | _, none => []
  | .tol t, some v =>
    [field ++ ' ' :: (trimNumText v.dval ++ "\xc2\xb1".toList ++ trimNumText (.round t))]
  | _, some v => [field ++ ' ' :: v.disp]

/-- The target frames: raw calibration of the type, plus masters of it. -/
def targetClause (targetType : Str) : List Part :=
  [.fixed "(f.image_type = ", .quoted targetType,
    .fixed " OR (f.image_type = 'master' AND f.master_of = ", .quoted targetType, .fixed "))"]

/-- The age limit, when there is one and the light has a date. -/
def ageClause (maxAge : Option Int) (date : Option Str) : List Part :=
  match maxAge, date with
  | some days, some d =>
    [.fixed " AND (f.date_obs_utc IS NULL OR ABS(TIMESTAMPDIFF(DAY, f.date_obs_utc, ", .quoted d,
      .fixed ")) <= ", .int days, .fixed ")"]
  | _, _ => []

def ruleWhere (targetType : Str) (specs : List (Str × Match.SpecKind)) (maxAge : Option Int)
    (L : LightKey) : List Part :=
  targetClause targetType ++
    (specs.flatMap fun s => fieldClause s.1 s.2 (lightValue s.1 L)) ++
    ageClause maxAge L.dateObsUtc

/-- Masters first, then the same session, each if preferred, then the nearest in time. -/
def ruleOrder (preferMasters preferSession : Bool) (L : LightKey) : List Part :=
  (if preferMasters then [.fixed "(f.image_type = 'master') DESC, "] else []) ++
    (match preferSession, L.sessionNight with
      | true, some night => [.fixed "(f.session_night = ", .quoted night, .fixed ") DESC, "]
      | _, _ => []) ++
    (match L.dateObsUtc with
      | some d => [.fixed "ABS(TIMESTAMPDIFF(SECOND, f.date_obs_utc, ", .quoted d, .fixed ")) ASC, "]
      | none => []) ++
    [.fixed "f.id ASC"]

def countFrames (cond : List Part) : List Part := .fixed "SELECT COUNT(*) FROM frames f WHERE " :: cond

def listFrames (cond order : List Part) (limit : Int) : List Part :=
  [.fixed "SELECT f.id, f.image_type, f.session_night, f.date_obs_utc, fl.filename, ",
    .fixed "CONCAT(r.path,'/',fl.rel_path) FROM frames f JOIN files fl ON fl.id = f.file_id ",
    .fixed "JOIN roots r ON r.id = fl.root_id WHERE "] ++ cond ++
    (.fixed " ORDER BY " :: order) ++ [.fixed " LIMIT ", .int limit]

/-- The fit of a set to the light's filter, on the columns of a table alias. -/
def filterFit (column : String) (L : LightKey) : List Part :=
  match L.filterId with
  | some f => [.fixed " AND (", .fixed column, .fixed " IS NULL OR ", .fixed column, .fixed " = ",
      .int f, .fixed ")"]
  | none => [.fixed " AND ", .fixed column, .fixed " IS NULL"]

def filteredFirst (L : LightKey) : List Part :=
  if L.filterId.isSome then [.fixed "(filter_id IS NOT NULL) DESC, "] else []

/-! ### Flat sets -/

structure FlatSetPick where
  id : Int
  reason : Str

section Routes

variable [Host] {W : Type} (srv : Server W)

/-- The light of a frame; nothing for a frame that is no light. -/
def lightKeyFor (frameId : Int) : Route W (Option LightKey) := do
  let rows ← send srv
    [.fixed "SELECT image_type, camera_id, rig_id, filter_id, gain, offset_adu, binx, biny, ",
      .fixed "set_temp_c, exposure_s, rotator_deg, readout_mode, date_obs_utc, session_night ",
      .fixed "FROM frames WHERE id = ", .int frameId, .fixed " LIMIT 1"]
  match rows.head? with
  | none => pure none
  | some r =>
    if (Row.col r 0).getD [] ≠ "light".toList then pure none
    else do
      let L ← liftE (lightOfRow r)
      pure (some L)

/-- The set in the first row, with its label in the reason. -/
def pickSet (sql : List Part) (before after : Str) : Route W (Option FlatSetPick) := do
  let rows ← send srv sql
  match firstCell rows with
  | none => pure none
  | some s => do
    let id ← liftE (parseLong s)
    let label := (rows.head?.bind fun r => Row.col r 1).getD []
    pure (some ⟨id, before ++ label ++ after⟩)

/-- The first of two picks. -/
def orPick (first next : Route W (Option FlatSetPick)) : Route W (Option FlatSetPick) := do
  match ← first with
  | some p => pure (some p)
  | none => next

/-- The declared active set of a fixed rig, if it fits the filter. -/
def activeSet (L : LightKey) : Option Str → Route W (Option FlatSetPick)
  | none => pure none
  | some sid => do
    let rows ← send srv
      ([.fixed "SELECT label FROM flat_sets WHERE id = ", .number sid] ++ filterFit "filter_id" L)
    match rows.head? with
    | none => pure none
    | some r => do
      let id ← liftE (parseLong sid)
      pure (some ⟨id, "active flat set '".toList ++ (Row.col r 0).getD [] ++
        "' (fixed rig)".toList⟩)

/-- The set of a rig with a site: a window that covers the night, the newest on or before it. -/
def fixedRigSet (rig : Int) (L : LightKey) : Option Str → Route W (Option FlatSetPick)
  | none => pure none
  | some night =>
    orPick
      (pickSet srv
        ([.fixed "SELECT id, label FROM flat_sets WHERE rig_id = ", .int rig,
          .fixed " AND ((valid_from IS NOT NULL AND valid_to IS NOT NULL AND ", .quoted night,
          .fixed " BETWEEN valid_from AND valid_to) OR (valid_from IS NOT NULL AND valid_to IS NULL AND ",
          .quoted night, .fixed " >= valid_from))"] ++ filterFit "filter_id" L ++
          .fixed " ORDER BY " :: (filteredFirst L ++ [.fixed "captured_night DESC, id DESC LIMIT 1"]))
        "flat set '".toList ("' (window covers ".toList ++ srv.session.escape night ++ ")".toList))
      (pickSet srv
        ([.fixed "SELECT id, label FROM flat_sets WHERE rig_id = ", .int rig,
          .fixed " AND (captured_night IS NULL OR captured_night <= ", .quoted night, .fixed ")"] ++
          filterFit "filter_id" L ++
          .fixed " ORDER BY " :: (filteredFirst L ++ [.fixed "captured_night DESC, id DESC LIMIT 1"]))
        "flat set '".toList ("' (newest on/before ".toList ++ srv.session.escape night ++
          ", fixed rig)".toList))

/-- The set a rig without a site captured in the same night. -/
def mobileRigSet (rig : Int) (L : LightKey) : Option Str → Route W (Option FlatSetPick)
  | none => pure none
  | some night =>
    pickSet srv
      ([.fixed "SELECT id, label FROM flat_sets WHERE rig_id = ", .int rig,
        .fixed " AND captured_night = ", .quoted night] ++ filterFit "filter_id" L ++
        .fixed " ORDER BY " :: (filteredFirst L ++ [.fixed "id DESC LIMIT 1"]))
      "flat set '".toList ("' from the same session (".toList ++ srv.session.escape night ++ ")".toList)

/-- The set pinned for a rig and a night. -/
def pinnedSet (rig : Int) (L : LightKey) : Option Str → Route W (Option FlatSetPick)
  | none => pure none
  | some night =>
    pickSet srv
      ([.fixed "SELECT fs.id, fs.label FROM light_flat_pins p JOIN flat_sets fs ON ",
        .fixed "fs.id = p.flat_set_id WHERE p.scope = 'rig_night' AND p.rig_id = ", .int rig,
        .fixed " AND p.session_night = ", .quoted night] ++ filterFit "fs.filter_id" L ++
        [.fixed " LIMIT 1"])
      "pinned flat set '".toList ("' for ".toList ++ srv.session.escape night)

/-- `resolve_flat_set`. -/
def resolveFlatSet (L : LightKey) : Route W (Option FlatSetPick) :=
  match L.rigId with
  | none => pure none
  | some rig => orPick (pinnedSet srv rig L L.sessionNight) do
    let rows ← send srv
      [.fixed "SELECT site_id, active_flat_set_id FROM rigs WHERE id = ", .int rig, .fixed " LIMIT 1"]
    match rows.head? with
    | none => pure none
    | some r =>
      if (Row.col r 0).isSome then
        orPick (fixedRigSet srv rig L L.sessionNight) (activeSet srv L (Row.col r 1))
      else mobileRigSet srv rig L L.sessionNight

/-! ### The rules -/

structure Candidate where
  frameId : Int
  imageType : Str
  filename : Str
  absPath : Str
  sessionNight : Str
  dateObsUtc : Str
  score : ℚ
  reason : Str

def Candidate.isMaster (c : Candidate) : Bool := c.imageType = "master".toList

/-- A candidate from a row of the listing; its score decays with its rank. -/
def candidateOf (limit : Int) (rank : ℕ) (r : Row) : Except Thrown Candidate := do
  let id ← parseLong ((Row.col r 0).getD [])
  pure
    { frameId := id
      imageType := (Row.col r 1).getD []
      sessionNight := (Row.col r 2).getD []
      dateObsUtc := (Row.col r 3).getD []
      filename := (Row.col r 4).getD []
      absPath := (Row.col r 5).getD []
      score := binary64 (1 - binary64 (rank / (limit + 1)))
      reason := [] }

structure MatchResult where
  targetType : Str
  ruleName : Str
  total : Int
  warning : Str
  candidates : List Candidate

/-- The flats of a set that resolved, masters first. -/
def matchFlatSet (L : LightKey) (limit : Int) (ruleName : Str) (pick : FlatSetPick) :
    Route W MatchResult := do
  let cond := [.fixed "f.flat_set_id = ", .int pick.id] ++ (match L.filterId with
    | some f => [.fixed " AND (f.filter_id = ", .int f, .fixed " OR f.filter_id IS NULL)"]
    | none => [])
  let count ← send srv (countFrames cond)
  let total ← liftE (countOf count)
  let rows ← send srv
    (listFrames cond [.fixed "(f.image_type = 'master') DESC, f.date_obs_utc ASC"] limit)
  let candidates ← (rows.zipIdx).mapM fun r => liftE ((candidateOf limit r.2 r.1).map fun c =>
    { c with reason := (if c.isMaster then "master flat \xc2\xb7 " else "flat \xc2\xb7 ").toList ++ pick.reason })
  pure
    { targetType := "flat".toList
      ruleName := ruleName ++ " (flat set)".toList
      total := total
      warning := if total = 0 then "flat set resolved, but it has no flats for this filter".toList
        else []
      candidates := candidates }

/-- The reason of a candidate; its distance in days takes a statement. -/
def candidateReason (L : LightKey) (targetType base : Str) (preferSession : Bool) (c : Candidate) :
    Route W Str := do
  let why := (if c.isMaster then "master ".toList ++ targetType else targetType) ++
    (if base = [] then [] else " \xc2\xb7 ".toList ++ base)
  if preferSession ∧ L.sessionNight = some c.sessionNight then
    pure (why ++ " \xc2\xb7 same night (".toList ++ c.sessionNight ++ ")".toList)
  else match c.dateObsUtc, L.dateObsUtc with
    | [], _ => pure why
    | _, none => pure why
    | date, some d => do
      let rows ← send srv
        [.fixed "SELECT ABS(TIMESTAMPDIFF(DAY, ", .quoted date, .fixed ", ", .quoted d, .fixed "))"]
      match firstCell rows with
      | none => pure why
      | some n => pure (why ++ " \xc2\xb7 ".toList ++ n ++ " day(s) from light".toList)

/-- The warning beside a count. -/
def countWarning (targetType : Str) (minFrames : Option Int) (total : Int) : Str :=
  if total = 0 then "no matching ".toList ++ targetType ++ " frames found".toList
  else match minFrames with
    | some m =>
      if total < m then "only ".toList ++ (intNumeral total).text ++ ' ' :: targetType ++
        " frames (rule suggests at least ".toList ++ (intNumeral m).text ++ ")".toList
      else []
    | none => []

/-- A row of `calibration_rules`. -/
structure RuleRow where
  name : Str
  targetType : Str
  matchJson : Str
  maxAge : Option Int
  preferMasters : Bool
  preferSession : Bool
  minFrames : Option Int

def ruleOfRow (r : Row) : Except Thrown RuleRow := do
  pure
    { name := (Row.col r 0).getD []
      targetType := (Row.col r 1).getD []
      matchJson := (Row.col r 2).getD "{}".toList
      maxAge := ← asInt r 3
      preferMasters := (Row.col r 4).getD "0".toList ≠ "0".toList
      preferSession := (Row.col r 5).getD "0".toList ≠ "0".toList
      minFrames := ← asInt r 6 }

/-- The frames a rule ranks by its own fields. -/
def matchFields (L : LightKey) (limit : Int) (rule : RuleRow) (spec : Json) : Route W MatchResult := do
  let specs ← liftE (Match.ruleSpecs spec)
  let base := joinText ", ".toList (specs.flatMap fun s =>
    fieldReason s.1 s.2 (lightValue s.1 L))
  let cond := ruleWhere rule.targetType specs rule.maxAge L
  let count ← send srv (countFrames cond)
  let total ← liftE (countOf count)
  let rows ← send srv (listFrames cond (ruleOrder rule.preferMasters rule.preferSession L) limit)
  let candidates ← (rows.zipIdx).mapM fun r => do
    let c ← liftE (candidateOf limit r.2 r.1)
    let why ← candidateReason srv L rule.targetType base rule.preferSession c
    pure { c with reason := why }
  pure
    { targetType := rule.targetType
      ruleName := rule.name
      total := total
      warning := countWarning rule.targetType rule.minFrames total
      candidates := candidates }

variable (parse : Str → Except Str Json)

/-- Flat sets override the ranking of the flat rules. -/
def setFor (L : LightKey) (targetType : Str) : Route W (Option FlatSetPick) :=
  if targetType = "flat".toList then resolveFlatSet srv L else pure none

/-- One rule.  A document that does not parse is a warning. -/
def matchRule (L : LightKey) (limit : Int) (r : Row) : Route W MatchResult := do
  let rule ← liftE (ruleOfRow r)
  match parse rule.matchJson with
  | .error _ => pure ⟨rule.targetType, rule.name, 0, "rule has invalid match_json".toList, []⟩
  | .ok spec => do
    match ← setFor srv L rule.targetType with
    | some pick => matchFlatSet srv L limit rule.name pick
    | none => matchFields srv L limit rule spec

/-- The enabled rules, in the order of their priorities. -/
def matchCalibration (L : LightKey) (limit : Int) : Route W (List MatchResult) := do
  let rules ← send srv
    [.fixed "SELECT name, target_type, match_json, max_age_days, prefer_masters, ",
      .fixed "prefer_same_session, min_frames FROM calibration_rules ",
      .fixed "WHERE enabled = 1 ORDER BY priority, id"]
  rules.mapM (matchRule srv parse L limit)

end Routes

/-! ### All of it reads -/

set_option maxRecDepth 4000

section Texts

theorem reads_filterFit {column : Str} (h : onlyReads column = true) (L : LightKey) :
    Reads (filterFit (String.ofList column) L) := by
  unfold filterFit
  split
  · exact reads_fixed rfl (reads_fixed h (reads_fixed rfl (reads_fixed h (reads_fixed rfl
      (reads_value rfl (reads_fixed rfl reads_nil))))))
  · exact reads_fixed rfl (reads_fixed h (reads_fixed rfl reads_nil))

theorem reads_filteredFirst (L : LightKey) : Reads (filteredFirst L) := by
  unfold filteredFirst
  split
  · exact reads_fixed rfl reads_nil
  · exact reads_nil

/-- The fit to the filter, and the order of the sets after it. -/
theorem reads_fitOrdered (L : LightKey) {last : Str} (h : onlyReads last = true) :
    Reads (filterFit "filter_id" L ++
      .fixed " ORDER BY " :: (filteredFirst L ++ [.fixed (String.ofList last)])) :=
  reads_append (reads_filterFit rfl L) (reads_fixed rfl
    (reads_append (reads_filteredFirst L) (reads_fixed h reads_nil)))

theorem reads_part (v : FieldVal) : v.part.reads = true := by
  cases v <;> rfl

theorem reads_fieldClause (field : Str) (spec : Match.SpecKind) (v : Option FieldVal) :
    Reads (fieldClause field spec v) := by
  unfold fieldClause
  split
  · exact reads_fixed rfl (reads_value rfl (reads_fixed rfl reads_nil))
  · exact reads_nil
  · exact reads_fixed rfl (reads_value rfl (reads_fixed rfl (reads_value (reads_part _) reads_nil)))
  · exact reads_fixed rfl (reads_value rfl (reads_fixed rfl (reads_value (reads_part _)
      (reads_fixed rfl (reads_value rfl (reads_fixed rfl reads_nil))))))
  · exact reads_fixed rfl (reads_value rfl (reads_fixed rfl (reads_value rfl (reads_fixed rfl
      (reads_value rfl reads_nil)))))

theorem reads_ageClause (maxAge : Option Int) (date : Option Str) : Reads (ageClause maxAge date) := by
  unfold ageClause
  split
  · exact reads_fixed rfl (reads_value rfl (reads_fixed rfl (reads_value rfl
      (reads_fixed rfl reads_nil))))
  · exact reads_nil

theorem reads_ruleWhere (targetType : Str) (specs : List (Str × Match.SpecKind))
    (maxAge : Option Int) (L : LightKey) : Reads (ruleWhere targetType specs maxAge L) := by
  have htarget : Reads (targetClause targetType) :=
    reads_fixed rfl (reads_value rfl (reads_fixed rfl (reads_value rfl (reads_fixed rfl reads_nil))))
  exact reads_append (reads_append htarget (reads_flatMap (fun s => reads_fieldClause s.1 s.2 _) specs))
    (reads_ageClause maxAge _)

theorem reads_ruleOrder (preferMasters preferSession : Bool) (L : LightKey) :
    Reads (ruleOrder preferMasters preferSession L) := by
  unfold ruleOrder
  refine reads_append (reads_append (reads_append ?_ ?_) ?_) (reads_fixed rfl reads_nil)
  · split
    · exact reads_fixed rfl reads_nil
    · exact reads_nil
  · split
    · exact reads_fixed rfl (reads_value rfl (reads_fixed rfl reads_nil))
    · exact reads_nil
  · split
    · exact reads_fixed rfl (reads_value rfl (reads_fixed rfl reads_nil))
    · exact reads_nil

theorem isRead_countFrames {cond : List Part} (h : Reads cond) : isRead (countFrames cond) = true :=
  isRead_select rfl h

theorem isRead_listFrames {cond order : List Part} (hcond : Reads cond) (horder : Reads order)
    (limit : Int) : isRead (listFrames cond order limit) = true := by
  have htail : Reads [.fixed " LIMIT ", .int limit] := reads_fixed rfl (reads_value rfl reads_nil)
  exact isRead_select rfl (reads_fixed rfl (reads_fixed rfl
    (reads_append (reads_append hcond (reads_fixed rfl horder)) htail)))

end Texts

section Reading

variable [Host] {W : Type} {srv : Server W} {L : LightKey}

theorem lightKeyFor_readOnly (frameId : Int) : ReadOnly (lightKeyFor srv frameId) := by
  refine readOnly_send (isRead_select rfl (reads_fixed rfl (reads_fixed rfl (reads_value rfl
    (reads_fixed rfl reads_nil))))) fun rows => ?_
  split
  · exact readOnly_pure _
  · exact readOnly_ite (readOnly_pure _) (readOnly_liftE fun _ => readOnly_pure _)

theorem pickSet_readOnly {sql : List Part} (h : isRead sql = true) (before after : Str) :
    ReadOnly (pickSet srv sql before after) := by
  refine readOnly_send h fun rows => ?_
  split
  · exact readOnly_pure _
  · exact readOnly_liftE fun _ => readOnly_pure _

theorem orPick_readOnly {first next : Route W (Option FlatSetPick)} (hfirst : ReadOnly first)
    (hnext : ReadOnly next) : ReadOnly (orPick first next) := by
  refine readOnly_bind hfirst fun p => ?_
  cases p with
  | none => exact hnext
  | some p => exact readOnly_pure _

theorem pinnedSet_readOnly (rig : Int) (night : Option Str) : ReadOnly (pinnedSet srv rig L night) := by
  cases night with
  | none => exact readOnly_pure _
  | some night =>
    refine pickSet_readOnly (isRead_select rfl ?_) _ _
    exact reads_fixed rfl (reads_value rfl (reads_fixed rfl (reads_value rfl
      (reads_append (reads_filterFit rfl L) (reads_fixed rfl reads_nil)))))

theorem fixedRigSet_readOnly (rig : Int) (night : Option Str) :
    ReadOnly (fixedRigSet srv rig L night) := by
  cases night with
  | none => exact readOnly_pure _
  | some night =>
    refine orPick_readOnly (pickSet_readOnly (isRead_select rfl ?_) _ _)
      (pickSet_readOnly (isRead_select rfl ?_) _ _)
    · exact reads_value rfl (reads_fixed rfl (reads_value rfl (reads_fixed rfl (reads_value rfl
        (reads_fixed rfl (reads_fitOrdered L rfl))))))
    · exact reads_value rfl (reads_fixed rfl (reads_value rfl (reads_fixed rfl
        (reads_fitOrdered L rfl))))

theorem mobileRigSet_readOnly (rig : Int) (night : Option Str) :
    ReadOnly (mobileRigSet srv rig L night) := by
  cases night with
  | none => exact readOnly_pure _
  | some night =>
    refine pickSet_readOnly (isRead_select rfl ?_) _ _
    exact reads_value rfl (reads_fixed rfl (reads_value rfl (reads_fitOrdered L rfl)))

theorem activeSet_readOnly (sid : Option Str) : ReadOnly (activeSet srv L sid) := by
  cases sid with
  | none => exact readOnly_pure _
  | some sid =>
    refine readOnly_send (isRead_select rfl (reads_value rfl (reads_filterFit rfl L))) fun rows => ?_
    split
    · exact readOnly_pure _
    · exact readOnly_liftE fun _ => readOnly_pure _

theorem resolveFlatSet_readOnly : ReadOnly (resolveFlatSet srv L) := by
  unfold resolveFlatSet
  split
  · exact readOnly_pure _
  · refine orPick_readOnly (pinnedSet_readOnly _ _) ?_
    refine readOnly_send (isRead_select rfl (reads_value rfl (reads_fixed rfl reads_nil))) fun rows => ?_
    split
    · exact readOnly_pure _
    · exact readOnly_ite (orPick_readOnly (fixedRigSet_readOnly _ _) (activeSet_readOnly _))
        (mobileRigSet_readOnly _ _)

theorem matchFlatSet_readOnly (limit : Int) (ruleName : Str) (pick : FlatSetPick) :
    ReadOnly (matchFlatSet srv L limit ruleName pick) := by
  have hcond : Reads ([.fixed "f.flat_set_id = ", .int pick.id] ++ (match L.filterId with
      | some f => [.fixed " AND (f.filter_id = ", .int f, .fixed " OR f.filter_id IS NULL)"]
      | none => [])) := by
    refine reads_append (reads_fixed rfl (reads_value rfl reads_nil)) ?_
    split
    · exact reads_fixed rfl (reads_value rfl (reads_fixed rfl reads_nil))
    · exact reads_nil
  refine readOnly_send (isRead_countFrames hcond) fun count => ?_
  refine readOnly_liftE fun total => ?_
  refine readOnly_send (isRead_listFrames hcond (reads_fixed rfl reads_nil) limit) fun rows => ?_
  refine readOnly_bind (readOnly_mapM (fun r => ?_) _) fun _ => readOnly_pure _
  exact liftE_readOnly _

theorem candidateReason_readOnly (targetType base : Str) (preferSession : Bool) (c : Candidate) :
    ReadOnly (candidateReason srv L targetType base preferSession c) := by
  refine readOnly_ite (readOnly_pure _) ?_
  split
  · exact readOnly_pure _
  · exact readOnly_pure _
  · refine readOnly_send (isRead_select rfl (reads_value rfl (reads_fixed rfl (reads_value rfl
      (reads_fixed rfl reads_nil))))) fun rows => ?_
    split
    · exact readOnly_pure _
    · exact readOnly_pure _

theorem matchFields_readOnly (limit : Int) (rule : RuleRow) (spec : Json) :
    ReadOnly (matchFields srv L limit rule spec) := by
  refine readOnly_liftE fun specs => ?_
  have hcond : Reads (ruleWhere rule.targetType specs rule.maxAge L) := reads_ruleWhere _ _ _ _
  refine readOnly_send (isRead_countFrames hcond) fun count => ?_
  refine readOnly_liftE fun total => ?_
  refine readOnly_send (isRead_listFrames hcond (reads_ruleOrder _ _ _) limit) fun rows => ?_
  refine readOnly_bind (readOnly_mapM (fun r => ?_) _) fun _ => readOnly_pure _
  exact readOnly_liftE fun c => readOnly_bind (candidateReason_readOnly _ _ _ _) fun _ => readOnly_pure _

theorem matchRule_readOnly (parse : Str → Except Str Json) (limit : Int) (r : Row) :
    ReadOnly (matchRule srv parse L limit r) := by
  refine readOnly_liftE fun rule => ?_
  split
  · exact readOnly_pure _
  · have hpick : ReadOnly (setFor srv L rule.targetType) :=
      readOnly_ite resolveFlatSet_readOnly (readOnly_pure _)
    refine readOnly_bind hpick fun pick => ?_
    cases pick with
    | none => exact matchFields_readOnly _ _ _
    | some pick => exact matchFlatSet_readOnly _ _ _

/-- **The matcher only reads**, whatever the rules say. -/
theorem matchCalibration_readOnly (parse : Str → Except Str Json) (limit : Int) :
    ReadOnly (matchCalibration srv parse L limit) :=
  readOnly_send (isRead_select rfl (reads_fixed rfl (reads_fixed rfl reads_nil))) fun rules =>
    readOnly_mapM (fun r => matchRule_readOnly parse limit r) rules

end Reading

end StarBase.Api
