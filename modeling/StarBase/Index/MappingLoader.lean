import Mathlib.Data.Char
import Mathlib.Data.List.Lex
import Mathlib.Data.Prod.Lex
import StarBase.Extract.Resolver
import StarBase.Lib.OrderBy

/-!
# The mapping in the database

`header_map` and `header_value_map` as `seed.sql` fills them, and `load_mapping`, which reads them
in priority order.

* `seedKeywords`, `seedValues` — the rows of the script, in its order;
* `loadMapping` — the mapping the two tables give;
* `resolve_seeded` — **PROVED**: a seeded database and the built-in mapping resolve every HDU alike.

The script's notes are left out; nothing reads them.
-/

namespace StarBase.Index

open StarBase.Extract Relational

/-! ### The tables -/

structure KeywordRow where
  id : ℕ
  field : Str
  keyword : Str
  priority : ℤ
  enabled : Bool
  deriving DecidableEq

structure ValueRow where
  id : ℕ
  field : Str
  raw : Str
  normalized : Str
  matchMode : Str
  priority : ℤ
  deriving DecidableEq

section Tables

variable [Host]

/-- `UNIQUE KEY (field, keyword)`. -/
def keywordKeying : Keying KeywordRow (Str × Str) :=
  ⟨KeywordRow.id, fun r => (Host.collate r.field, Host.collate r.keyword)⟩

/-- `UNIQUE KEY (field, raw_value, match_mode)`; the mode is an `ENUM`. -/
def valueKeying : Keying ValueRow (Str × Str × Str) :=
  ⟨ValueRow.id, fun r => (Host.collate r.field, Host.collate r.raw, r.matchMode)⟩

structure MappingTables where
  headerMap : Table keywordKeying
  headerValueMap : Table valueKeying

end Tables

/-! ### `seed.sql` -/

structure KeywordSeed where
  field : Str
  keyword : Str
  priority : ℤ

structure ValueSeed where
  field : Str
  raw : Str
  normalized : Str
  matchMode : Str
  priority : ℤ

def seedKeywords : List KeywordSeed :=
  [ ⟨"date_obs".toList, "DATE-OBS".toList, 10⟩,
    ⟨"date_obs".toList, "DATE_OBS".toList, 20⟩,
    ⟨"date_avg".toList, "DATE-AVG".toList, 10⟩,
    ⟨"mjd_obs".toList, "MJD-OBS".toList, 10⟩,
    ⟨"date_local".toList, "DATE-LOC".toList, 10⟩,
    ⟨"exposure_s".toList, "EXPTIME".toList, 10⟩,
    ⟨"exposure_s".toList, "EXPOSURE".toList, 20⟩,
    ⟨"gain".toList, "GAIN".toList, 10⟩,
    ⟨"gain".toList, "GAINRAW".toList, 20⟩,
    ⟨"gain".toList, "GAINADU".toList, 30⟩,
    ⟨"egain".toList, "EGAIN".toList, 10⟩,
    ⟨"offset_adu".toList, "OFFSET".toList, 10⟩,
    ⟨"offset_adu".toList, "BLKLEVEL".toList, 20⟩,
    ⟨"binx".toList, "XBINNING".toList, 10⟩,
    ⟨"binx".toList, "CCDXBIN".toList, 20⟩,
    ⟨"biny".toList, "YBINNING".toList, 10⟩,
    ⟨"biny".toList, "CCDYBIN".toList, 20⟩,
    ⟨"pixel_size".toList, "XPIXSZ".toList, 10⟩,
    ⟨"naxis1".toList, "NAXIS1".toList, 10⟩,
    ⟨"naxis2".toList, "NAXIS2".toList, 10⟩,
    ⟨"bayer".toList, "BAYERPAT".toList, 10⟩,
    ⟨"row_order".toList, "ROWORDER".toList, 10⟩,
    ⟨"set_temp_c".toList, "SET-TEMP".toList, 10⟩,
    ⟨"ccd_temp_c".toList, "CCD-TEMP".toList, 10⟩,
    ⟨"focal_len_mm".toList, "FOCALLEN".toList, 10⟩,
    ⟨"focal_ratio".toList, "FOCRATIO".toList, 10⟩,
    ⟨"aperture_mm".toList, "APTDIA".toList, 10⟩,
    ⟨"instrument".toList, "INSTRUME".toList, 10⟩,
    ⟨"instrument".toList, "CAMERA".toList, 20⟩,
    ⟨"telescope".toList, "TELESCOP".toList, 10⟩,
    ⟨"readout_mode".toList, "READOUTM".toList, 10⟩,
    ⟨"object".toList, "OBJECT".toList, 10⟩,
    ⟨"ra".toList, "RA".toList, 10⟩,
    ⟨"ra".toList, "OBJCTRA".toList, 20⟩,
    ⟨"dec".toList, "DEC".toList, 10⟩,
    ⟨"dec".toList, "OBJCTDEC".toList, 20⟩,
    ⟨"equinox".toList, "EQUINOX".toList, 10⟩,
    ⟨"latitude".toList, "OBSGEO-B".toList, 10⟩,
    ⟨"latitude".toList, "SITELAT".toList, 20⟩,
    ⟨"latitude".toList, "LAT-OBS".toList, 30⟩,
    ⟨"longitude".toList, "OBSGEO-L".toList, 10⟩,
    ⟨"longitude".toList, "SITELONG".toList, 20⟩,
    ⟨"longitude".toList, "LONG-OBS".toList, 30⟩,
    ⟨"elevation_m".toList, "OBSGEO-H".toList, 10⟩,
    ⟨"elevation_m".toList, "SITEELEV".toList, 20⟩,
    ⟨"elevation_m".toList, "ALT-OBS".toList, 30⟩,
    ⟨"observatory".toList, "OBSERVAT".toList, 10⟩,
    ⟨"observatory".toList, "SITENAME".toList, 20⟩,
    ⟨"observer".toList, "OBSERVER".toList, 10⟩,
    ⟨"airmass".toList, "AIRMASS".toList, 10⟩,
    ⟨"altitude".toList, "CENTALT".toList, 10⟩,
    ⟨"azimuth".toList, "CENTAZ".toList, 10⟩,
    ⟨"pier_side".toList, "PIERSIDE".toList, 10⟩,
    ⟨"moon_sep".toList, "MOONANGL".toList, 10⟩,
    ⟨"sun_angle".toList, "SUNANGLE".toList, 10⟩,
    ⟨"focus_pos".toList, "FOCPOS".toList, 10⟩,
    ⟨"focus_pos".toList, "FOCUSPOS".toList, 20⟩,
    ⟨"focus_temp".toList, "FOCTEMP".toList, 10⟩,
    ⟨"focus_temp".toList, "FOCUSTEM".toList, 20⟩,
    ⟨"focus_temp".toList, "FOCTMPSC".toList, 30⟩,
    ⟨"rotator_deg".toList, "OBJCTROT".toList, 10⟩,
    ⟨"rotator_deg".toList, "ROTATOR".toList, 20⟩,
    ⟨"filter".toList, "FILTER".toList, 10⟩,
    ⟨"software".toList, "SWCREATE".toList, 10⟩,
    ⟨"software".toList, "PROGRAM".toList, 20⟩,
    ⟨"software".toList, "CREATOR".toList, 30⟩,
    ⟨"image_type".toList, "IMAGETYP".toList, 10⟩,
    ⟨"image_type".toList, "FRAME".toList, 20⟩,
    ⟨"image_type".toList, "PICTTYPE".toList, 30⟩,
    ⟨"sqm".toList, "SQM".toList, 10⟩,
    ⟨"sqm_sensor".toList, "SQMSRC".toList, 10⟩,
    ⟨"sqm_time".toList, "SQMTIME".toList, 10⟩,
    ⟨"sqm_dt_s".toList, "SQMDT".toList, 10⟩ ]

def seedValues : List ValueSeed :=
  [ ⟨"image_type".toList, "LIGHT".toList, "light".toList, "exact".toList, 10⟩,
    ⟨"image_type".toList, "Light".toList, "light".toList, "exact".toList, 10⟩,
    ⟨"image_type".toList, "Light Frame".toList, "light".toList, "exact".toList, 10⟩,
    ⟨"image_type".toList, "DARK".toList, "dark".toList, "exact".toList, 10⟩,
    ⟨"image_type".toList, "Dark".toList, "dark".toList, "exact".toList, 10⟩,
    ⟨"image_type".toList, "Dark Frame".toList, "dark".toList, "exact".toList, 10⟩,
    ⟨"image_type".toList, "FLAT".toList, "flat".toList, "exact".toList, 10⟩,
    ⟨"image_type".toList, "Flat".toList, "flat".toList, "exact".toList, 10⟩,
    ⟨"image_type".toList, "Flat Field".toList, "flat".toList, "exact".toList, 10⟩,
    ⟨"image_type".toList, "Bias".toList, "bias".toList, "exact".toList, 10⟩,
    ⟨"image_type".toList, "Bias Frame".toList, "bias".toList, "exact".toList, 10⟩,
    ⟨"image_type".toList, "BIAS".toList, "bias".toList, "exact".toList, 10⟩,
    ⟨"image_type".toList, "Master Dark".toList, "master".toList, "exact".toList, 5⟩,
    ⟨"image_type".toList, "master".toList, "master".toList, "contains".toList, 6⟩,
    ⟨"image_type".toList, "integration".toList, "master".toList, "contains".toList, 6⟩,
    ⟨"image_type".toList, "stack".toList, "master".toList, "contains".toList, 6⟩,
    ⟨"image_type".toList, "flatdark".toList, "darkflat".toList, "contains".toList, 4⟩,
    ⟨"image_type".toList, "dark flat".toList, "darkflat".toList, "contains".toList, 4⟩,
    ⟨"image_type".toList, "darkflat".toList, "darkflat".toList, "contains".toList, 4⟩,
    ⟨"image_type".toList, "zero".toList, "bias".toList, "contains".toList, 20⟩,
    ⟨"filter".toList, "!Shutter!".toList, [], "exact".toList, 10⟩,
    ⟨"filter".toList, "DARK".toList, [], "exact".toList, 10⟩,
    ⟨"filter".toList, "None".toList, [], "exact".toList, 10⟩,
    ⟨"object".toList, "FlatWizard".toList, [], "exact".toList, 10⟩,
    ⟨"pier_side".toList, "East".toList, "east".toList, "exact".toList, 10⟩,
    ⟨"pier_side".toList, "West".toList, "west".toList, "exact".toList, 10⟩,
    ⟨"row_order".toList, "TOP-DOWN".toList, "top-down".toList, "exact".toList, 10⟩,
    ⟨"row_order".toList, "BOTTOM-UP".toList, "bottom-up".toList, "exact".toList, 10⟩ ]

/-- A row is enabled unless the statement says otherwise. -/
def KeywordSeed.row (s : KeywordSeed) (id : ℕ) : KeywordRow := ⟨id, s.field, s.keyword, s.priority, true⟩

def ValueSeed.row (s : ValueSeed) (id : ℕ) : ValueRow :=
  ⟨id, s.field, s.raw, s.normalized, s.matchMode, s.priority⟩

section Seed

variable [Host]

def seedKeyword (s : KeywordSeed) :
    RowMaker keywordKeying (Host.collate s.field, Host.collate s.keyword) :=
  ⟨s.row, fun _ => rfl, fun _ => rfl⟩

def seedValue (s : ValueSeed) :
    RowMaker valueKeying (Host.collate s.field, Host.collate s.raw, s.matchMode) :=
  ⟨s.row, fun _ => rfl, fun _ => rfl⟩

/-- The tables of a new database after `seed.sql`. -/
def MappingTables.seeded : MappingTables where
  headerMap := (Table.empty _).insertAll _ seedKeyword seedKeywords
  headerValueMap := (Table.empty _).insertAll _ seedValue seedValues

end Seed

/-! ### `load_mapping` -/

def parseMode (s : Str) : MatchMode :=
  if s = "contains".toList then .contains
  else if s = "regex".toList then .regex
  else .exact

def ValueRow.rule (r : ValueRow) : ValueRule := ⟨r.raw, r.normalized, parseMode r.matchMode⟩

section Load

variable [Host] {ρ : Type*}

/-- `ORDER BY field, priority, id`. -/
def byField (field : ρ → Str) (priority : ρ → ℤ) (id : ρ → ℕ) (rows : List ρ) : List ρ :=
  orderBy (fun r => toLex (Host.collate (field r), toLex (priority r, id r))) rows

def readKeywords (rows : List KeywordRow) : List (Str × List Str) :=
  groupRows ((byField KeywordRow.field KeywordRow.priority KeywordRow.id
    (rows.filter KeywordRow.enabled)).map fun r => (r.field, r.keyword))

def readValues (rows : List ValueRow) : List (Str × List ValueRule) :=
  groupRows ((byField ValueRow.field ValueRow.priority ValueRow.id rows).map
    fun r => (r.field, r.rule))

/-- A database without keywords falls back to the built-in mapping. -/
def loadMapping (t : MappingTables) : HeaderMapping :=
  if readKeywords t.headerMap.rows = [] then HeaderMapping.defaults
  else ⟨readKeywords t.headerMap.rows, readValues t.headerValueMap.rows⟩

end Load

/-! ### The fields one at a time -/

section ByField

variable {ρ : Type*} {field : ρ → Str} {priority : ρ → ℤ} {id : ρ → ℕ} {rows : List ρ}

/-- `ORDER BY priority, id`. -/
def byPriority (priority : ρ → ℤ) (id : ρ → ℕ) (rows : List ρ) : List ρ :=
  orderBy (fun r => toLex (priority r, id r)) rows

theorem keysDiffer_priority (hid : (rows.map id).Nodup) :
    KeysDiffer (fun r => toLex (priority r, id r)) rows := by
  intro a ha b hb he
  have hpair : (priority a, id a) = (priority b, id b) := toLex.injective he
  exact List.inj_on_of_nodup_map hid ha hb (Prod.ext_iff.mp hpair).2

/-- Of one field, `load_mapping` reads the rows by priority. -/
theorem filter_byField [Host] (hid : (rows.map id).Nodup) (f : Str) :
    ((byField field priority id rows).filter fun r => field r = f) =
      byPriority priority id (rows.filter fun r => field r = f) := by
  have hdiffer : KeysDiffer (fun r => toLex (Host.collate (field r), toLex (priority r, id r)))
      rows := by
    intro a ha b hb he
    have hpair : (Host.collate (field a), toLex (priority a, id a)) =
        (Host.collate (field b), toLex (priority b, id b)) := toLex.injective he
    exact keysDiffer_priority hid a ha b hb (Prod.ext_iff.mp hpair).2
  unfold byField byPriority
  rw [filter_orderBy hdiffer]
  refine orderBy_congr (hdiffer.filter _) fun a ha b hb hab => ?_
  have hfa : field a = f := of_decide_eq_true (List.mem_filter.mp ha).2
  have hfb : field b = f := of_decide_eq_true (List.mem_filter.mp hb).2
  rw [Prod.Lex.toLex_le_toLex, hfa, hfb]
  exact Or.inr ⟨rfl, hab⟩

/-- What the map of a query holds under a field. -/
theorem lookup_group [Host] {β : Type*} (hid : (rows.map id).Nodup) (value : ρ → β) (f : Str) :
    (groupRows ((byField field priority id rows).map fun r => (field r, value r))).lookup f =
      if (rows.filter fun r => field r = f) = [] then none
      else some ((byPriority priority id (rows.filter fun r => field r = f)).map value) := by
  have hfilter : (((byField field priority id rows).map fun r => (field r, value r)).filter
      fun r => r.1 = f) =
      (byPriority priority id (rows.filter fun r => field r = f)).map fun r => (field r, value r) := by
    rw [List.filter_map, ← filter_byField hid f]
    rfl
  have hnil : (byPriority priority id (rows.filter fun r => field r = f)) = [] ↔
      (rows.filter fun r => field r = f) = [] := by
    have hlength : (byPriority priority id (rows.filter fun r => field r = f)).length = _ :=
      (perm_orderBy (fun r => toLex (priority r, id r)) (rows.filter fun r => field r = f)).length_eq
    rw [← List.length_eq_zero_iff, hlength, List.length_eq_zero_iff]
  rw [lookup_groupRows, hfilter, List.map_map]
  simp only [List.map_eq_nil_iff, hnil]
  rfl

theorem getD_lookup_group [Host] {β : Type*} (hid : (rows.map id).Nodup) (value : ρ → β) (f : Str) :
    ((groupRows ((byField field priority id rows).map fun r => (field r, value r))).lookup f).getD [] =
      (byPriority priority id (rows.filter fun r => field r = f)).map value := by
  rw [lookup_group hid]
  split
  · next hnil =>
    rw [hnil]
    rfl
  · rfl

end ByField

/-! ### The seeded tables -/

/-- The rows the script writes, with their ids. -/
def keywordRows : List KeywordRow := Table.numbered KeywordSeed.row 1 seedKeywords

def valueRows : List ValueRow := Table.numbered ValueSeed.row 1 seedValues

/-- The texts in the UNIQUE keys of the two tables. -/
def seedTexts : List Str :=
  keywordRows.flatMap (fun r => [r.field, r.keyword]) ++ valueRows.flatMap fun r => [r.field, r.raw]

/-- The collation tells apart the texts of the script, or at least those that differ in more than
the case of their letters. -/
def TellsApart [Host] : Prop :=
  ∀ a ∈ seedTexts, ∀ b ∈ seedTexts, Host.collate a = Host.collate b → lower a = lower b

/-- The keyword rows: no keyword is there twice, whatever the case; all are enabled; and by priority
they are the candidates of the built-in mapping. -/
theorem keywordRows_checked :
    (keywordRows.map fun r => (lower r.field, lower r.keyword)).Nodup ∧
    (∀ r ∈ keywordRows, r.enabled = true) ∧ (keywordRows.map KeywordRow.id).Nodup ∧
    ∀ e ∈ HeaderMapping.defaults.keywords, (byPriority KeywordRow.priority KeywordRow.id
      (keywordRows.filter fun r => r.field = e.1)).map KeywordRow.keyword = e.2 := by
  decide

/-- The value rows: one that repeats an earlier one is of its field and does not come before it; none
is a regular expression; and by priority they are the rules of the built-in mapping. -/
theorem valueRows_checked :
    (valueRows.Pairwise fun a b => lower a.field = lower b.field → lower a.raw = lower b.raw →
      a.matchMode = b.matchMode →
        a.field = b.field ∧ toLex (a.priority, a.id) < toLex (b.priority, b.id)) ∧
    (∀ r ∈ valueRows, parseMode r.matchMode ≠ .regex) ∧ (valueRows.map ValueRow.id).Nodup ∧
    ∀ e ∈ HeaderMapping.defaults.values, (byPriority ValueRow.priority ValueRow.id
      (valueRows.filter fun r => r.field = e.1)).map ValueRow.rule = e.2 := by
  decide

theorem keywordRows_differ {a b : KeywordRow} (ha : a ∈ keywordRows) (hb : b ∈ keywordRows)
    (hfield : lower a.field = lower b.field) (hkeyword : lower a.keyword = lower b.keyword) : a = b :=
  List.inj_on_of_nodup_map keywordRows_checked.1 ha hb (Prod.ext hfield hkeyword)

theorem keywordRows_ids : (keywordRows.map KeywordRow.id).Nodup := keywordRows_checked.2.2.1

theorem valueRows_ids : (valueRows.map ValueRow.id).Nodup := valueRows_checked.2.2.1

section Seeded

variable [Host]

omit [Host] in
theorem keywordTexts {r : KeywordRow} (hr : r ∈ keywordRows) :
    r.field ∈ seedTexts ∧ r.keyword ∈ seedTexts := by
  unfold seedTexts
  constructor
  all_goals exact List.mem_append_left _ (List.mem_flatMap.mpr ⟨r, hr, by simp⟩)

omit [Host] in
theorem valueTexts {r : ValueRow} (hr : r ∈ valueRows) : r.field ∈ seedTexts ∧ r.raw ∈ seedTexts := by
  unfold seedTexts
  constructor
  all_goals exact List.mem_append_right _ (List.mem_flatMap.mpr ⟨r, hr, by simp⟩)

theorem numbered_seedKeyword :
    Table.numbered (fun s => (seedKeyword s).make) 1 seedKeywords = keywordRows := by
  unfold keywordRows
  exact congrArg (fun make => Table.numbered make 1 seedKeywords) (funext fun _ => rfl)

theorem numbered_seedValue :
    Table.numbered (fun s => (seedValue s).make) 1 seedValues = valueRows := by
  unfold valueRows
  exact congrArg (fun make => Table.numbered make 1 seedValues) (funext fun _ => rfl)

/-- Every keyword of the script goes into the table. -/
theorem headerMap_seeded (hcollate : TellsApart) :
    (MappingTables.seeded.headerMap.rows.filter KeywordRow.enabled).Perm keywordRows := by
  have hall : ∀ r ∈ keywordRows, Table.isFirst keywordKeying keywordRows r = true := by
    intro r hr
    by_contra hno
    obtain ⟨q, hq, hkey, hne, -⟩ := Table.exists_first_of_not_isFirst hr (eq_false_of_ne_true hno)
    have htexts : Host.collate q.field = Host.collate r.field ∧
        Host.collate q.keyword = Host.collate r.keyword := Prod.ext_iff.mp hkey
    exact hne (keywordRows_differ hq hr
      (hcollate _ (keywordTexts hq).1 _ (keywordTexts hr).1 htexts.1)
      (hcollate _ (keywordTexts hq).2 _ (keywordTexts hr).2 htexts.2))
  have hperm : ((Table.empty keywordKeying).insertAll _ seedKeyword seedKeywords).rows.Perm _ :=
    Table.rows_insertAll seedKeywords
  rw [numbered_seedKeyword, List.filter_eq_self.mpr hall] at hperm
  have henabled := hperm.filter KeywordRow.enabled
  rwa [List.filter_eq_self.mpr keywordRows_checked.2.1] at henabled

theorem headerValueMap_seeded : MappingTables.seeded.headerValueMap.rows.Perm
    (valueRows.filter (Table.isFirst valueKeying valueRows)) := by
  have hperm : ((Table.empty valueKeying).insertAll _ seedValue seedValues).rows.Perm _ :=
    Table.rows_insertAll seedValues
  rwa [numbered_seedValue] at hperm

/-- The candidates of a field the built-in mapping has. -/
theorem lookup_seededKeywords (hcollate : TellsApart) {e : Str × List Str}
    (he : e ∈ HeaderMapping.defaults.keywords) :
    (readKeywords MappingTables.seeded.headerMap.rows).lookup e.1 = some e.2 := by
  have hperm := headerMap_seeded hcollate
  have hids : ((MappingTables.seeded.headerMap.rows.filter KeywordRow.enabled).map
      KeywordRow.id).Nodup := ((hperm.map _).nodup_iff).mpr keywordRows_ids
  have hcandidates := keywordRows_checked.2.2.2 e he
  have hne : e.2 ≠ [] := (show ∀ e ∈ HeaderMapping.defaults.keywords, e.2 ≠ [] by decide) e he
  have hfield : ((MappingTables.seeded.headerMap.rows.filter KeywordRow.enabled).filter
      fun r => r.field = e.1).Perm (keywordRows.filter fun r => r.field = e.1) := hperm.filter _
  have hsorted : byPriority KeywordRow.priority KeywordRow.id
      ((MappingTables.seeded.headerMap.rows.filter KeywordRow.enabled).filter
        fun r => r.field = e.1) = byPriority KeywordRow.priority KeywordRow.id
      (keywordRows.filter fun r => r.field = e.1) :=
    orderBy_perm ((keysDiffer_priority keywordRows_ids).filter _) hfield
  unfold readKeywords
  rw [lookup_group hids, hsorted, hcandidates, if_neg]
  intro hnil
  rw [hnil] at hsorted
  rw [← hsorted] at hcandidates
  exact hne hcandidates.symm

/-- A rule that was dropped because it repeats an earlier one would never have been reached. -/
theorem find?_seededValues (hcollate : TellsApart) (f raw : Str) :
    (byPriority ValueRow.priority ValueRow.id
      ((valueRows.filter fun r => r.field = f).filter (Table.isFirst valueKeying valueRows))).find?
        (fun r => ruleMatches raw r.rule) =
      (byPriority ValueRow.priority ValueRow.id (valueRows.filter fun r => r.field = f)).find?
        fun r => ruleMatches raw r.rule := by
  refine find?_orderBy_filter ((keysDiffer_priority valueRows_ids).filter _) fun r hr hnot hmatch => ?_
  obtain ⟨hr, hrf⟩ := List.mem_filter.mp hr
  obtain ⟨q, hq, hkey, hne, -, before, after, hrows, hafter⟩ :=
    Table.exists_first_of_not_isFirst hr hnot
  have htexts : Host.collate q.field = Host.collate r.field ∧
      (Host.collate q.raw, q.matchMode) = (Host.collate r.raw, r.matchMode) := Prod.ext_iff.mp hkey
  have hraw : lower q.raw = lower r.raw :=
    hcollate _ (valueTexts hq).2 _ (valueTexts hr).2 (Prod.ext_iff.mp htexts.2).1
  have hmode : q.matchMode = r.matchMode := (Prod.ext_iff.mp htexts.2).2
  have hpair := valueRows_checked.1
  rw [hrows] at hpair
  obtain ⟨hfield, hlt⟩ := (List.pairwise_cons.mp (List.pairwise_append.mp hpair).2.1).1 r hafter
    (hcollate _ (valueTexts hq).1 _ (valueTexts hr).1 htexts.1) hraw hmode
  have hrf : r.field = f := of_decide_eq_true hrf
  refine ⟨q, List.mem_filter.mpr ⟨hq, decide_eq_true (hfield.trans hrf)⟩, ?_, hlt⟩
  -- the two rules are literal, so they match the same values
  have hsame : ruleMatches raw q.rule = ruleMatches raw r.rule := by
    have hregex := valueRows_checked.2.1 r hr
    unfold ruleMatches ValueRow.rule
    dsimp only
    rw [hmode, hraw]
    cases hm : parseMode r.matchMode with
    | exact => rfl
    | contains => rfl
    | regex => exact absurd hm hregex
  rw [hsame, hmatch]

/-- A value of a field the built-in mapping has rules for. -/
theorem normalizeValue_seeded (hcollate : TellsApart) {e : Str × List ValueRule}
    (he : e ∈ HeaderMapping.defaults.values) (keywords : List (Str × List Str)) (raw : Str) :
    normalizeValue ⟨keywords, readValues MappingTables.seeded.headerValueMap.rows⟩ e.1 raw =
      normalizeValue HeaderMapping.defaults e.1 raw := by
  have hperm := headerValueMap_seeded
  have hids : (MappingTables.seeded.headerValueMap.rows.map ValueRow.id).Nodup :=
    (hperm.map ValueRow.id).nodup_iff.mpr
      (List.Nodup.sublist (List.filter_sublist.map ValueRow.id) valueRows_ids)
  have hsorted : byPriority ValueRow.priority ValueRow.id
      (MappingTables.seeded.headerValueMap.rows.filter fun r => r.field = e.1) =
      byPriority ValueRow.priority ValueRow.id ((valueRows.filter fun r => r.field = e.1).filter
        (Table.isFirst valueKeying valueRows)) := by
    rw [List.filter_comm]
    exact orderBy_perm (((keysDiffer_priority valueRows_ids).filter _).filter _) (hperm.filter _)
  have hread : ((readValues MappingTables.seeded.headerValueMap.rows).lookup e.1).getD [] =
      (byPriority ValueRow.priority ValueRow.id ((valueRows.filter fun r => r.field = e.1).filter
        (Table.isFirst valueKeying valueRows))).map ValueRow.rule := by
    rw [readValues, getD_lookup_group hids, hsorted]
  have hdefaults : (HeaderMapping.defaults.values.lookup e.1).getD [] = (byPriority
      ValueRow.priority ValueRow.id (valueRows.filter fun r => r.field = e.1)).map ValueRow.rule := by
    rw [valueRows_checked.2.2.2 e he]
    exact (show ∀ e ∈ HeaderMapping.defaults.values,
      (HeaderMapping.defaults.values.lookup e.1).getD [] = e.2 by decide) e he
  have hfind := find?_seededValues hcollate e.1 raw
  rw [normalizeValue_eq, normalizeValue_eq, hread, hdefaults, List.find?_map, List.find?_map]
  exact congrArg (fun found => (Option.map ValueRule.normalized (Option.map ValueRow.rule found)).getD
    raw) hfind

/-- **A seeded database resolves every image HDU at every site as the built-in mapping does.** -/
theorem resolve_seeded (hcollate : TellsApart) (h : Hdu) (site : SiteContext) :
    resolve h (loadMapping MappingTables.seeded) site = resolve h HeaderMapping.defaults site := by
  unfold loadMapping
  split
  · rfl
  · refine resolve_congr h site (fun e he => ?_) fun e he raw => ?_
    · have hdefaults : HeaderMapping.defaults.keywords.lookup e.1 = some e.2 :=
        (show ∀ e ∈ HeaderMapping.defaults.keywords,
          HeaderMapping.defaults.keywords.lookup e.1 = some e.2 by decide) e he
      rw [hdefaults, ← lookup_seededKeywords hcollate he]
    · exact normalizeValue_seeded hcollate he (readKeywords MappingTables.seeded.headerMap.rows) raw

end Seeded

/-- A server whose collation ignores the case of letters. -/
@[reducible] def caselessHost : Host := { plainHost with collate := lower }

section Example

attribute [local instance] caselessHost

def flatdarkHdu : Hdu := ⟨0, true, 16, 2, 10, 10, [⟨"IMAGETYP".toList, "FlatDark".toList, []⟩]⟩

theorem resolve_seeded_flatdark : TellsApart ∧
    resolve flatdarkHdu (loadMapping MappingTables.seeded) {} =
      resolve flatdarkHdu HeaderMapping.defaults {} :=
  ⟨fun _ _ _ _ h => h, resolve_seeded (fun _ _ _ _ h => h) flatdarkHdu {}⟩

end Example

end StarBase.Index
